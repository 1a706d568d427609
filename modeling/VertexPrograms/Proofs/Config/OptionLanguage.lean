import Mathlib.Data.List.TakeWhile
import VertexPrograms.Config.Environment
import VertexPrograms.Config.Options
import VertexPrograms.Proofs.Text.Words

/-!
# The language of option strings

What the words of an option string say, given as relations that do not mention how they are read:
which key and value a word is split into, which field they set to which value, and with which error
they are refused. A string is accepted if and only if each of its words sets a field, and then each
field has the value it was given last; else its error is that of the first word that sets none.
Variables of the environment mean what the words they stand for mean.
-/

namespace VertexPrograms

/-- The names a policy is known by. -/
def Policy.spellings : Policy → List String
  | fifo => ["fifo"]
  | priority => ["priority"]
  | roundRobin => ["round_robin", "round-robin", "roundrobin"]

namespace Config

open Text

/-- A field and the value it is given. -/
inductive Assignment where
  | workers (n : Nat)
  | policy (p : Policy)
  | consistency (level : Consistency)
  | abort (b : Bool)
  | sync (n : Nat)
  deriving DecidableEq, Repr

/-- Makes an assignment. -/
def Assignment.make (c : Config) : Assignment → Config
  | workers n => { c with workerThreads := n }
  | policy p => { c with policy := p }
  | consistency level => { c with consistency := level }
  | abort b => { c with abortOnError := b }
  | sync n => { c with syncThreads := n }

/-- The configuration in which each field has the last value it is given, or `c`'s if it is given
none. -/
def overridden (c : Config) (as : List Assignment) : Config where
  workerThreads :=
    (as.filterMap fun | .workers n => some n | _ => none).getLast?.getD c.workerThreads
  policy := (as.filterMap fun | .policy p => some p | _ => none).getLast?.getD c.policy
  consistency :=
    (as.filterMap fun | .consistency level => some level | _ => none).getLast?.getD c.consistency
  abortOnError := (as.filterMap fun | .abort b => some b | _ => none).getLast?.getD c.abortOnError
  syncThreads := (as.filterMap fun | .sync n => some n | _ => none).getLast?.getD c.syncThreads

/-- Assignments made one after another come to the configuration they override. -/
theorem foldl_make (c : Config) (as : List Assignment) :
    as.foldl Assignment.make c = c.overridden as := by
  induction as generalizing c with
  | nil => rfl
  | cons a as ih =>
    rw [List.foldl_cons, ih]
    cases a <;> simp only [overridden, Assignment.make, List.filterMap_cons, List.getLast?_cons,
      Option.getD_some]

/-! # Keys and values -/

/-- The keys of the number of workers. -/
def workerKeys : List String := ["ncpus", "workers", "worker_threads"]

/-- The keys of the level. -/
def consistencyKeys : List String := ["scope", "consistency"]

/-- All keys there are. -/
def knownKeys : List String :=
  workerKeys ++ consistencyKeys ++ ["scheduler", "abort_on_error", "sync_threads"]

/-- The assignment a key with a value stands for. -/
inductive Denotes : String → String → Assignment → Prop
  | workers {key value : String} {n : Nat} : key ∈ workerKeys → Numeral value.toList n → n ≠ 0 →
      n < 2 ^ 64 → Denotes key value (.workers n)
  | policy {value : String} {policy : Policy} : lowered value ∈ policy.spellings →
      Denotes "scheduler" value (.policy policy)
  | consistency {key value : String} {level : Consistency} : key ∈ consistencyKeys →
      lowered value = level.name → Denotes key value (.consistency level)
  | yes : Denotes "abort_on_error" "true" (.abort true)
  | no : Denotes "abort_on_error" "false" (.abort false)
  | sync {value : String} {n : Nat} : Numeral value.toList n → n < 2 ^ 64 →
      Denotes "sync_threads" value (.sync n)

/-- The error with which a key with a value is refused. -/
inductive Refuses : String → String → Error → Prop
  | unknown {key value : String} : key ∉ knownKeys →
      Refuses key value (.invalidArgument s!"unknown option: {key}")
  | workers {key value : String} : key ∈ workerKeys → (∀ a, ¬Denotes key value a) →
      Refuses key value (.invalidArgument s!"invalid value for {key}: {value}")
  | policy {value : String} : (∀ a, ¬Denotes "scheduler" value a) →
      Refuses "scheduler" value (.invalidArgument s!"unknown scheduler policy: {lowered value}")
  | consistency {key value : String} : key ∈ consistencyKeys → (∀ a, ¬Denotes key value a) →
      Refuses key value (.invalidArgument s!"unknown consistency level: {lowered value}")
  | abort {key value : String} : key = "abort_on_error" → (∀ a, ¬Denotes key value a) →
      Refuses key value (.invalidArgument s!"invalid value for {key}: {value}")
  | sync {key value : String} : key = "sync_threads" → (∀ a, ¬Denotes key value a) →
      Refuses key value (.invalidArgument s!"invalid value for {key}: {value}")

section Reading

variable {c : Config} {key value : String} {a : Assignment} {e : Error}

/-- A spelling of a policy is read as that policy. -/
theorem parse_policy_of_mem (hv : Solid value.toList) {p : Policy}
    (hp : lowered value ∈ p.spellings) : Policy.parse value = .ok p := by
  rw [Policy.parse, normalize_of_solid hv]
  cases p with
  | fifo =>
    rw [List.mem_singleton.mp hp]
    rfl
  | priority =>
    rw [List.mem_singleton.mp hp]
    rfl
  | roundRobin =>
    simp only [Policy.spellings, List.mem_cons, List.not_mem_nil, or_false] at hp
    obtain hp | hp | hp := hp <;> rw [hp] <;> rfl

/-- What is no spelling of a policy is refused, with its lower-case form. -/
theorem parse_policy_of_not_mem (hv : Solid value.toList)
    (hp : ∀ p : Policy, lowered value ∉ p.spellings) :
    Policy.parse value =
      .error (.invalidArgument s!"unknown scheduler policy: {lowered value}") := by
  have hfifo : lowered value ≠ "fifo" := fun h => hp .fifo (by simp [Policy.spellings, h])
  have hpriority : lowered value ≠ "priority" :=
    fun h => hp .priority (by simp [Policy.spellings, h])
  have hrobin := hp .roundRobin
  simp only [Policy.spellings, List.mem_cons, List.not_mem_nil, or_false, not_or] at hrobin
  rw [Policy.parse, normalize_of_solid hv]
  split <;> simp_all

/-- The name of a level is read as that level. -/
theorem parse_consistency_of_eq (hv : Solid value.toList) {level : Consistency}
    (hl : lowered value = level.name) : Consistency.parse value = .ok level := by
  simp only [Consistency.parse, normalize_of_solid hv, hl, Consistency.ofName?_name]

/-- What is no name of a level is refused, with its lower-case form. -/
theorem parse_consistency_of_ne (hv : Solid value.toList)
    (hl : ∀ level : Consistency, lowered value ≠ level.name) :
    Consistency.parse value =
      .error (.invalidArgument s!"unknown consistency level: {lowered value}") := by
  have unnamed : Consistency.ofName? (lowered value) = none := by
    have hvertex := hl .vertex
    have hedge := hl .edge
    have hfull := hl .full
    unfold Consistency.ofName?
    split <;> simp_all [Consistency.name]
  simp only [Consistency.parse, normalize_of_solid hv, unnamed]

/-- Every key for the workers stands for their number. -/
theorem ofKey?_of_mem_workerKeys (h : key ∈ workerKeys) : Setting.ofKey? key = some .workers := by
  simp only [workerKeys, List.mem_cons, List.not_mem_nil, or_false] at h
  obtain rfl | rfl | rfl := h <;> rfl

/-- Every key for the consistency stands for the level. -/
theorem ofKey?_of_mem_consistencyKeys (h : key ∈ consistencyKeys) :
    Setting.ofKey? key = some .consistency := by
  simp only [consistencyKeys, List.mem_cons, List.not_mem_nil, or_false] at h
  obtain rfl | rfl := h <;> rfl

/-- Any other key stands for no setting. -/
theorem ofKey?_of_not_mem (h : key ∉ knownKeys) : Setting.ofKey? key = none := by
  simp only [knownKeys, workerKeys, consistencyKeys, List.mem_cons, List.mem_append,
    List.not_mem_nil, or_false, not_or] at h
  unfold Setting.ofKey?
  split <;> simp_all

/-- A setting is made if its key and value denote it. -/
theorem apply_of_denotes (hv : Solid value.toList) (h : Denotes key value a) :
    c.apply key value = .ok (a.make c) := by
  cases h with
  | workers hk hn h0 hlt =>
    have read := readWord?_eq_some.mpr ⟨hn, hlt⟩
    simp only [apply, ofKey?_of_mem_workerKeys hk, read, Option.filter_some, decide_eq_true_iff,
      Nat.pos_iff_ne_zero, ne_eq, h0, not_false_eq_true, if_true, Assignment.make]
  | policy hp =>
    simp only [apply, Setting.ofKey?, parse_policy_of_mem hv hp]
    rfl
  | consistency hk hl =>
    simp only [apply, ofKey?_of_mem_consistencyKeys hk, parse_consistency_of_eq hv hl]
    rfl
  | yes => rfl
  | no => rfl
  | sync hn hlt =>
    have read := readWord?_eq_some.mpr ⟨hn, hlt⟩
    simp only [apply, Setting.ofKey?, read, Assignment.make]

/-- A setting is refused with the error its key and value are refused with. -/
theorem apply_of_refuses (hv : Solid value.toList) (h : Refuses key value e) :
    c.apply key value = .error e := by
  cases h with
  | unknown hk => simp only [apply, ofKey?_of_not_mem hk]
  | workers hk hn =>
    have unread : (readWord? value.toList).filter (0 < ·) = none := by
      rw [Option.filter_eq_none_iff]
      intro n hread hpos
      obtain ⟨hnum, hlt⟩ := readWord?_eq_some.mp hread
      exact hn _ (.workers hk hnum (of_decide_eq_true hpos).ne' hlt)
    simp only [apply, ofKey?_of_mem_workerKeys hk, unread, invalidValue]
  | policy hn =>
    have unnamed (p : Policy) : lowered value ∉ p.spellings := fun hp => hn _ (.policy hp)
    simp only [apply, Setting.ofKey?, parse_policy_of_not_mem hv unnamed]
    rfl
  | consistency hk hn =>
    have unnamed (level : Consistency) : lowered value ≠ level.name :=
      fun hl => hn _ (.consistency hk hl)
    simp only [apply, ofKey?_of_mem_consistencyKeys hk, parse_consistency_of_ne hv unnamed]
    rfl
  | abort hk hn =>
    subst hk
    have hyes : value ≠ "true" := by
      rintro rfl
      exact hn _ .yes
    have hno : value ≠ "false" := by
      rintro rfl
      exact hn _ .no
    simp only [apply, Setting.ofKey?, invalidValue]
  | sync hk hn =>
    subst hk
    have unread : readWord? value.toList = none := by
      rw [Option.eq_none_iff_forall_ne_some]
      intro n hread
      obtain ⟨hnum, hlt⟩ := readWord?_eq_some.mp hread
      exact hn _ (.sync hnum hlt)
    simp only [apply, Setting.ofKey?, unread, invalidValue]

/-- A key with a value denotes a setting, or it is refused. -/
theorem denotes_or_refuses (key value : String) : (∃ a, Denotes key value a) ∨
    ∃ e, Refuses key value e := by
  by_cases h : ∃ a, Denotes key value a
  · exact .inl h
  · have hn (a : Assignment) : ¬Denotes key value a := fun ha => h ⟨a, ha⟩
    refine .inr ?_
    by_cases hk : key ∈ knownKeys
    · simp only [knownKeys, List.mem_append, List.mem_cons, List.not_mem_nil, or_false] at hk
      obtain (hk | hk) | rfl | rfl | rfl := hk
      · exact ⟨_, .workers hk hn⟩
      · exact ⟨_, .consistency hk hn⟩
      · exact ⟨_, .policy hn⟩
      · exact ⟨_, .abort rfl hn⟩
      · exact ⟨_, .sync rfl hn⟩
    · exact ⟨_, .unknown hk⟩

end Reading

/-! # Words -/

/-- Without its leading dashes the word is the key, an equals sign, which is its first one, and the
value. -/
def Splits (token : List Char) (key value : String) : Prop :=
  ∃ dashes : Nat, token = List.replicate dashes '-' ++ (key.toList ++ '=' :: value.toList) ∧
    key.toList.head? ≠ some '-' ∧ '=' ∉ key.toList

/-- The assignment a word asks for. -/
def Asks (token : List Char) (a : Assignment) : Prop :=
  ∃ key value, Splits token key value ∧ Denotes key value a

/-- The error with which a word is refused. -/
inductive Wrong (token : List Char) : Error → Prop
  | unsplit : '=' ∉ token →
      Wrong token (.invalidArgument s!"expected key=value, got {String.ofList token}")
  | refused {key value : String} {e : Error} : Splits token key value → Refuses key value e →
      Wrong token e

section Words

variable {c : Config} {token : List Char} {key value : String} {a : Assignment} {e : Error}

/-- What is left of a text behind its leading dashes. -/
theorem dropWhile_dashes (cs : List Char) (dashes : Nat) (h : cs.head? ≠ some '-') :
    (List.replicate dashes '-' ++ cs).dropWhile (· == '-') = cs := by
  rw [List.dropWhile_append_of_pos fun c hc => beq_iff_eq.mpr (List.eq_of_mem_replicate hc)]
  cases cs with
  | nil => rfl
  | cons c cs => exact List.dropWhile_cons_of_neg fun hc => h (congrArg some (beq_iff_eq.mp hc))

/-- A token is split at its first equals sign. -/
theorem splitAssignment?_append {front : List Char} (h : '=' ∉ front) (back : List Char) :
    splitAssignment? (front ++ '=' :: back) = some (String.ofList front, String.ofList back) := by
  have other (c : Char) (hc : c ∈ front) : (c != '=') = true := bne_iff_ne.mpr fun he => h (he ▸ hc)
  rw [splitAssignment?, List.dropWhile_append_of_pos other, List.takeWhile_append_of_pos other]
  simp

/-- A token without an equals sign is not split. -/
theorem splitAssignment?_of_not_mem (h : '=' ∉ token) : splitAssignment? token = none := by
  have other : token.dropWhile (· != '=') = [] :=
    List.dropWhile_eq_nil_iff.mpr fun c hc => bne_iff_ne.mpr fun he => h (he ▸ hc)
  rw [splitAssignment?, other]

/-- A token that is split is applied as the setting of a value. -/
theorem applyWord_of_splits (h : Splits token key value) :
    applyWord c token = c.apply key value := by
  obtain ⟨dashes, rfl, hhead, heq⟩ := h
  have hhead' : (key.toList ++ '=' :: value.toList).head? ≠ some '-' := by
    cases hk : key.toList with
    | nil => simp
    | cons k ks => simpa [hk] using hhead
  rw [applyWord, dropWhile_dashes _ _ hhead', splitAssignment?_append heq, String.ofList_toList,
    String.ofList_toList]

/-- The value is a part of the word. -/
theorem Splits.solid (h : Splits token key value) (ht : Solid token) : Solid value.toList := by
  obtain ⟨dashes, rfl, -⟩ := h
  exact fun c hc => ht c (by simp [hc])

/-- A token that asks for an assignment makes it. -/
theorem applyWord_of_asks (ht : Solid token) (h : Asks token a) :
    applyWord c token = .ok (a.make c) := by
  obtain ⟨key, value, hs, hd⟩ := h
  rw [applyWord_of_splits hs, apply_of_denotes (hs.solid ht) hd]

/-- A wrong token is refused with its error. -/
theorem applyWord_of_wrong (ht : Solid token) (h : Wrong token e) :
    applyWord c token = .error e := by
  cases h with
  | unsplit h =>
    have rest : '=' ∉ token.dropWhile (· == '-') := fun hm => h (List.dropWhile_subset _ hm)
    rw [applyWord, splitAssignment?_of_not_mem rest]
  | refused hs hr => rw [applyWord_of_splits hs, apply_of_refuses (hs.solid ht) hr]

/-- A word with an equals sign splits at the first one. -/
theorem exists_splits (h : '=' ∈ token) : ∃ key value, Splits token key value := by
  let dashes := token.takeWhile (· == '-')
  have hdashes : dashes = List.replicate dashes.length '-' :=
    List.eq_replicate_iff.mpr ⟨rfl, fun c hc => by simpa using List.mem_takeWhile_imp hc⟩
  have hall : token = List.replicate dashes.length '-' ++ token.dropWhile (· == '-') := by
    rw [← hdashes, List.takeWhile_append_dropWhile]
  have hmem : '=' ∈ token.dropWhile (· == '-') := by
    rw [hall, List.mem_append, List.mem_replicate] at h
    exact h.resolve_left fun h => absurd h.2 (by decide)
  obtain ⟨front, back, hrest, hfront⟩ := List.eq_append_cons_of_mem hmem
  have hhead : front.head? ≠ some '-' := by
    intro hd
    have stop := List.head?_dropWhile_not (· == '-') token
    rw [hrest, List.head?_append, hd] at stop
    simp at stop
  refine ⟨String.ofList front, String.ofList back, dashes.length, ?_⟩
  rw [String.toList_ofList, String.toList_ofList, ← hrest]
  exact ⟨hall, hhead, hfront⟩

/-- A word asks for an assignment, or it is refused. -/
theorem asks_or_wrong (token : List Char) : (∃ a, Asks token a) ∨ ∃ e, Wrong token e := by
  by_cases h : '=' ∈ token
  · obtain ⟨key, value, hs⟩ := exists_splits h
    obtain ⟨a, ha⟩ | ⟨e, he⟩ := denotes_or_refuses key value
    · exact .inl ⟨a, key, value, hs, ha⟩
    · exact .inr ⟨e, .refused hs he⟩
  · exact .inr ⟨_, .unsplit h⟩

end Words

/-! # Option strings -/

section Strings

variable {c : Config} {ts : List (List Char)}

/-- Tokens that each ask for an assignment make all of them. -/
theorem foldlM_of_asks (ht : ∀ t ∈ ts, Solid t) {as : List Assignment}
    (h : List.Forall₂ Asks ts as) : ts.foldlM applyWord c = .ok (c.overridden as) := by
  rw [← foldl_make]
  induction h generalizing c with
  | nil => rfl
  | cons ha _ ih =>
    obtain ⟨hsolid, hrest⟩ := List.forall_mem_cons.mp ht
    rw [List.foldlM_cons, applyWord_of_asks hsolid ha]
    exact ih hrest

/-- The first wrong token decides the error. -/
theorem foldlM_of_wrong {before after : List (List Char)} {token : List Char} {e : Error}
    (ht : ∀ t ∈ before ++ token :: after, Solid t) (hb : ∀ t ∈ before, ∃ a, Asks t a)
    (h : Wrong token e) : (before ++ token :: after).foldlM applyWord c = .error e := by
  induction before generalizing c with
  | nil =>
    rw [List.nil_append, List.foldlM_cons, applyWord_of_wrong (ht token List.mem_cons_self) h]
    rfl
  | cons t before ih =>
    obtain ⟨hsolid, hrest⟩ := List.forall_mem_cons.mp ht
    obtain ⟨⟨a, ha⟩, hb⟩ := List.forall_mem_cons.mp hb
    rw [List.cons_append, List.foldlM_cons, applyWord_of_asks hsolid ha]
    exact ih hrest hb

/-- Every word asks for an assignment, or there is a first that asks for none. -/
theorem all_ask_or_first_wrong (ts : List (List Char)) : (∃ as, List.Forall₂ Asks ts as) ∨
    ∃ before token after e, ts = before ++ token :: after ∧ (∀ t ∈ before, ∃ a, Asks t a) ∧
      Wrong token e := by
  induction ts with
  | nil => exact .inl ⟨[], .nil⟩
  | cons t ts ih =>
    obtain ⟨a, ha⟩ | ⟨e, he⟩ := asks_or_wrong t
    · obtain ⟨as, has⟩ | ⟨before, token, after, e, rfl, hb, he⟩ := ih
      · exact .inl ⟨a :: as, .cons ha has⟩
      · exact .inr ⟨t :: before, token, after, e, rfl, List.forall_mem_cons.mpr ⟨⟨a, ha⟩, hb⟩, he⟩
    · exact .inr ⟨[], t, ts, e, rfl, by simp, he⟩

/-- An option string is applied token by token. -/
theorem ofOptions_eq (text : String) : ofOptions text = (tokens text).foldlM applyWord {} := by
  rw [ofOptions, words_toList]

/-- An option string is accepted if and only if each word asks for an assignment. -/
theorem ofOptions_eq_ok {text : String} : ofOptions text = .ok c ↔
    ∃ as, List.Forall₂ Asks (tokens text) as ∧ c = overridden {} as := by
  rw [ofOptions_eq]
  constructor
  · intro h
    obtain ⟨as, has⟩ | ⟨before, token, after, e, ht, hb, he⟩ := all_ask_or_first_wrong (tokens text)
    · rw [foldlM_of_asks (fun _ => solid_of_mem_tokens) has] at h
      exact ⟨as, has, (Except.ok.inj h).symm⟩
    · have solid : ∀ t ∈ before ++ token :: after, Solid t := ht ▸ fun _ => solid_of_mem_tokens
      rw [ht, foldlM_of_wrong solid hb he] at h
      cases h
  · rintro ⟨as, has, rfl⟩
    exact foldlM_of_asks (fun _ => solid_of_mem_tokens) has

/-- An option string is refused with the error of the first word that asks for none. -/
theorem ofOptions_eq_error {text : String} {e : Error} : ofOptions text = .error e ↔
    ∃ before token after, tokens text = before ++ token :: after ∧ (∀ t ∈ before, ∃ a, Asks t a) ∧
      Wrong token e := by
  have solid {before after : List (List Char)} {token : List Char}
      (ht : tokens text = before ++ token :: after) : ∀ t ∈ before ++ token :: after, Solid t :=
        ht ▸ fun _ => solid_of_mem_tokens
  rw [ofOptions_eq]
  constructor
  · intro h
    obtain ⟨as, has⟩ | ⟨before, token, after, e', ht, hb, he⟩ :=
      all_ask_or_first_wrong (tokens text)
    · rw [foldlM_of_asks (fun _ => solid_of_mem_tokens) has] at h
      cases h
    · rw [ht, foldlM_of_wrong (solid ht) hb he] at h
      exact ⟨before, token, after, ht, hb, Except.error.inj h ▸ he⟩
  · rintro ⟨before, token, after, ht, hb, he⟩
    rw [ht]
    exact foldlM_of_wrong (solid ht) hb he

end Strings

/-! # Variables of the environment -/

/-- The keys the variables stand for, in the order in which they are read. -/
def variableKeys : List (String × String) :=
  [("TESSERA_WORKER_THREADS", "ncpus"), ("TESSERA_SCHEDULER", "scheduler"),
    ("TESSERA_CONSISTENCY", "scope"), ("TESSERA_ABORT_ON_ERROR", "abort_on_error"),
    ("TESSERA_SYNC_THREADS", "sync_threads")]

/-- The word a variable with a value stands for; an absent or empty one stands for none. -/
def carriedWord (lookup : String → Option String) (entry : String × String) : Option (List Char) :=
  ((lookup entry.1).filter (· ≠ "")).map fun value => entry.2.toList ++ '=' :: value.toList

/-- The words the variables stand for. -/
def carried (lookup : String → Option String) : List (List Char) :=
  variableKeys.filterMap (carriedWord lookup)

section Variables

variable {c : Config} {lookup : String → Option String}

/-- The word of a known key is split into the key and the value. -/
theorem splits_key {key : String} (h : key ∈ knownKeys) (value : String) :
    Splits (key.toList ++ '=' :: value.toList) key value := by
  have proper : ∀ key ∈ knownKeys, key.toList.head? ≠ some '-' ∧ '=' ∉ key.toList := by decide
  exact ⟨0, rfl, proper key h⟩

/-- A variable sets what the word it stands for sets. -/
theorem applyVariable_eq {entry : String × String} (h : entry.2 ∈ knownKeys) :
    applyVariable lookup c entry = match carriedWord lookup entry with
      | some word => applyWord c word
      | none => .ok c := by
  rw [applyVariable, carriedWord]
  cases lookup entry.1 with
  | none => rfl
  | some value =>
    by_cases hv : value = ""
    · subst hv
      rfl
    · have kept : (some value).filter (· ≠ "") = some value :=
        Option.filter_eq_some_iff.mpr ⟨rfl, decide_eq_true hv⟩
      simp only [kept, Option.map_some, applyWord_of_splits (splits_key h value)]

/-- Variables are applied as the words that carry them. -/
theorem foldlM_applyVariable {entries : List (String × String)}
    (h : ∀ entry ∈ entries, entry.2 ∈ knownKeys) :
    entries.foldlM (applyVariable lookup) c =
      (entries.filterMap (carriedWord lookup)).foldlM applyWord c := by
  induction entries generalizing c with
  | nil => rfl
  | cons entry entries ih =>
    obtain ⟨hkey, hrest⟩ := List.forall_mem_cons.mp h
    rw [List.foldlM_cons, applyVariable_eq hkey, List.filterMap_cons]
    cases carriedWord lookup entry with
    | none => exact ih hrest
    | some word =>
      rw [List.foldlM_cons]
      exact bind_congr fun c' => ih hrest

/-- The environment is read as its words are. -/
theorem ofEnvironment_eq (lookup : String → Option String) :
    ofEnvironment lookup = (carried lookup).foldlM applyWord {} :=
  foldlM_applyVariable (by decide)

/-- The words of variables whose values have no blanks are words of a text. -/
theorem tokens_carried (h : ∀ entry ∈ variableKeys, ∀ value, lookup entry.1 = some value →
    Solid value.toList) : tokens (String.ofList ([' '].intercalate (carried lookup))) =
      carried lookup := by
  refine tokens_intercalate fun word hword => ?_
  obtain ⟨entry, hentry, hword⟩ := List.mem_filterMap.mp hword
  obtain ⟨value, hvalue, rfl⟩ := Option.map_eq_some_iff.mp hword
  have solid : ∀ entry ∈ variableKeys, Solid entry.2.toList :=
    fun entry h =>
      of_decide_eq_true (List.all_eq_true.mp (show variableKeys.all (Solid ·.2.toList) from rfl)
        entry h)
  refine ⟨by simp, fun c hc => ?_⟩
  rw [List.mem_append, List.mem_cons] at hc
  obtain hc | rfl | hc := hc
  · exact solid entry hentry c hc
  · rfl
  · exact h entry hentry value (Option.filter_eq_some_iff.mp hvalue).1 c hc

end Variables

/-- An option string is accepted if and only if each of its words asks for an assignment, and then
each field has the value it is given last; else it is refused with the error of the first word that
asks for none. Variables with values that have no blanks give the configuration or error of any text
that has the words they stand for, and there is one. -/
theorem option_language :
    (∀ text c, ofOptions text = .ok c ↔ ∃ as, List.Forall₂ Asks (tokens text) as ∧
      c = overridden {} as) ∧
    (∀ text e, ofOptions text = .error e ↔ ∃ before token after,
      tokens text = before ++ token :: after ∧ (∀ t ∈ before, ∃ a, Asks t a) ∧ Wrong token e) ∧
    ∀ lookup : String → Option String,
      (∀ entry ∈ variableKeys, ∀ value, lookup entry.1 = some value → Solid value.toList) →
      tokens (String.ofList ([' '].intercalate (carried lookup))) = carried lookup ∧
      ∀ text, tokens text = carried lookup → ofEnvironment lookup = ofOptions text := by
  refine ⟨fun _ _ => ofOptions_eq_ok, fun _ _ => ofOptions_eq_error, fun lookup h =>
    ⟨tokens_carried h, ?_⟩⟩
  intro text ht
  rw [ofEnvironment_eq, ofOptions_eq, ht]

/-- One word that sets the policy, and the variable that stands for it. -/
theorem option_language_policy :
    ofOptions "--scheduler=Round-Robin" = .ok { policy := .roundRobin } ∧
    ofEnvironment (fun v => if v = "TESSERA_SCHEDULER" then some "Round-Robin" else none) =
      ofOptions "scheduler=Round-Robin" := by
  obtain ⟨accepted, -, environment⟩ := option_language
  refine ⟨(accepted _ _).mpr ⟨[.policy .roundRobin], ?_, rfl⟩, ?_⟩
  · have asks : Asks "--scheduler=Round-Robin".toList (.policy .roundRobin) :=
      ⟨"scheduler", "Round-Robin", ⟨2, by decide, by decide, by decide⟩, .policy (by decide)⟩
    exact .cons asks .nil
  · refine (environment _ fun entry _ value h => ?_).2 _ (by decide)
    split at h
    · obtain rfl := Option.some.inj h
      decide
    · cases h

end Config

end VertexPrograms
