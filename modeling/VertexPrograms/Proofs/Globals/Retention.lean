import Mathlib.Logic.Basic
import VertexPrograms.Proofs.Globals.Editing

/-!
# What the table of globals keeps

A call on the table registers a new key, gives one variable a value that it may have, or changes
nothing. So whatever calls are made in a row, a key that is registered stays registered, a constant
keeps its value, and a variable that is not null keeps its kind. The calls are given once more as
code that changes the table in place, in which the change of a variable may itself be code: it is
run on a copy, so that nothing of it is left if it is refused.
-/

namespace VertexPrograms

/-- What may become of an entry: a constant keeps its value, and what is not null keeps its kind. -/
structure Global.Becomes (a b : Global) : Prop where
  constant : b.constant = a.constant
  value : a.constant = true → b.value = a.value
  kind : a.value.kind ≠ .null → b.value.kind = a.value.kind

namespace Global.Becomes

variable {a b c : Global}

theorem refl (a : Global) : a.Becomes a := ⟨rfl, fun _ => rfl, fun _ => rfl⟩

theorem trans (h : a.Becomes b) (h' : b.Becomes c) : a.Becomes c where
  constant := h'.constant.trans h.constant
  value ha := (h'.value (h.constant.trans ha)).trans (h.value ha)
  kind ha := (h'.kind (h.kind ha ▸ ha)).trans (h.kind ha)

end Global.Becomes

namespace Globals

variable {g g' : Globals} {key : String} {e : Global}

/-! # Entries -/

/-- An entry is found exactly if the table has it. -/
theorem entry_eq_ok : g.entry key = .ok e ↔ g.entries[key]? = some e := by
  rw [entry]
  cases g.entries[key]? <;> simp

/-- It is not found exactly if the table does not contain its key. -/
theorem entry_eq_error {error : Error} :
    g.entry key = .error error ↔ g.contains key = false ∧ error = .unknownGlobal key := by
  rw [entry, contains, Std.ExtTreeMap.contains_eq_isSome_getElem?]
  cases g.entries[key]? <;> simp [eq_comm]

theorem contains_eq_true : g.contains key = true ↔ ∃ e, g.entry key = .ok e := by
  simp only [entry_eq_ok, contains, Std.ExtTreeMap.contains_eq_isSome_getElem?,
    Option.isSome_iff_exists]

/-- The entries of a table in which one has been put. -/
theorem entry_put (g : Globals) (key : String) (e : Global) (other : String) :
    (g.put key e).entry other = if key = other then .ok e else g.entry other := by
  rw [entry, put, Std.ExtTreeMap.getElem?_insert]
  by_cases h : key = other
  · simp [h]
  · simp [h, entry]

@[simp] theorem entry_put_self (g : Globals) (key : String) (e : Global) :
    (g.put key e).entry key = .ok e := by
  rw [entry_put, if_pos rfl]

/-! # What is refused -/

/-- Why a change of a variable is refused. -/
inductive Refuses (g : Globals) (key : String) (f : Value → Value) : Error → Prop
  | unknown (h : g.contains key = false) : Refuses g key f (.unknownGlobal key)
  | constant {e : Global} (he : g.entry key = .ok e) (hconstant : e.constant = true) :
      Refuses g key f (.constantGlobal key)
  | mismatch {e : Global} (he : g.entry key = .ok e) (hvariable : e.constant = false)
      (hnull : e.value.kind ≠ .null) (hkind : (f e.value).kind ≠ e.value.kind) :
      Refuses g key f (.typeMismatch key e.value.kind.name (f e.value).kind.name)

/-- An update that is refused changes nothing. -/
theorem Refuses.perform {f : Value → Value} {error : Error} (h : Refuses g key f error) :
    g.perform (.update key f) = (.error error, g) := by
  rw [perform_update]
  cases h with
  | unknown hnew => rw [entry_eq_error.mpr ⟨hnew, rfl⟩]
  | constant he hconstant =>
    rw [he, update_of_ok he, if_pos hconstant]
    rfl
  | mismatch he hvariable hnull hkind =>
    rw [he, update_of_ok he, if_neg (by simp [hvariable]), if_pos ⟨hnull, hkind⟩]
    rfl

/-- A change of a variable is refused for one of these reasons, or it is made. -/
theorem update_cases (g : Globals) (key : String) (f : Value → Value) :
    (∃ error, Refuses g key f error) ∨
      ∃ e, g.entry key = .ok e ∧ e.constant = false ∧
        (e.value.kind = .null ∨ (f e.value).kind = e.value.kind) ∧
        g.perform (.update key f) = (.ok e.value, g.put key { e with value := f e.value }) := by
  cases he : g.entry key with
  | error error => exact .inl ⟨_, .unknown (entry_eq_error.mp he).1⟩
  | ok e =>
    by_cases hconstant : e.constant = true
    · exact .inl ⟨_, .constant he hconstant⟩
    · have hvariable : e.constant = false := Bool.eq_false_iff.mpr hconstant
      by_cases hkind : e.value.kind ≠ .null ∧ (f e.value).kind ≠ e.value.kind
      · exact .inl ⟨_, .mismatch he hvariable hkind.1 hkind.2⟩
      · have hmade :
            g.perform (.update key f) = (.ok e.value, g.put key { e with value := f e.value }) := by
          rw [perform_update, he, update_of_ok he, if_neg hconstant, if_neg hkind]
          rfl
        rw [not_and_or, Classical.not_not, Classical.not_not] at hkind
        exact .inr ⟨e, rfl, hvariable, hkind, hmade⟩

/-- These are the reasons for which a change is refused, and there are no others. -/
theorem perform_update_eq_error {f : Value → Value} {error : Error} :
    (g.perform (.update key f)).1 = .error error ↔ Refuses g key f error := by
  constructor
  · intro hrefused
    rcases update_cases g key f with ⟨reason, hreason⟩ | ⟨e, -, -, -, hmade⟩
    · rw [hreason.perform] at hrefused
      obtain rfl := Except.error.inj hrefused
      exact hreason
    · rw [hmade] at hrefused
      cases hrefused
  · intro hreason
    rw [hreason.perform]

/-- A call that is refused leaves the table as it was. -/
theorem perform_of_error (c : Call) {error : Error} (h : (g.perform c).1 = .error error) :
    (g.perform c).2 = g := by
  have hsettle {α : Type} {answer : α} {r : Except Error Globals}
      (h : (g.settle answer r).1 = .error error) : (g.settle answer r).2 = g := by
    cases r with
    | ok g' => cases h
    | error e => rfl
  cases c with
  | insert key value constant => exact hsettle h
  | set key value => exact hsettle h
  | update key f => rw [(perform_update_eq_error.mp h).perform]
  | _ => rfl

/-! # What a call changes -/

/-- The key of the variable that a call is to change. -/
def Call.assigned? : Call → Option String
  | .set key _ | .update key _ => some key
  | _ => none

/-- What a call can make of the table. -/
inductive Change (g : Globals) (c : Call) : Globals → Prop
  | nothing : Change g c g
  | registered {key : String} {value : Value} {constant : Bool}
      (hc : c = .insert key value constant) (hkey : key ≠ "") (hnew : g.contains key = false) :
      Change g c (g.put key ⟨value, constant⟩)
  | assigned {key : String} {e : Global} {value : Value} (hc : c.assigned? = some key)
      (he : g.entry key = .ok e) (hvariable : e.constant = false) (hkind : e.value.kind = .null ∨
        value.kind = e.value.kind) :
      Change g c (g.put key { e with value })

/-- An update changes a table as its code is told to. -/
private theorem change_update {c : Call} (hc : c.assigned? = some key) (f : Value → Value) :
    Change g c (g.perform (.update key f)).2 := by
  rcases update_cases g key f with ⟨error, hreason⟩ | ⟨e, he, hvariable, hkind, hmade⟩
  · rw [hreason.perform]
    exact .nothing
  · rw [hmade]
    exact .assigned hc he hvariable hkind

/-- Whatever a call answers, it makes one of these changes. -/
theorem change_perform (g : Globals) (c : Call) : Change g c (g.perform c).2 := by
  cases c with
  | insert key value constant =>
    rw [perform, insert_eq]
    by_cases hkey : key = ""
    · rw [if_pos hkey]
      exact .nothing
    · rw [if_neg hkey]
      cases hnew : g.contains key with
      | true => exact .nothing
      | false => exact .registered rfl hkey hnew
  | set key value =>
    rw [perform_set]
    exact change_update rfl fun _ => value
  | update key f => exact change_update rfl f
  | _ => exact .nothing

namespace Change

variable {c : Call}

/-- No change takes an entry away, or makes of it what it must not become. -/
theorem kept (h : Change g c g') (he : g.entry key = .ok e) : ∃ e', g'.entry key = .ok e' ∧
    e.Becomes e' := by
  cases h with
  | nothing => exact ⟨e, he, .refl e⟩
  | @registered new value constant hc hnew hfree =>
    have hne : new ≠ key := by
      rintro rfl
      rw [contains_eq_true.mpr ⟨e, he⟩] at hfree
      cases hfree
    exact ⟨e, by rw [entry_put, if_neg hne, he], .refl e⟩
  | @assigned changed d value hc hd hvariable hkind =>
    by_cases hkey : changed = key
    · subst hkey
      obtain rfl : d = e := Except.ok.inj (hd.symm.trans he)
      refine ⟨_, entry_put_self .., rfl, fun hconstant => ?_, hkind.resolve_left⟩
      rw [hvariable] at hconstant
      cases hconstant
    · exact ⟨e, by rw [entry_put, if_neg hkey, he], .refl e⟩

/-- No change makes the empty text a key. -/
theorem named (h : Change g c g') (hg : g.contains "" = false) : g'.contains "" = false := by
  have hput {changed : String} (hkey : changed ≠ "") (e : Global) :
      (g.put changed e).contains "" = false := by
    rw [Bool.eq_false_iff, Ne, contains_eq_true, entry_put, if_neg hkey, ← contains_eq_true, hg]
    exact Bool.false_ne_true
  cases h with
  | nothing => exact hg
  | registered hc hkey hnew => exact hput hkey _
  | @assigned changed d value hc hd hvariable hkind =>
    refine hput (fun hempty => ?_) _
    rw [← hempty, contains_eq_true.mpr ⟨d, hd⟩] at hg
    cases hg

/-- A call that is to change one variable changes no entry under another key. -/
theorem others (h : Change g c g') (hc : c.assigned? = some key) {other : String}
    (hother : other ≠ key) : g'.entry other = g.entry other := by
  cases h with
  | nothing => rfl
  | registered hinsert =>
    rw [hinsert] at hc
    cases hc
  | assigned hassigned =>
    obtain rfl := Option.some.inj (hassigned.symm.trans hc)
    rw [entry_put, if_neg (Ne.symm hother)]

end Change

/-! # Calls in a row -/

/-- The table after calls in a row. -/
def after (g : Globals) (calls : List Call) : Globals := calls.foldl (fun g c => (g.perform c).2) g

/-- No call gives an entry the empty key. -/
theorem named_after (hg : g.contains "" = false) (calls : List Call) :
    (g.after calls).contains "" = false := by
  induction calls generalizing g with
  | nil => exact hg
  | cons c calls ih => exact ih ((change_perform g c).named hg)

/-- No call removes an entry. -/
theorem kept_after (calls : List Call) (he : g.entry key = .ok e) :
    ∃ e', (g.after calls).entry key = .ok e' ∧ e.Becomes e' := by
  induction calls generalizing g e with
  | nil => exact ⟨e, he, .refl e⟩
  | cons c calls ih =>
    obtain ⟨d, hd, hbecomes⟩ := (change_perform g c).kept he
    obtain ⟨d', hd', hbecomes'⟩ := ih hd
    exact ⟨d', hd', hbecomes.trans hbecomes'⟩

/-- A constant has for ever the value with which it was registered. -/
theorem constant_after {value : Value} (calls : List Call) (he : g.entry key = .ok ⟨value, true⟩) :
    (g.after calls).entry key = .ok ⟨value, true⟩ := by
  obtain ⟨e, he', hbecomes⟩ := kept_after calls he
  obtain rfl : e = ⟨value, true⟩ := by
    obtain ⟨value', constant'⟩ := e
    obtain rfl : value' = value := hbecomes.value rfl
    obtain rfl : constant' = true := hbecomes.constant
    rfl
  exact he'

end Globals

/-! # Tables changed in place -/

namespace Machine

variable {α : Type}

/-- Code that is refused leaves nothing of what it did to its copy. -/
theorem refused_updateEntry {g : Globals} {key : String} {f : StateM Value α} {error : Error}
    (h : ((updateEntry key f).on g).1 = .error error) :
    ((updateEntry key f).on g).2 = g ∧ g.Refuses key (fun old => (f.run old).2) error := by
  rw [on_updateEntry] at h ⊢
  have hrefused : (g.perform (.update key fun old => (f.run old).2)).1 = .error error := by
    cases hanswer : (g.perform (.update key fun old => (f.run old).2)).1 with
    | error _ =>
      rw [hanswer] at h
      cases h
      rfl
    | ok _ =>
      rw [hanswer] at h
      cases h
  exact ⟨Globals.perform_of_error _ hrefused, Globals.perform_update_eq_error.mp hrefused⟩

end Machine

namespace Globals

variable {g g' : Globals} {key : String} {e : Global}

/-! # What lasts -/

/-- A key that is registered has the value with which it was registered. -/
theorem entry_of_insert {value : Value} {constant : Bool}
    (h : g.insert key value constant = .ok g') : g'.entry key = .ok ⟨value, constant⟩ := by
  rw [insert_eq] at h
  split at h
  · cases h
  · split at h
    · cases h
    · obtain rfl := Except.ok.inj h
      exact entry_put_self ..

/-- A null variable may be changed by any function. -/
theorem perform_update_of_null (he : g.entry key = .ok e) (hvariable : e.constant = false)
    (hnull : e.value.kind = .null) (f : Value → Value) :
    g.perform (.update key f) = (.ok e.value, g.put key { e with value := f e.value }) := by
  rw [perform_update, he, update_of_ok he, if_neg (by simp [hvariable]), if_neg fun h => h.1 hnull]
  rfl

/-- A change that is not refused is made, and its answer is about the value before. -/
theorem perform_update_of_ok {f : Value → Value} {old : Value}
    (h : (g.perform (.update key f)).1 = .ok old) : ∃ e, g.entry key = .ok e ∧ old = e.value ∧
      (g.perform (.update key f)).2 = g.put key { e with value := f e.value } := by
  rcases update_cases g key f with ⟨error, hreason⟩ | ⟨e, he, -, -, hmade⟩
  · rw [hreason.perform] at h
    cases h
  · rw [hmade] at h
    exact ⟨e, he, (Except.ok.inj h).symm, by rw [hmade]⟩

/-- What is set is the entry of its key afterwards. -/
theorem entry_of_perform_set {value : Value} (h : (g.perform (.set key value)).1 = .ok ()) :
    ∃ e, (g.perform (.set key value)).2.entry key = .ok e ∧ e.value = value := by
  rw [perform_set] at h ⊢
  cases hupdate : (g.perform (.update key fun _ => value)).1 with
  | error error =>
    rw [hupdate] at h
    cases h
  | ok old =>
    obtain ⟨e, -, -, hput⟩ := perform_update_of_ok hupdate
    exact ⟨_, by rw [hput, entry_put_self], rfl⟩

/-- What is set is read, as it is or as a value of its kind. -/
theorem read_of_perform_set {value : Value} (h : (g.perform (.set key value)).1 = .ok ()) :
    (g.perform (.set key value)).2.value key = .ok value ∧
      ∀ wanted, (g.perform (.set key value)).2.get key wanted =
        match wanted with
        | none => .ok value
        | some kind => if value.kind = kind then .ok value
          else .error (.typeMismatch key kind.name value.kind.name) := by
  obtain ⟨e, he, rfl⟩ := entry_of_perform_set h
  constructor
  · rw [Globals.value, he]
    rfl
  · intro wanted
    cases wanted <;> simp only [get, he]

/-- What is true of a table and stays true, whatever is called on it. -/
structure Lasting (g : Globals) : Prop where
  /-- No key is empty. -/
  named {key : String} (h : g.contains key = true) : key ≠ ""
  /-- No entry disappears. A constant keeps its value, and what is not null keeps its kind. -/
  kept {key : String} {e : Global} (h : g.entry key = .ok e) (calls : List Call) :
    ∃ e', (g.after calls).entry key = .ok e' ∧ e.Becomes e'
  /-- A constant has for ever the value with which it was registered. -/
  constants {key : String} {value : Value} {g' : Globals} (h : g.insert key value true = .ok g')
    (calls : List Call) : (g'.after calls).entry key = .ok ⟨value, true⟩
  /-- A variable that is null takes any value. -/
  free {key : String} {e : Global} (he : g.entry key = .ok e) (hvariable : e.constant = false)
    (hnull : e.value.kind = .null) (f : Value → Value) :
    g.perform (.update key f) = (.ok e.value, g.put key { e with value := f e.value })
  /-- A call that is to change one variable changes no other entry. -/
  others {c : Call} {key : String} (h : c.assigned? = some key) {other : String}
    (hother : other ≠ key) : (g.perform c).2.entry other = g.entry other
  /-- A call that is refused changes nothing. -/
  refused {c : Call} {error : Error} (h : (g.perform c).1 = .error error) : (g.perform c).2 = g
  /-- A change of a variable is refused for the reasons there are, each with its error. -/
  reasons (key : String) (f : Value → Value) (error : Error) :
    (g.perform (.update key f)).1 = .error error ↔ Refuses g key f error
  /-- A change of a variable that is not refused is made. -/
  made {key : String} {f : Value → Value} {old : Value}
    (h : (g.perform (.update key f)).1 = .ok old) : ∃ e, g.entry key = .ok e ∧ old = e.value ∧
      (g.perform (.update key f)).2 = g.put key { e with value := f e.value }
  /-- To set a variable is to change it by a function that does not look at its value. -/
  set (key : String) (value : Value) : g.perform (.set key value) =
    ((fun _ => ()) <$> (g.perform (.update key fun _ => value)).1,
      (g.perform (.update key fun _ => value)).2)
  /-- What is set is read, as it is or as a value of its kind. -/
  read {key : String} {value : Value} (h : (g.perform (.set key value)).1 = .ok ()) :
    (g.perform (.set key value)).2.value key = .ok value ∧
      ∀ wanted, (g.perform (.set key value)).2.get key wanted =
        match wanted with
        | none => .ok value
        | some kind => if value.kind = kind then .ok value
          else .error (.typeMismatch key kind.name value.kind.name)
  /-- The calls are what their code in place does. -/
  code (c : Call) : (Machine.tableCode c).on g = g.perform c
  /-- If the change of a variable is itself code and is refused, nothing is left of what the code
  did. -/
  copied {α : Type} {key : String} {f : StateM Value α} {error : Error}
    (h : ((Machine.updateEntry key f).on g).1 = .error error) :
    ((Machine.updateEntry key f).on g).2 = g ∧ Refuses g key (fun old => (f.run old).2) error

/-- All of this holds after any calls on a new table. -/
theorem lasting_after (calls : List Call) : (({} : Globals).after calls).Lasting where
  named := by
    have hempty : ({} : Globals).contains "" = false := Std.ExtTreeMap.contains_empty
    rintro key h rfl
    rw [named_after hempty] at h
    cases h
  kept h calls := kept_after calls h
  constants h calls := constant_after calls (entry_of_insert h)
  free := perform_update_of_null
  others h := (change_perform _ _).others h
  refused h := perform_of_error _ h
  reasons _ _ _ := perform_update_eq_error
  made := perform_update_of_ok
  set := perform_set _
  read := read_of_perform_set
  code c := Machine.on_tableCode c _
  copied h := Machine.refused_updateEntry h

example :
    let g := ({} : Globals).after [.insert "n" (.integer 10) true, .insert "x" .null false,
      .set "x" (.integer 1), .update "x" fun _ => .null, .set "n" .null]
    g.value "n" = .ok (.integer 10) ∧ g.value "x" = .ok (.integer 1) := by
  constructor <;> rfl

end Globals

end VertexPrograms
