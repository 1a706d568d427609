import Mathlib.Data.Nat.Digits.Defs
import VertexPrograms.Text.Blank
import VertexPrograms.Text.Numeral

/-!
# Words and numerals

The words of a text are what is between its blanks, so words joined by blanks are found again. A
reader of numerals accepts a text if and only if it is a numeral as a whole, and then gives the
number it is written for.
-/

namespace VertexPrograms.Text

/-! # Words -/

/-- The words of a text: what is left between its blanks, without the empty pieces. -/
def tokens (text : String) : List (List Char) :=
  (text.toList.splitOnP isBlank).filter fun piece => !piece.isEmpty

private theorem flush_eq (current : List Char) (pieces : List (List Char)) :
    flush current (pieces.filter fun piece => !piece.isEmpty) =
      (current.reverse :: pieces).filter fun piece => !piece.isEmpty := by
  cases current <;> simp [flush]

/-- The words so far are the pieces between blanks that are not empty. -/
private theorem go_eq (current cs : List Char) :
    words.go current cs = (cs.splitOnPPrepend isBlank current).filter fun piece =>
      !piece.isEmpty := by
  induction cs generalizing current with
  | nil =>
    rw [words.go, List.splitOnPPrepend_nil, ← flush_eq]
    rfl
  | cons c cs ih =>
    cases hc : isBlank c with
    | true =>
      rw [words.go, if_pos hc, List.splitOnPPrepend_cons_pos hc, ih, flush_eq]
      rfl
    | false => rw [words.go, if_neg (by simp [hc]), List.splitOnPPrepend_cons_neg hc, ih]

theorem words_toList (text : String) : words text.toList = tokens text := go_eq [] text.toList

/-- A text without a blank. -/
def Solid (cs : List Char) : Prop := ∀ c ∈ cs, isBlank c = false

/-- A text is solid exactly if none of its characters is blank. -/
theorem all_eq_true_iff_solid {cs : List Char} : (cs.all fun c => !isBlank c) = true ↔
    Solid cs := by
  simp [Solid]

instance (cs : List Char) : Decidable (Solid cs) := decidable_of_iff _ all_eq_true_iff_solid

/-- The pieces between blanks are solid. -/
private theorem solid_of_mem_splitOnPPrepend {cs current w : List Char} (h : Solid current)
    (hw : w ∈ cs.splitOnPPrepend isBlank current) : Solid w := by
  induction cs generalizing current with
  | nil =>
    rw [List.splitOnPPrepend_nil, List.mem_singleton] at hw
    exact fun c hc => h c (List.mem_reverse.mp (hw ▸ hc))
  | cons c cs ih =>
    cases hc : isBlank c with
    | true =>
      rw [List.splitOnPPrepend_cons_pos hc, List.mem_cons] at hw
      obtain rfl | hw := hw
      · exact fun c hc => h c (List.mem_reverse.mp hc)
      · exact ih (by simp [Solid]) hw
    | false =>
      rw [List.splitOnPPrepend_cons_neg hc] at hw
      exact ih (List.forall_mem_cons.mpr ⟨hc, h⟩) hw

/-- There is no blank in a word. -/
theorem solid_of_mem_tokens {text : String} {token : List Char} (h : token ∈ tokens text) :
    Solid token :=
  solid_of_mem_splitOnPPrepend (by simp [Solid]) (List.mem_filter.mp h).1

/-- Words joined by spaces are the words of the text they make. -/
theorem tokens_intercalate {ws : List (List Char)} (h : ∀ w ∈ ws, w ≠ [] ∧ Solid w) :
    tokens (String.ofList ([' '].intercalate ws)) = ws := by
  rw [tokens, String.toList_ofList]
  induction ws with
  | nil => rfl
  | cons w ws ih =>
    obtain ⟨⟨hne, hw⟩, hrest⟩ := List.forall_mem_cons.mp h
    have kept (pieces : List (List Char)) : (w :: pieces).filter (fun piece => !piece.isEmpty) =
        w :: pieces.filter fun piece => !piece.isEmpty :=
          List.filter_cons_of_pos (by simpa using hne)
    cases ws with
    | nil =>
      rw [List.intercalate_singleton, List.splitOnP_eq_singleton hw, kept]
      rfl
    | cons w' ws =>
      rw [List.intercalate_cons_cons, List.append_assoc, List.singleton_append,
        List.splitOnP_append_cons_of_forall_mem hw ' ' rfl, kept, ih hrest]

/-- Trimming leaves a text without a blank as it is. -/
theorem trim_of_solid {cs : List Char} (h : Solid cs) : trim cs = cs := by
  have stop {ds : List Char} (hd : Solid ds) : ds.dropWhile isBlank = ds := by
    cases ds with
    | nil => rfl
    | cons d ds => exact List.dropWhile_cons_of_neg (by simp [hd d List.mem_cons_self])
  have back : Solid cs.reverse := fun c hc => h c (List.mem_reverse.mp hc)
  rw [trim, stop h, trimEnd, stop back, List.reverse_reverse]

/-- A text with its ASCII capitals written small. -/
def lowered (text : String) : String := String.ofList (text.toList.map Char.toLower)

/-- A solid text is normalized by lower case alone. -/
theorem normalize_of_solid {text : String} (h : Solid text.toList) :
    normalize text = lowered text := by
  rw [normalize, trim_of_solid h, lowered]

/-! # Numerals -/

/-- The text is a decimal numeral for the number: at least one ASCII digit, behind at most one plus
sign. -/
def Numeral (cs : List Char) (n : Nat) : Prop :=
  ∃ digits : List Char, (cs = digits ∨ cs = '+' :: digits) ∧ digits ≠ [] ∧
    (∀ c ∈ digits, '0' ≤ c ∧ c ≤ '9') ∧
      n = Nat.ofDigits 10 (digits.reverse.map fun c => c.toNat - '0'.toNat)

/-- The value of digits is that of a numeral to the base ten. -/
theorem digitsValue_zero (cs : List Char) :
    digitsValue 0 cs = Nat.ofDigits 10 (cs.reverse.map fun c => c.toNat - '0'.toNat) := by
  rw [Nat.ofDigits_eq_foldr, List.foldr_map, List.foldr_reverse, digitsValue]
  simp only [Nat.cast_id, Nat.add_comm]

theorem isDigit_iff (c : Char) : c.isDigit = true ↔ '0' ≤ c ∧ c ≤ '9' := by
  rw [Char.isDigit, Bool.and_eq_true, decide_eq_true_iff, decide_eq_true_iff]
  rfl

/-- A text is read as digits exactly if it has only digits, and some. -/
theorem readDigits?_eq_some {cs : List Char} {n : Nat} :
    readDigits? cs = some n ↔ cs ≠ [] ∧ (∀ c ∈ cs, '0' ≤ c ∧ c ≤ '9') ∧
      n = Nat.ofDigits 10 (cs.reverse.map fun c => c.toNat - '0'.toNat) := by
  have accepts : (cs.isEmpty || !cs.all Char.isDigit) = false ↔ cs ≠ [] ∧ ∀ c ∈ cs,
      '0' ≤ c ∧ c ≤ '9' := by
    simp [isDigit_iff]
  rw [readDigits?, digitsValue_zero, ← and_assoc, ← accepts]
  cases cs.isEmpty || !cs.all Char.isDigit <;> simp [eq_comm]

/-- A text is read as a number exactly if it is a numeral for it. -/
theorem readNat?_eq_some {cs : List Char} {n : Nat} : readNat? cs = some n ↔ Numeral cs n := by
  have unsigned (c : Char) (h : '0' ≤ c ∧ c ≤ '9') : c ≠ '+' := by
    rintro rfl
    exact absurd h.1 (by decide)
  constructor
  · intro h
    unfold readNat? at h
    split at h
    · exact ⟨_, .inr rfl, readDigits?_eq_some.mp h⟩
    · exact ⟨_, .inl rfl, readDigits?_eq_some.mp h⟩
  · rintro ⟨digits, rfl | rfl, hne, hdigits, hn⟩
    · have head (ds : List Char) : cs ≠ '+' :: ds := by
        rintro rfl
        exact unsigned '+' (hdigits '+' List.mem_cons_self) rfl
      rw [readNat?.eq_2 cs head]
      exact readDigits?_eq_some.mpr ⟨hne, hdigits, hn⟩
    · exact readDigits?_eq_some.mpr ⟨hne, hdigits, hn⟩

/-- Exactly the numerals for numbers below `2 ^ 64` are read as words of a machine. -/
theorem readWord?_eq_some {cs : List Char} {n : Nat} :
    readWord? cs = some n ↔ Numeral cs n ∧ n < 2 ^ 64 := by
  rw [readWord?, Option.filter_eq_some_iff, readNat?_eq_some, decide_eq_true_iff]
  rfl

end VertexPrograms.Text
