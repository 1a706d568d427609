import VertexPrograms.Toml.Item
import VertexPrograms.Toml.Layout

/-!
# Strings of a TOML document

A string stands between quotation marks, where a backslash begins an escape, or between apostrophes,
where it is a character like others. Three marks on each side make a string of several lines. A run
of marks inside such a string is text when it is shorter than three; else its last three close the
string, up to two before them being text.
-/

namespace VertexPrograms.Toml

/-- The value of a hexadecimal digit. -/
def hexValue? (c : Char) : Option Nat :=
  if c.isDigit then some (c.toNat - '0'.toNat)
  else if 'a' ≤ c ∧ c ≤ 'f' then some (c.toNat - 'a'.toNat + 10)
  else if 'A' ≤ c ∧ c ≤ 'F' then some (c.toNat - 'A'.toNat + 10)
  else none

/-- The number written by hexadecimal digits. -/
def hexNumber? (cs : List Char) : Option Nat :=
  cs.foldlM (fun n c => (16 * n + ·) <$> hexValue? c) 0

/-- Reads a character given by a fixed number of hexadecimal digits. -/
def readCode (digits : Nat) (cs : List Char) : Option (Char × List Char) :=
  let code := cs.take digits
  if code.length < digits then none
  else
    match hexNumber? code with
    | none => none
    | some n => if n.isValidChar then some (Char.ofNat n, cs.drop digits) else none

/-- Reads an escape from behind its backslash. -/
def readEscape : Reader Char
  | 'b' :: cs => some ('\x08', cs)
  | 't' :: cs => some ('\t', cs)
  | 'n' :: cs => some ('\n', cs)
  | 'f' :: cs => some ('\x0c', cs)
  | 'r' :: cs => some ('\r', cs)
  | '\x22' :: cs => some ('\x22', cs)
  | '\\' :: cs => some ('\\', cs)
  | 'u' :: cs => readCode 4 cs
  | 'U' :: cs => readCode 8 cs
  | _ => none

/-- Reading a code makes the text no longer. -/
theorem length_readCode_le {digits : Nat} {cs rest : List Char} {c : Char}
    (h : readCode digits cs = some (c, rest)) : rest.length ≤ cs.length := by
  simp only [readCode] at h
  grind

/-- Reading an escape makes the text shorter. -/
theorem length_readEscape_lt {cs rest : List Char} {c : Char} (h : readEscape cs = some (c, rest)) :
    rest.length < cs.length := by
  unfold readEscape at h
  split at h
  case h_8 | h_9 => exact Nat.lt_succ_of_le (length_readCode_le h)
  case h_10 => cases h
  all_goals
    cases h
    exact Nat.lt_succ_self _

/-- The two ways of quoting. -/
structure Quotation where
  /-- The character on each side. -/
  mark : Char
  /-- Whether a backslash begins an escape. -/
  escapes : Bool

/-- Text between quotation marks, with escapes. -/
def Quotation.basic : Quotation := ⟨'\x22', true⟩

/-- Text between apostrophes, taken as it is. -/
def Quotation.literal : Quotation := ⟨'\x27', false⟩

namespace Quotation

/-- Reads the rest of a string of one line, from behind its opening mark. -/
def readLine (q : Quotation) (cs : List Char) : Option (List Char × List Char) :=
  match cs with
  | [] => none
  | c :: cs =>
    if c = q.mark then some ([], cs)
    else if q.escapes ∧ c = '\\' then
      match _h : readEscape cs with
      | none => none
      | some (d, rest) => (readLine q rest).map fun (text, rest) => (d :: text, rest)
    else if isPlain c then (readLine q cs).map fun (text, rest) => (c :: text, rest)
    else none
termination_by cs.length
decreasing_by
  · have := length_readEscape_lt _h
    grind
  · grind

/-- The text behind a backslash that ends its line: the line's end and all blanks and line ends
after it are skipped. -/
def foldLine? (cs : List Char) : Option (List Char) :=
  skipBlankLines <$> takeLineEnd? (skipBlanks cs)

/-- Folding a line makes the text no longer. -/
theorem length_foldLine_le {cs rest : List Char} (h : foldLine? cs = some rest) :
    rest.length ≤ cs.length := by
  obtain ⟨after, hafter, rfl⟩ := Option.map_eq_some_iff.mp h
  have h₁ := length_skipBlankLines_le after
  have h₂ := length_skipBlanks_le cs
  have h₃ : after.length ≤ (skipBlanks cs).length := by
    unfold takeLineEnd? at hafter
    split at hafter <;> grind
  omega

/-- Reads the rest of a string of several lines, from behind its opening marks. -/
def readLines (q : Quotation) (cs : List Char) : Option (List Char × List Char) :=
  match cs with
  | [] => none
  | '\n' :: cs => (readLines q cs).map fun (text, rest) => ('\n' :: text, rest)
  | '\r' :: '\n' :: cs => (readLines q cs).map fun (text, rest) => ('\n' :: text, rest)
  | c :: cs =>
    if c = q.mark then
      let run := 1 + (cs.takeWhile (· == q.mark)).length
      if run < 3 then
        (readLines q (cs.drop (run - 1))).map fun (text, rest) =>
          (List.replicate run c ++ text, rest)
      else
        let closing := min run 5
        some (List.replicate (closing - 3) c, cs.drop (closing - 1))
    else if q.escapes ∧ c = '\\' then
      match _h : foldLine? cs with
      | some rest => readLines q rest
      | none =>
        match _h : readEscape cs with
        | none => none
        | some (d, rest) => (readLines q rest).map fun (text, rest) => (d :: text, rest)
    else if isPlain c then (readLines q cs).map fun (text, rest) => (c :: text, rest)
    else none
termination_by cs.length
decreasing_by
  · grind
  · grind
  · grind
  · have := length_foldLine_le _h
    grind
  · have := length_readEscape_lt _h
    grind
  · grind

/-- Drops the line end that may follow the opening marks of a string of several lines. -/
def dropFirstLineEnd (cs : List Char) : List Char := (takeLineEnd? cs).getD cs

/-- Reads a string of either form, from behind its first mark. -/
def read (q : Quotation) : Reader (List Char)
  | c :: d :: cs =>
    if c = q.mark ∧ d = q.mark then q.readLines (dropFirstLineEnd cs) else q.readLine (c :: d :: cs)
  | cs => q.readLine cs

end Quotation

end VertexPrograms.Toml
