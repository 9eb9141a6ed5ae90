import Mailroom.Json.Reader
import Mailroom.Json.Writer
/-!
Strings that are written and read again.

Every character is written so that it is read back as its number (`readCodes_escapeChar`), and the
numbers of characters never are halves of a surrogate pair (`joinSurrogates_codes`). So a string is
read back as it was written, whatever follows it (`readString_escaped`).
-/

namespace Mailroom.Json

/-! ### Characters -/

/-- Control characters are written with two digits that stand for their numbers. -/
theorem controlEscape_eq : ∀ n < 32, controlEscape (Char.ofNat n)
      = ['\\', 'u', '0', '0', Nat.digitChar (n / 16), Nat.digitChar (n % 16)] ∧
    hexWord? '0' '0' (Nat.digitChar (n / 16)) (Nat.digitChar (n % 16)) = some n := by
  decide +kernel

/-- A character that is no mark of a string stands for itself. -/
theorem readCodes_plain {c : Char} (quote : c ≠ '"') (backslash : c ≠ '\\') (plain : ¬ c.toNat < 32)
    (text : List Char) :
    readCodes (c :: text) = (readCodes text).map fun read => (c.toNat :: read.1, read.2) := by
  rw [readCodes]
  · rw [if_neg plain]
    cases readCodes text <;> rfl
  all_goals simp_all

/-- A letter after a backslash stands for a character. -/
theorem readCodes_escaped {letter c : Char} (escapes : escaped? letter = some c)
    (word : letter ≠ 'u') (text : List Char) : readCodes ('\\' :: letter :: text)
    = (readCodes text).map fun read => (c.toNat :: read.1, read.2) := by
  rw [readCodes]
  · rw [escapes]
    cases readCodes text <;> rfl
  all_goals simp_all

/-- A character is read back as its number, however it was written. -/
theorem readCodes_escapeChar (c : Char) (text : List Char) : readCodes (escapeChar c ++ text)
    = (readCodes text).map fun read => (c.toNat :: read.1, read.2) := by
  unfold escapeChar
  -- The letters of the escapes come in the order in which the writer looks for them.
  iterate 7
    split
    · rename_i same
      subst same
      exact readCodes_escaped rfl (by decide) text
  split
  · rename_i control
    obtain ⟨written, number⟩ := controlEscape_eq c.toNat control
    rw [Char.ofNat_toNat] at written
    rw [written]
    show readCodes ('\\' :: 'u' :: _ :: _ :: _ :: _ :: text) = _
    rw [readCodes, number]
    cases readCodes text <;> rfl
  · rename_i quote backslash _ _ _ _ _ plain
    exact readCodes_plain quote backslash plain text

/-! ### Strings -/

/-- A string is read up to its closing quotation mark. -/
theorem readCodes_escaped_text (chars rest : List Char) :
    readCodes (chars.flatMap escapeChar ++ '"' :: rest) = some (chars.map Char.toNat, rest) := by
  induction chars with
  | nil => rfl
  | cons c chars ih =>
    rw [List.flatMap_cons, List.append_assoc, readCodes_escapeChar, ih]
    rfl

/-- The number of a character is no half of a surrogate pair. -/
theorem not_surrogate (c : Char) :
    isHighSurrogate c.toNat = false ∧ isLowSurrogate c.toNat = false := by
  unfold isHighSurrogate isLowSurrogate
  have valid : c.toNat.isValidChar := c.valid
  unfold Nat.isValidChar at valid
  simp only [Bool.and_eq_false_iff, decide_eq_false_iff_not]
  omega

/-- The numbers of characters stand for these characters. -/
theorem joinSurrogates_codes (chars : List Char) :
    joinSurrogates (chars.map Char.toNat) = some chars := by
  induction chars with
  | nil => rfl
  | cons c chars ih =>
    obtain ⟨high, low⟩ := not_surrogate c
    cases chars with
    | nil => simp [joinSurrogates, high, low]
    | cons d chars =>
      rw [List.map_cons, List.map_cons] at *
      rw [joinSurrogates, high, low, ih]
      simp

/-- A string is read back as it was written, whatever follows it. -/
theorem readString_escaped (text : String) (rest : List Char) :
    readString (text.toList.flatMap escapeChar ++ '"' :: rest) = some (some text, rest) := by
  unfold readString
  rw [readCodes_escaped_text]
  show some ((joinSurrogates (text.toList.map Char.toNat)).map String.ofList, rest) = _
  rw [joinSurrogates_codes, Option.map_some, String.ofList_toList]

end Mailroom.Json
