import Mailroom.Json.Reader
import Mailroom.Json.Writer
import Mailroom.Proofs.Text.Decimal
/-!
Integers that are written and read again.

An integer is written without a zero before another digit (`head?_toDigits`), and it is read up to
the first character that cannot belong to a number. So it is read back as it was written, unless
more of a number follows (`readNumber_toString`).
-/

namespace Mailroom.Json

open Text

variable {ds rest : List Char} {n : Nat}

/-- A text that does not go on with a number. -/
def EndsNumber (rest : List Char) : Prop :=
  ∀ c ∈ rest.head?, digit? c = none ∧ c ≠ '.' ∧ c ≠ 'e' ∧ c ≠ 'E'

theorem EndsNumber.noDigitNext (ends : EndsNumber rest) : NoDigitNext rest := by
  intro c next
  exact (ends c next).1

/-! ### Digits -/

/-- Digits are taken up to the first character that is none. -/
theorem digits_append (all : AllDigits ds) (ends : NoDigitNext rest) :
    digits (ds ++ rest) = (ds, rest) := by
  have each : ∀ c ∈ ds, (digit? c).isSome = true := by
    intro c member
    simp [digit?_eq_some (all c member)]
  simp only [digits, List.takeWhile_append_of_pos each, List.dropWhile_append_of_pos each]
  cases rest with
  | nil => simp
  | cons c rest => simp [ends c rfl]

theorem allDigits_toDigits (n : Nat) : AllDigits (Nat.toDigits 10 n) := by
  intro c member
  exact Nat.isDigit_of_mem_toDigits (by decide) (by decide) member

theorem value_toDigits (n : Nat) : value (Nat.toDigits 10 n) = n := by
  have digits : digitsValue (Nat.toDigits 10 n) 0 = n := by
    rw [digitsValue_eq_ofDigitChars (allDigits_toDigits n), Nat.ofDigitChars_ten_toDigits]
  exact digits

/-- The first digit of a number is no zero, unless the number is zero. -/
theorem head?_toDigits (positive : 0 < n) : (Nat.toDigits 10 n).head? ≠ some '0' := by
  induction n using Nat.strongRecOn with
  | _ n ih =>
    rcases Nat.lt_or_ge n 10 with small | large
    · have digits : ∀ d < 10, 0 < d → Nat.digitChar d ≠ '0' := by decide
      rw [Nat.toDigits_of_lt_base small]
      simpa using digits n small positive
    · have front := ih (n / 10) (by omega) (by omega)
      rw [Nat.toDigits_of_base_le (by decide) large]
      rw [List.head?_append]
      cases written : (Nat.toDigits 10 (n / 10)).head? with
      | none => exact absurd (List.head?_eq_none_iff.mp written) Nat.toDigits_ne_nil
      | some c =>
        rw [written] at front
        exact front

/-- A number that begins with a zero is written with one digit. -/
theorem not_padded (n : Nat) :
    ((Nat.toDigits 10 n).head? == some '0' && decide ((Nat.toDigits 10 n).length > 1)) = false := by
  rcases Nat.eq_zero_or_pos n with rfl | positive
  · decide
  · simp [head?_toDigits positive]

/-! ### Numbers -/

theorem readFraction_of_ends (ends : EndsNumber rest) : readFraction rest = some ([], rest) := by
  cases rest with
  | nil => rfl
  | cons c rest =>
    have noPoint := (ends c rfl).2.1
    rw [readFraction]
    simpa using noPoint

theorem readExponent_of_ends (ends : EndsNumber rest) : readExponent rest = some ([], rest) := by
  cases rest with
  | nil => rfl
  | cons c rest =>
    obtain ⟨-, -, small, capital⟩ := ends c rfl
    simp [readExponent, small, capital]

/-- Digits without a sign are read as a number. -/
theorem readNumber_toDigits (n : Nat) (ends : EndsNumber rest) :
    readNumber (Nat.toDigits 10 n ++ rest) = some (integer n, rest) := by
  have taken := digits_append (allDigits_toDigits n) ends.noDigitNext
  have unpadded := not_padded n
  have number := value_toDigits n
  have all := allDigits_toDigits n
  cases written : Nat.toDigits 10 n with
  | nil => exact absurd written Nat.toDigits_ne_nil
  | cons c others =>
    rw [written] at taken unpadded number all
    have noSign : c ≠ '-' := by
      rintro rfl
      cases all '-' List.mem_cons_self
    rw [List.cons_append] at taken ⊢
    unfold readNumber
    split
    rename_i unsigned
    split at unsigned
    · rename_i same
      exact absurd (List.cons.inj same).1 noSign
    · cases unsigned
      simp only [taken, unpadded, number, readFraction_of_ends ends, readExponent_of_ends ends,
        Option.bind_eq_bind, Option.bind_some]
      rfl

/-- Digits after a minus sign are read as a negative number. -/
theorem readNumber_negative (positive : 0 < n) (ends : EndsNumber rest) :
    readNumber ('-' :: (Nat.toDigits 10 n ++ rest)) = some (integer (-n), rest) := by
  have nonempty : (Nat.toDigits 10 n).isEmpty = false := by
    simp [Nat.toDigits_ne_nil]
  have nonzero : (n == 0) = false := by
    simpa using Nat.ne_of_gt positive
  simp only [readNumber, digits_append (allDigits_toDigits n) ends.noDigitNext, nonempty,
    not_padded, value_toDigits, readFraction_of_ends ends, readExponent_of_ends ends,
    Option.bind_eq_bind, Option.bind_some, nonzero]
  rfl

theorem word_natCast (n : Nat) : word (toString (n : Int)) = Nat.toDigits 10 n := Nat.toList_repr

theorem word_negSucc (n : Nat) :
    word (toString (Int.negSucc n)) = '-' :: Nat.toDigits 10 (n + 1) := by
  have written : toString (Int.negSucc n) = "-" ++ (n + 1).repr := rfl
  simp [word, written, String.toList_append, Nat.toList_repr]

/-- An integer is read back as it was written. -/
theorem readNumber_toString (n : Int) (ends : EndsNumber rest) :
    readNumber (word (toString n) ++ rest) = some (integer n, rest) := by
  cases n with
  | ofNat n =>
    rw [Int.ofNat_eq_natCast, word_natCast]
    exact readNumber_toDigits n ends
  | negSucc n =>
    rw [word_negSucc]
    exact readNumber_negative (Nat.succ_pos n) ends

/-- An integer is written with a digit or a minus sign first. -/
theorem toString_eq_cons (n : Int) :
    ∃ c text, word (toString n) = c :: text ∧ (c.isDigit = true ∨ c = '-') := by
  cases n with
  | ofNat n =>
    have all := allDigits_toDigits n
    rw [Int.ofNat_eq_natCast, word_natCast]
    cases written : Nat.toDigits 10 n with
    | nil => exact absurd written Nat.toDigits_ne_nil
    | cons c text =>
      rw [written] at all
      exact ⟨c, text, rfl, .inl (all c List.mem_cons_self)⟩
  | negSucc n =>
    rw [word_negSucc]
    exact ⟨'-', _, rfl, .inr rfl⟩

end Mailroom.Json
