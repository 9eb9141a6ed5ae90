import Mailroom.Text.Decimal
import Mathlib.Algebra.Group.Nat.Defs
/-!
Reading back the digits that were written.

`readNumber_padded` says that a number written in a fixed width is read back, whatever follows it;
`readDigits_padded` says the same of a reader that would take more digits, if no digit follows.
-/

namespace Mailroom.Text

/-- The value of a list of digits after some others with value `init`. -/
def digitsValue (ds : List Char) (init : Nat) : Nat :=
  ds.foldl (fun n c => n * 10 + (digit? c).getD 0) init

/-- Whether every character is a digit. -/
def AllDigits (ds : List Char) : Prop := ∀ c ∈ ds, c.isDigit = true

/-- No digit comes next. -/
def NoDigitNext (rest : List Char) : Prop := ∀ c ∈ rest.head?, digit? c = none

/-! ### Digits -/

theorem digit?_eq_some {c : Char} (h : c.isDigit = true) :
    digit? c = some (c.toNat - '0'.toNat) := by
  unfold digit?
  rw [if_pos]
  simp only [Char.isDigit, Bool.and_eq_true, decide_eq_true_eq] at h
  exact ⟨h.1, h.2⟩

theorem digitsValue_eq_ofDigitChars {ds : List Char} (all : AllDigits ds) {init : Nat} :
    digitsValue ds init = Nat.ofDigitChars 10 ds init := by
  induction ds generalizing init with
  | nil => rfl
  | cons c ds ih =>
    have here := digit?_eq_some (all c List.mem_cons_self)
    rw [Nat.ofDigitChars_cons, Nat.mul_comm 10 init,
      ← ih fun d hd => all d (List.mem_cons_of_mem _ hd)]
    simp [digitsValue, here]

/-! ### Numbers in a fixed width -/

theorem toList_padded {width n : Nat} :
    (padded width n).toList =
      List.replicate (width - (Nat.toDigits 10 n).length) '0' ++ Nat.toDigits 10 n := by
  have size : n.repr.length = (Nat.toDigits 10 n).length := by
    rw [← Nat.toList_repr, String.length_toList]
  simp [padded, String.toList_append, Nat.toList_repr, size]

theorem allDigits_padded {width n : Nat} : AllDigits (padded width n).toList := by
  intro c member
  rw [toList_padded, List.mem_append] at member
  rcases member with zero | digit
  · rw [List.eq_of_mem_replicate zero]
    decide
  · exact Nat.isDigit_of_mem_toDigits (by decide) (by decide) digit

/-- A number that fits its width is written in exactly that width. -/
theorem length_padded {width n : Nat} (fits : n < 10 ^ width) (positive : 0 < width) :
    (padded width n).toList.length = width := by
  have short := (Nat.length_toDigits_le_iff (by decide : 1 < 10) positive).mpr fits
  rw [toList_padded, List.length_append, List.length_replicate]
  omega

theorem digitsValue_padded {width n : Nat} : digitsValue (padded width n).toList 0 = n := by
  rw [digitsValue_eq_ofDigitChars allDigits_padded, toList_padded, Nat.ofDigitChars_append,
    Nat.ofDigitChars_replicate_zero, Nat.mul_zero, Nat.ofDigitChars_ten_toDigits]

/-! ### Reading -/

theorem go_of_allDigits {ds rest : List Char} (all : AllDigits ds) (most count value : Nat)
    (within : ds.length ≤ most + 1) (ends : ds.length = most + 1 ∨ NoDigitNext rest) :
    readDigits.go most count value (ds ++ rest)
      = (count + ds.length, digitsValue ds value, rest) := by
  induction ds generalizing most count value with
  | nil =>
    rcases ends with full | noDigit
    · cases full
    · cases rest with
      | nil => simp [readDigits.go, digitsValue]
      | cons c rest => simp [readDigits.go, digitsValue, noDigit c rfl]
  | cons c ds ih =>
    have here := digit?_eq_some (all c List.mem_cons_self)
    have others : AllDigits ds := fun d hd => all d (List.mem_cons_of_mem _ hd)
    rw [List.cons_append, readDigits.go]
    simp only [here]
    cases most with
    | zero =>
      have : ds = [] := by
        cases ds with
        | nil => rfl
        | cons d ds => simp at within
      subst this
      simp [digitsValue, here]
    | succ most =>
      have tail := ih others most (count + 1) (value * 10 + (c.toNat - '0'.toNat))
        (by simpa using within) (ends.imp (by simp) id)
      simp only [tail, digitsValue, List.foldl_cons, here, Option.getD_some, List.length_cons,
        Prod.mk.injEq, and_true]
      omega

theorem readDigits_of_allDigits {ds rest : List Char} (all : AllDigits ds) {most : Nat}
    (within : ds.length ≤ most) (positive : 0 < most)
    (ends : ds.length = most ∨ NoDigitNext rest) :
    readDigits most (ds ++ rest) = (ds.length, digitsValue ds 0, rest) := by
  obtain ⟨most, rfl⟩ : ∃ m, most = m + 1 := ⟨most - 1, by omega⟩
  rw [readDigits, go_of_allDigits all most 0 0 within ends, Nat.zero_add]

/-- Digits are read as a number, if there are enough of them and no more can follow. -/
theorem readNumber_of_allDigits {ds rest : List Char} (all : AllDigits ds) {least most : Nat}
    (enough : least ≤ ds.length) (within : ds.length ≤ most) (positive : 0 < most)
    (ends : ds.length = most ∨ NoDigitNext rest) :
    readNumber least most (ds ++ rest) = some (digitsValue ds 0, rest) := by
  rw [readNumber, readDigits_of_allDigits all within positive ends]
  exact if_neg (Nat.not_lt.mpr enough)

/-- A number in a fixed width is read back, whatever follows it. -/
theorem readNumber_padded {width n : Nat} (fits : n < 10 ^ width) (positive : 0 < width)
    {rest : List Char} :
    readNumber width width ((padded width n).toList ++ rest) = some (n, rest) := by
  have size := length_padded fits positive
  rw [readNumber_of_allDigits allDigits_padded (Nat.le_of_eq size.symm) (Nat.le_of_eq size) positive
    (.inl size), digitsValue_padded]

/-- A number in a fixed width is read back by a reader that would take more digits, if none
follows. -/
theorem readDigits_padded {width n most : Nat} (fits : n < 10 ^ width) (positive : 0 < width)
    (within : width ≤ most) {rest : List Char} (ends : NoDigitNext rest) :
    readDigits most ((padded width n).toList ++ rest) = (width, n, rest) := by
  have size := length_padded fits positive
  rw [readDigits_of_allDigits allDigits_padded (by rwa [size]) (by omega) (.inr ends), size,
    digitsValue_padded]

/-- No number is read where no digit comes next. -/
theorem readNumber_eq_none {least most : Nat} {text : List Char} (positive : 0 < least)
    (ends : NoDigitNext text) : readNumber least most text = none := by
  have none_read : (readDigits most text).1 = 0 := by
    cases most with
    | zero => rfl
    | succ most =>
      cases text with
      | nil => simp [readDigits, readDigits.go]
      | cons c rest => simp [readDigits, readDigits.go, ends c rfl]
  simp [readNumber, none_read, positive]

end Mailroom.Text
