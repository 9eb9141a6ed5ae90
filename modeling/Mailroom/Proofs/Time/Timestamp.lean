import Mailroom.Proofs.Text.Decimal
import Mailroom.Proofs.Time.Calendar
import Mailroom.Time.Timestamp
/-!
Instants that are written and read again.

A text names a leap second only at the end of a minute. Nanoseconds that run past another second are
written as those of the next one, and `Instant.asWritten` is the instant that is named instead; every
other instant is named by its own text (`asWritten_eq_iff`).

In a stored row reading takes a year of exactly four digits, and writing puts a sign before every
other year. So `ofStored?_toStored` has two sides: of an instant of the years 0 to 9999 what was
written is read back, and the text of any other instant is not read at all. In a message a year may
have a sign and more digits, and every text is read back (`ofText?_toText`).
-/

namespace Mailroom.Instant

open Text Calendar

/-- The year of an instant in universal time. -/
def year (t : Instant) : Int := (Date.ofDay (t.second / 86400)).year

/-- Whether the year of an instant is written in four digits. -/
def HasPlainYear (t : Instant) : Prop := 0 ≤ t.year ∧ t.year ≤ 9999

instance (t : Instant) : Decidable t.HasPlainYear := inferInstanceAs (Decidable (_ ∧ _))

/-- Whether the nanoseconds of an instant run past its second only at the end of a minute, where a
text can say so. -/
def HasPlainSecond (t : Instant) : Prop := t.nano < 1000000000 ∨ t.second % 60 = 59

instance (t : Instant) : Decidable t.HasPlainSecond := inferInstanceAs (Decidable (_ ∨ _))

/-! ### What a text names -/

/-- The seconds of instants, by the first one and the one after the last. -/
theorem isSecond_iff {second : Int} :
    isSecond second = true ↔ -8334601228800 ≤ second ∧ second < 8210266876800 := by
  have first : Date.toDay ⟨firstYear, 1, 1⟩ * 86400 = -8334601228800 := by decide
  have past : Date.toDay ⟨lastYear + 1, 1, 1⟩ * 86400 = 8210266876800 := by decide
  rw [isSecond, first, past, Bool.and_eq_true, decide_eq_true_eq, decide_eq_true_eq]

/-- A second within a minute is not the last one of an instant. -/
theorem isSecond_next {t : Instant} (within : ¬ t.HasPlainSecond) :
    isSecond (t.second + 1) = true := by
  have bounds := isSecond_iff.mp t.second_valid
  unfold HasPlainSecond at within
  exact isSecond_iff.mpr (by omega)

/-- The instant that the text of an instant names. -/
def asWritten (t : Instant) : Instant :=
  if within : ¬ t.HasPlainSecond then
    ⟨t.second + 1, t.nano - 1000000000, isSecond_next within, by have := t.nano_valid; omega⟩
  else t

variable {t : Instant}

theorem asWritten_of_plain (plain : t.HasPlainSecond) : t.asWritten = t :=
  dif_neg (not_not_intro plain)

theorem asWritten_of_not_plain (within : ¬ t.HasPlainSecond) :
    t.asWritten.second = t.second + 1 ∧ t.asWritten.nano = t.nano - 1000000000 := by
  rw [asWritten, dif_pos within]
  exact ⟨rfl, rfl⟩

/-- A text names its own instant exactly if that has a plain second. -/
theorem asWritten_eq_iff : t.asWritten = t ↔ t.HasPlainSecond := by
  refine ⟨fun same => Decidable.byContradiction fun within => ?_, asWritten_of_plain⟩
  have next := (asWritten_of_not_plain within).1
  rw [same] at next
  omega

/-- What a text names has a plain second. -/
theorem hasPlainSecond_asWritten (t : Instant) : t.asWritten.HasPlainSecond := by
  by_cases plain : t.HasPlainSecond
  · rwa [asWritten_of_plain plain]
  · refine .inl ?_
    rw [(asWritten_of_not_plain plain).2]
    have := t.nano_valid
    omega

@[simp] theorem asWritten_asWritten (t : Instant) : t.asWritten.asWritten = t.asWritten :=
  asWritten_of_plain t.hasPlainSecond_asWritten

/-- The numbers in a text are those of the instant that it names. -/
theorem parts_asWritten (t : Instant) :
    t.asWritten.second / 86400 = t.second / 86400 ∧
    (t.asWritten.second % 86400).toNat / 3600 = (t.second % 86400).toNat / 3600 ∧
    (t.asWritten.second % 86400).toNat / 60 % 60 = (t.second % 86400).toNat / 60 % 60 ∧
    (t.asWritten.second % 86400).toNat % 60 + t.asWritten.nano / 1000000000
      = (t.second % 86400).toNat % 60 + t.nano / 1000000000 ∧
    t.asWritten.nano % 1000000000 = t.nano % 1000000000 := by
  by_cases plain : t.HasPlainSecond
  · rw [asWritten_of_plain plain]
    exact ⟨rfl, rfl, rfl, rfl, rfl⟩
  · obtain ⟨second, nano⟩ := asWritten_of_not_plain plain
    have := t.nano_valid
    unfold HasPlainSecond at plain
    rw [second, nano]
    omega

theorem write_asWritten (zone : String) (t : Instant) : t.asWritten.write zone = t.write zone := by
  obtain ⟨day, hour, minute, second, nano⟩ := t.parts_asWritten
  simp only [write, day, hour, minute, second, nano]

@[simp] theorem toStored_asWritten (t : Instant) : t.asWritten.toStored = t.toStored :=
  write_asWritten _ t

@[simp] theorem toText_asWritten (t : Instant) : t.asWritten.toText = t.toText :=
  write_asWritten _ t

@[simp] theorem hasPlainYear_asWritten (t : Instant) :
    t.asWritten.HasPlainYear ↔ t.HasPlainYear := by
  unfold HasPlainYear year
  rw [t.parts_asWritten.1]

/-- The middle of a leap second after the first half minute of 1970. -/
def strayLeap : Instant := ⟨30, 1500000000, by decide, by decide⟩

/-- Its text names the middle of the second that follows. -/
example : strayLeap.asWritten = ⟨31, 500000000, by decide, by decide⟩ := by decide

/-! ### Parts of a text -/

theorem readChar_self {c : Char} {rest : List Char} : readChar c (c :: rest) = some rest := by
  simp [readChar]

theorem readSeparator_mark {rest : List Char} : readSeparator ('T' :: rest) = some rest := rfl

theorem readFraction_point {width n : Nat} {rest : List Char} (fits : n < 10 ^ width)
    (positive : 0 < width) (within : width ≤ 9) (ends : NoDigitNext rest) :
    readFraction ('.' :: ((padded width n).toList ++ rest))
      = some (n * 10 ^ (9 - width), rest) := by
  have nothing_dropped : rest.dropWhile (fun c => (digit? c).isSome) = rest := by
    cases rest with
    | nil => rfl
    | cons c rest => simp [ends c rfl]
  simp only [readFraction, readDigits_padded fits positive within ends]
  rw [if_neg (by omega), nothing_dropped]
  rfl

/-- The fraction of a second is read back, if no digit follows it. -/
theorem readFraction_writeFraction {nano : Nat} (small : nano < 10 ^ 9) {c : Char}
    {rest : List Char} (noPoint : c ≠ '.') (noDigit : digit? c = none) :
    readFraction ((writeFraction nano).toList ++ c :: rest) = some (nano, c :: rest) := by
  have ends : NoDigitNext (c :: rest) := by
    intro d same
    cases same
    exact noDigit
  have point (s : String) : ("." ++ s).toList = '.' :: s.toList := by
    rw [String.toList_append]
    rfl
  unfold writeFraction
  split
  · rename_i zero
    subst zero
    unfold readFraction
    split
    · rename_i same
      exact absurd (List.cons.inj same).1 noPoint
    · rfl
  · split
    · rw [point, List.cons_append,
        readFraction_point (by omega) (by omega) (by omega) ends]
      congr 2
      omega
    · split
      · rw [point, List.cons_append,
          readFraction_point (by omega) (by omega) (by omega) ends]
        congr 2
        omega
      · rw [point, List.cons_append, readFraction_point small (by omega) (by omega) ends]
        congr 2
        omega

theorem readOffset_zero :
    readOffset (readChar ':') ['+', '0', '0', ':', '0', '0'] = some (0, []) := by
  decide

/-! ### Whole texts -/

/-- The year of an instant is one that an instant can have. -/
theorem year_within (t : Instant) : firstYear ≤ t.year ∧ t.year ≤ lastYear := by
  have bounds := t.second_valid
  rw [isSecond, Date.toDay_newYear, Date.toDay_newYear, Bool.and_eq_true, decide_eq_true_eq,
    decide_eq_true_eq] at bounds
  obtain ⟨least, before⟩ := Date.yearOf_spec (t.second / 86400 + epochDay)
  constructor
  · refine Int.not_lt.mp fun early => ?_
    have := daysBeforeYear_mono (Int.add_one_le_of_lt early)
    simp only [year, Date.ofDay] at this
    omega
  · refine Int.not_lt.mp fun late => ?_
    have := daysBeforeYear_mono (Int.add_one_le_of_lt late)
    simp only [year, Date.ofDay] at this
    omega

/-- The numbers of an instant with a plain second name that instant. -/
theorem ofFields?_parts (plain : t.HasPlainSecond) :
    ofFields? {
      year := t.year
      month := (Date.ofDay (t.second / 86400)).month
      day := (Date.ofDay (t.second / 86400)).day
      hour := (t.second % 86400).toNat / 3600
      minute := (t.second % 86400).toNat / 60 % 60
      second := (t.second % 86400).toNat % 60 + t.nano / 1000000000
      nano := t.nano % 1000000000
      offset := 0 } = some t := by
  have number := Date.toDay_ofDay (t.second / 86400)
  have valid := Date.ofDay_isValid (t.second / 86400)
  -- A leap second follows the last second of a minute, so only then the two parts add up to 60.
  have leap : t.nano / 1000000000 = 0 ∨
      t.nano / 1000000000 = 1 ∧ (t.second % 86400).toNat % 60 = 59 := by
    have := t.nano_valid
    unfold HasPlainSecond at plain
    omega
  have sixty : ((t.second % 86400).toNat % 60 + t.nano / 1000000000) / 60
      = t.nano / 1000000000 := by omega
  unfold ofFields?
  rw [if_pos]
  · rw [sixty]
    have second : (Date.ofDay (t.second / 86400)).toDay * 86400
        + (((t.second % 86400).toNat / 3600 * 3600 + (t.second % 86400).toNat / 60 % 60 * 60
          + ((t.second % 86400).toNat % 60 + t.nano / 1000000000 - t.nano / 1000000000)
            : Nat) : Int)
        - 0 = t.second := by
      rw [number]
      omega
    have nano : t.nano % 1000000000 + t.nano / 1000000000 * 1000000000 = t.nano := by omega
    show ofParts? ((Date.ofDay (t.second / 86400)).toDay * 86400 + _ - 0) _ = some t
    rw [second, nano]
    unfold ofParts?
    rw [dif_pos t.second_valid, dif_pos t.nano_valid]
  · refine ⟨?_, ?_, valid, ?_, ?_, ?_, ?_⟩
    · exact t.year_within.1
    · exact t.year_within.2
    · show (t.second % 86400).toNat / 3600 ≤ 23
      omega
    · show (t.second % 86400).toNat / 60 % 60 ≤ 59
      omega
    · show (t.second % 86400).toNat % 60 + t.nano / 1000000000 ≤ 60
      omega
    · show (0 : Int).natAbs < 86400
      decide

/-- The parts of the text of an instant. -/
theorem toList_write (zone : String) (t : Instant) : (t.write zone).toList =
    (writeYear t.year).toList ++ '-' ::
    ((padded 2 (Date.ofDay (t.second / 86400)).month).toList ++ '-' ::
    ((padded 2 (Date.ofDay (t.second / 86400)).day).toList ++ 'T' ::
    ((padded 2 ((t.second % 86400).toNat / 3600)).toList ++ ':' ::
    ((padded 2 ((t.second % 86400).toNat / 60 % 60)).toList ++ ':' ::
    ((padded 2 ((t.second % 86400).toNat % 60 + t.nano / 1000000000)).toList ++
    ((writeFraction (t.nano % 1000000000)).toList ++ zone.toList)))))) := by
  simp [write, year]

/-- The numbers of a time of day have two digits. -/
theorem clock_lt (t : Instant) : (t.second % 86400).toNat / 3600 < 10 ^ 2
    ∧ (t.second % 86400).toNat / 60 % 60 < 10 ^ 2
    ∧ (t.second % 86400).toNat % 60 + t.nano / 1000000000 < 10 ^ 2 := by
  have := t.nano_valid
  omega

/-! ### Stored rows -/

/-- An instant of a year with four digits and with a plain second is read back from its text. -/
theorem ofStored?_of_plain (plain : t.HasPlainYear) (second : t.HasPlainSecond) :
    ofStored? t.toStored = some t := by
  obtain ⟨hour_lt, minute_lt, second_lt⟩ := t.clock_lt
  have years : ((t.year.toNat : Nat) : Int) = t.year := Int.toNat_of_nonneg plain.1
  have year_lt : t.year.toNat < 10 ^ 4 := by
    have := plain.2
    omega
  have year : writeYear t.year = padded 4 t.year.toNat := if_pos plain
  have zone : "+00:00".toList = ['+', '0', '0', ':', '0', '0'] := rfl
  unfold ofStored? toStored
  rw [toList_write, year, zone]
  simp only [readNumber_padded year_lt (by decide), readNumber_padded (Date.month_lt _) (by decide),
    readNumber_padded (Date.day_lt _) (by decide), readNumber_padded hour_lt (by decide),
    readNumber_padded minute_lt (by decide), readNumber_padded second_lt (by decide),
    readChar_self, readSeparator_mark, Option.bind_eq_bind, Option.bind_some]
  rw [readFraction_writeFraction (by omega) (by decide) (by decide)]
  simp only [Option.bind_some, readOffset_zero, List.isEmpty_nil, if_true]
  rw [years]
  exact ofFields?_parts second

/-- The text of an instant of any other year begins with a sign, which is not read. -/
theorem ofStored?_of_not_plain (t : Instant) (signed : ¬ t.HasPlainYear) :
    ofStored? t.toStored = none := by
  have year : writeYear (Date.ofDay (t.second / 86400)).year =
      (if t.year < 0 then "-" else "+") ++ padded 4 t.year.natAbs := if_neg signed
  have first : NoDigitNext t.toStored.toList := by
    intro c next
    simp only [toStored, write, year, String.append_assoc] at next
    rw [String.toList_append] at next
    split at next
    · cases next
      decide
    · cases next
      decide
  unfold ofStored?
  rw [readNumber_eq_none (by decide) first]
  rfl

/-- What was written for an instant is read back exactly if its year has four digits and no sign. -/
theorem ofStored?_toStored (t : Instant) :
    ofStored? t.toStored = if t.HasPlainYear then some t.asWritten else none := by
  split
  · rw [← toStored_asWritten]
    exact ofStored?_of_plain (t.hasPlainYear_asWritten.mpr ‹_›) t.hasPlainSecond_asWritten
  · exact ofStored?_of_not_plain t ‹_›

/-- Whether an instant is read back as it was from what is stored for it. -/
def IsPlain (t : Instant) : Prop := t.HasPlainYear ∧ t.HasPlainSecond

instance (t : Instant) : Decidable t.IsPlain := inferInstanceAs (Decidable (_ ∧ _))

theorem ofStored?_eq_some_iff : ofStored? t.toStored = some t ↔ t.IsPlain := by
  rw [ofStored?_toStored, IsPlain, ← asWritten_eq_iff]
  split
  · rename_i plain
    rw [Option.some.injEq, and_iff_right plain]
  · rename_i signed
    exact iff_of_false nofun fun both => signed both.1

/-! ### Messages -/

theorem isBlank_of_isDigit {c : Char} (digit : c.isDigit = true) : isBlank c = false := by
  simp only [Char.isDigit, Bool.and_eq_true, decide_eq_true_eq] at digit
  have low : 48 ≤ c.toNat := digit.1
  have high : c.toNat ≤ 57 := digit.2
  simp only [isBlank, Bool.or_eq_false_iff, Bool.and_eq_false_iff, decide_eq_false_iff_not,
    beq_eq_false_iff_ne]
  omega

theorem trimLeft_cons {c : Char} {rest : List Char} (mark : isBlank c = false) :
    trimLeft (c :: rest) = c :: rest := by
  simp [trimLeft, mark]

/-- No white space stands before a number. -/
theorem trimLeft_padded (width n : Nat) (rest : List Char) :
    trimLeft ((padded width n).toList ++ rest) = (padded width n).toList ++ rest := by
  have all := @allDigits_padded width n
  cases written : (padded width n).toList with
  | nil =>
    rw [toList_padded] at written
    exact absurd (List.append_eq_nil_iff.mp written).2 Nat.toDigits_ne_nil
  | cons c ds =>
    rw [written] at all
    exact trimLeft_cons (isBlank_of_isDigit (all c List.mem_cons_self))

/-- A number of two digits is read back where fewer digits would do. -/
theorem readShort_padded {n : Nat} (fits : n < 10 ^ 2) (rest : List Char) :
    readShort ((padded 2 n).toList ++ rest) = some (n, rest) := by
  have size := length_padded fits (by decide)
  rw [readShort, trimLeft_padded, readNumber_of_allDigits allDigits_padded (by omega)
    (Nat.le_of_eq size) (by decide) (.inl size), digitsValue_padded]

theorem readYear_minus (text : List Char) : readYear ('-' :: text)
    = (readNumber 1 text.length text).map fun read => (-(read.1 : Int), read.2) := rfl

theorem readYear_plus (text : List Char) : readYear ('+' :: text)
    = (readNumber 1 text.length text).map fun read => ((read.1 : Int), read.2) := rfl

theorem readYear_digit {c : Char} (digit : c.isDigit = true) (text : List Char) :
    readYear (c :: text)
      = (readNumber 1 4 (c :: text)).map fun read => ((read.1 : Int), read.2) := by
  unfold readYear
  split
  · rename_i same
    cases same
    cases digit
  · rename_i same
    cases same
    cases digit
  · rfl

/-- Digits are read as a year without a sign. -/
theorem readYear_padded {n : Nat} (fits : n < 10 ^ 4) (rest : List Char) :
    readYear ((padded 4 n).toList ++ rest) = some ((n : Int), rest) := by
  have size := length_padded fits (by decide)
  have number : readNumber 1 4 ((padded 4 n).toList ++ rest) = some (n, rest) := by
    rw [readNumber_of_allDigits allDigits_padded (by omega) (Nat.le_of_eq size) (by decide)
      (.inl size), digitsValue_padded]
  have all := @allDigits_padded 4 n
  cases written : (padded 4 n).toList with
  | nil =>
    rw [written] at size
    cases size
  | cons c ds =>
    rw [written] at all number
    rw [List.cons_append] at number ⊢
    rw [readYear_digit (all c List.mem_cons_self), number]
    rfl

/-- After a sign the digits of a year may go on to the end of the text. -/
theorem readNumber_signed (n : Nat) {rest : List Char} (ends : NoDigitNext rest) :
    readNumber 1 ((padded 4 n).toList ++ rest).length ((padded 4 n).toList ++ rest)
      = some (n, rest) := by
  have some_digits : 1 ≤ (padded 4 n).toList.length := by
    have := @Nat.length_toDigits_pos 10 n
    rw [toList_padded, List.length_append]
    omega
  have within : (padded 4 n).toList.length ≤ ((padded 4 n).toList ++ rest).length := by
    rw [List.length_append]
    omega
  rw [readNumber_of_allDigits allDigits_padded some_digits within
    (Nat.lt_of_lt_of_le some_digits within) (.inr ends), digitsValue_padded]

/-- A year is read back, with and without a sign. -/
theorem readYear_writeYear (year : Int) {rest : List Char} (ends : NoDigitNext rest) :
    readYear (trimLeft ((writeYear year).toList ++ rest)) = some (year, rest) := by
  unfold writeYear
  split
  · rename_i plain
    rw [trimLeft_padded, readYear_padded (by omega), Int.toNat_of_nonneg plain.1]
  · split
    · have sign : ("-" ++ padded 4 year.natAbs).toList = '-' :: (padded 4 year.natAbs).toList := by
        simp
      have negative : -(year.natAbs : Int) = year := by omega
      rw [sign, List.cons_append, trimLeft_cons (by decide), readYear_minus,
        readNumber_signed _ ends, Option.map_some, negative]
    · have sign : ("+" ++ padded 4 year.natAbs).toList = '+' :: (padded 4 year.natAbs).toList := by
        simp
      have positive : (year.natAbs : Int) = year := by omega
      rw [sign, List.cons_append, trimLeft_cons (by decide), readYear_plus,
        readNumber_signed _ ends, Option.map_some, positive]

/-- An instant with a plain second is read back from its text in a message. -/
theorem ofText?_of_plain (plain : t.HasPlainSecond) : ofText? t.toText = some t := by
  obtain ⟨hour_lt, minute_lt, second_lt⟩ := t.clock_lt
  have zone : "Z".toList = ['Z'] := rfl
  have ends (rest : List Char) : NoDigitNext ('-' :: rest) := by
    intro c first
    cases first
    decide
  unfold ofText? toText
  rw [toList_write, readYear_writeYear _ (ends _), zone]
  simp only [readShort_padded (Date.month_lt _), readShort_padded (Date.day_lt _),
    readShort_padded hour_lt, readShort_padded minute_lt, readShort_padded second_lt,
    trimLeft_cons (by decide : isBlank '-' = false),
    trimLeft_cons (by decide : isBlank ':' = false), readChar_self, readSeparator_mark,
    Option.bind_eq_bind, Option.bind_some]
  rw [readFraction_writeFraction (by omega) (by decide) (by decide)]
  have offset : readLenientOffset (trimLeft ['Z']) = some (0, []) := by decide
  have finished : (trimLeft []).isEmpty = true := rfl
  simp only [Option.bind_some, offset, finished, if_true]
  exact ofFields?_parts plain

/-- Of every instant what was written is read back from a message. -/
theorem ofText?_toText (t : Instant) : ofText? t.toText = some t.asWritten := by
  rw [← toText_asWritten]
  exact ofText?_of_plain t.hasPlainSecond_asWritten

end Mailroom.Instant
