import Mailroom.Time.Calendar
import Mathlib.Algebra.Group.Nat.Defs
/-!
The calendar numbers days without gaps: `toDay_ofDay` says that the date of a day has that day's
number, and `ofDay_isValid` that its month and its day exist.
-/

namespace Mailroom.Calendar

/-- A year has 365 days, and one more if it has 29 February. -/
theorem daysBeforeYear_succ (year : Int) :
    daysBeforeYear (year + 1) = daysBeforeYear year + (if isLeap year then 366 else 365) := by
  have leap : isLeap year = true ↔ year % 4 = 0 ∧ (year % 100 ≠ 0 ∨ year % 400 = 0) := by
    simp [isLeap]
  unfold daysBeforeYear
  split
  · rename_i h
    have := leap.mp h
    omega
  · rename_i h
    have := mt leap.mpr h
    omega

/-- Later years begin later. -/
theorem daysBeforeYear_mono {year later : Int} (le : year ≤ later) :
    daysBeforeYear year ≤ daysBeforeYear later := by
  rcases Int.lt_or_eq_of_le le with lt | rfl
  · unfold daysBeforeYear
    omega
  · exact Int.le_refl _

namespace Date

/-- The number of 1 January. -/
theorem toDay_newYear (year : Int) : toDay ⟨year, 1, 1⟩ = daysBeforeYear year - epochDay := by
  have first : (monthStarts (isLeap year)).getD (1 - 1) 0 + (1 - 1) = 0 := by
    cases isLeap year <;> rfl
  rw [toDay, first, Int.natCast_zero, Int.add_zero]

/-- The year of a day is the one in which the day lies. -/
theorem yearOf_spec (day : Int) :
    daysBeforeYear (yearOf day) ≤ day ∧ day < daysBeforeYear (yearOf day + 1) := by
  unfold yearOf daysBeforeYear
  dsimp only
  split
  · omega
  · split <;> omega

/-- The months of a year: which month a day of the year lies in, and that it has such a day. -/
theorem month_spec : ∀ leap : Bool, ∀ d < (if leap then 366 else 365),
    let month := ((monthStarts leap).filter (· ≤ d)).length
    1 ≤ month ∧ month ≤ 12 ∧ (monthStarts leap).getD (month - 1) 0 ≤ d
      ∧ d - (monthStarts leap).getD (month - 1) 0 + 1 ≤ daysInMonth leap month := by
  decide +kernel

/-- The day of the year of a day. -/
def dayOfYear (day : Int) : Nat := (day - daysBeforeYear (yearOf day)).toNat

theorem dayOfYear_lt (day : Int) :
    dayOfYear day < if isLeap (yearOf day) then 366 else 365 := by
  obtain ⟨least, before⟩ := yearOf_spec day
  rw [daysBeforeYear_succ] at before
  unfold dayOfYear
  split at before <;> split <;> omega

/-- The month and the day of a date that was made from a day exist. -/
theorem ofDay_isValid (day : Int) : (ofDay day).isValid = true := by
  obtain ⟨low, high, _, within⟩ := month_spec _ _ (dayOfYear_lt (day + epochDay))
  simp only [isValid, Bool.and_eq_true, decide_eq_true_eq]
  exact ⟨⟨⟨low, high⟩, Nat.le_add_left 1 _⟩, within⟩

/-- The date of a day has that day's number. -/
theorem toDay_ofDay (day : Int) : (ofDay day).toDay = day := by
  obtain ⟨_, _, start, _⟩ := month_spec _ _ (dayOfYear_lt (day + epochDay))
  obtain ⟨least, _⟩ := yearOf_spec (day + epochDay)
  have position : (dayOfYear (day + epochDay) : Int)
      = day + epochDay - daysBeforeYear (yearOf (day + epochDay)) := by
    unfold dayOfYear
    omega
  unfold dayOfYear at start position
  simp only [toDay, ofDay]
  omega

theorem month_lt (day : Int) : (ofDay day).month < 10 ^ 2 := by
  have valid := ofDay_isValid day
  simp only [isValid, Bool.and_eq_true, decide_eq_true_eq] at valid
  omega

theorem day_lt (day : Int) : (ofDay day).day < 10 ^ 2 := by
  have valid := ofDay_isValid day
  simp only [isValid, Bool.and_eq_true, decide_eq_true_eq] at valid
  have most : daysInMonth (isLeap (ofDay day).year) (ofDay day).month ≤ 31 := by
    unfold daysInMonth
    split
    · split <;> omega
    · split <;> omega
  omega

end Date

end Mailroom.Calendar
