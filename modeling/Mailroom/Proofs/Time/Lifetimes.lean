import Mailroom.Proofs.Mirror.Records
import Mailroom.Proofs.Time.Timestamp
import Mailroom.Settings
/-!
The arithmetic of lifetimes.

A change record expires a number of seconds after its date. The seconds come as any number, are cut
to what fits a signed word as milliseconds, and are added to a date that may leave the years of an
instant; a record whose sum leaves them never expires. Outside leap seconds none of this is seen:
what comes out is the exact sum, where it is an instant (`expiry_keeping`). For a lifetime that is
cut lies beyond the last year from every date. In a leap second the sum is exact as well, once the
leap second counts as the second that follows (`expiry_seconds`). So a longer lifetime never ends
earlier (`expiry_mono`), and every number on the way fits a signed word of 64 bits (`lifetimeFits`).
-/

namespace Mailroom

/-! ### Instants -/

namespace Instant

/-- The numbers of an instant are those that it is made of. -/
theorem ofParts?_eq_some {second : Int} {nano : Nat} {t : Instant}
    (made : ofParts? second nano = some t) : t.second = second ∧ t.nano = nano := by
  unfold ofParts? at made
  split at made
  · split at made
    · cases made
      exact ⟨rfl, rfl⟩
    · cases made
  · cases made

theorem ofParts?_of_beyond {second : Int} (beyond : isSecond second = false) (nano : Nat) :
    ofParts? second nano = none := by
  unfold ofParts?
  rw [dif_neg (by rw [beyond]; decide)]

/-- Nanoseconds that fill no second can follow every second. -/
theorem ofParts?_isSome {second : Int} {nano : Nat} (within : isSecond second = true)
    (small : nano < 1000000000) : ∃ t, ofParts? second nano = some t := by
  have follows : nano < 2000000000 := by omega
  exact ⟨_, by rw [ofParts?, dif_pos within, dif_pos follows]⟩

/-- An instant is no more than a signed word of milliseconds away from 1970. -/
theorem natAbs_millis_le (t : Instant) : t.millis.natAbs ≤ maxStored := by
  have within := isSecond_iff.mp t.second_valid
  have nano := t.nano_valid
  unfold millis maxStored
  omega

/-- Whole seconds are added to the second. If there are any, they end a leap second. -/
theorem plusMillis?_seconds (t : Instant) (seconds : Nat) :
    t.plusMillis? (seconds * 1000) = if t.IsLeap ∧ seconds = 0 then some t
      else ofParts? (t.second + seconds) (t.nano % 1000000000) := by
  have small := t.nano_valid
  have nothing_over : seconds * 1000 % 1000 * 1000000 = 0 := by omega
  have whole : seconds * 1000 / 1000 = seconds := by omega
  have start : (if 1000000000 ≤ t.nano then t.nano - 1000000000 else t.nano)
      = t.nano % 1000000000 := by
    split <;> omega
  unfold plusMillis?
  simp only [nothing_over, whole, start, Nat.add_zero]
  by_cases stays : t.IsLeap ∧ seconds = 0
  · rw [if_pos ⟨stays.1, stays.2, small⟩, if_pos stays, ofParts?, dif_pos t.second_valid,
      dif_pos small]
  · have none_over : seconds + t.nano % 1000000000 / 1000000000 = seconds := by omega
    rw [if_neg fun short => stays ⟨short.1, short.2.1⟩, if_neg stays, none_over, Nat.mod_mod]

/-- An instant is another one or whole seconds before it. A leap second counts as the second that
follows. -/
def IsSecondsBefore (a b : Instant) : Prop :=
  a.second ≤ b.second ∧ a.nano = b.nano ∨ a.second < b.second ∧ a.nano = b.nano + 1000000000

/-- The longest delay leads beyond the last year. -/
theorem plusMillis?_maxStored (t : Instant) : t.plusMillis? maxStored = none := by
  have within := isSecond_iff.mp t.second_valid
  have beyond (more : Nat) : isSecond (t.second + (maxStored / 1000 + more : Nat)) = false := by
    rw [← Bool.not_eq_true, isSecond_iff]
    unfold maxStored
    omega
  unfold plusMillis?
  rw [if_neg fun short => absurd short.2.1 (by decide)]
  exact ofParts?_of_beyond (beyond _) _

end Instant

/-! ### Lifetimes -/

/-- A lifetime is at most as long as another one. None is the longest, for it never ends. -/
def NoLonger : Option Nat → Option Nat → Prop
  | _, none => True
  | none, some _ => False
  | some seconds, some more => seconds ≤ more

/-- A lifetime that starts at a date is not over at an instant: it has no end, or ends beyond the
instants, or later than that one. -/
def Remains (date now : Instant) : Option Nat → Prop
  | none => True
  | some seconds => isSecond (date.second + seconds) = false ∨ now.second < date.second + seconds ∨
      now.second = date.second + seconds ∧ now.nano < date.nano

instance (date now : Instant) : (lifetime : Option Nat) → Decidable (Remains date now lifetime)
  | none => .isTrue trivial
  | some _ => inferInstanceAs (Decidable (_ ∨ _ ∨ _))

namespace Settings

/-- How a service reads and keeps that has some settings but another lifetime of changes. -/
def keeping (settings : Settings) (lifetime : Option Nat) : Service.Policy :=
  { settings with changeLifetime := lifetime }.policy

variable {settings : Settings} {lifetime longer : Option Nat} {date : Instant}

/-- A record expires exactly some seconds after its date, unless that is no instant. A leap second
is over after any seconds at all. -/
theorem expiry_seconds (settings : Settings) (date : Instant) (seconds : Nat) :
    (settings.keeping (some seconds)).expiry date = if date.IsLeap ∧ seconds = 0 then some date
      else Instant.ofParts? (date.second + seconds) (date.nano % 1000000000) := by
  show date.plusMillis? (min (seconds * 1000) maxStored) = _
  rcases Nat.le_total (seconds * 1000) maxStored with fits | cut
  · rw [Nat.min_eq_left fits, Instant.plusMillis?_seconds]
  · have within := Instant.isSecond_iff.mp date.second_valid
    have beyond : isSecond (date.second + seconds) = false := by
      rw [← Bool.not_eq_true, Instant.isSecond_iff]
      unfold maxStored at cut
      omega
    have some_seconds : seconds ≠ 0 := by
      unfold maxStored at cut
      omega
    rw [Nat.min_eq_right cut, Instant.plusMillis?_maxStored,
      if_neg fun stays => some_seconds stays.2, Instant.ofParts?_of_beyond beyond]

/-- Outside leap seconds, a record expires exactly a lifetime after its date, unless that is no
instant. -/
theorem expiry_keeping (plain : ¬ date.IsLeap) :
    (settings.keeping lifetime).expiry date
      = lifetime.bind fun seconds => Instant.ofParts? (date.second + seconds) date.nano := by
  cases lifetime with
  | none => rfl
  | some seconds =>
    rw [expiry_seconds, if_neg fun stays => plain stays.1, Nat.mod_eq_of_lt (Nat.not_le.mp plain)]
    rfl

/-- A record that is kept longer expires no earlier, and at the same part of a second. -/
theorem expiry_mono (noLonger : NoLonger lifetime longer) {later : Instant}
    (expires : (settings.keeping longer).expiry date = some later) :
    ∃ sooner, (settings.keeping lifetime).expiry date = some sooner ∧
      sooner.IsSecondsBefore later := by
  cases longer with
  | none => cases expires
  | some more =>
    cases lifetime with
    | none => exact noLonger.elim
    | some seconds =>
      have noLonger : seconds ≤ more := noLonger
      rw [expiry_seconds] at expires ⊢
      by_cases stays : date.IsLeap ∧ more = 0
      · have stays' : date.IsLeap ∧ seconds = 0 := ⟨stays.1, by omega⟩
        rw [if_pos stays] at expires
        cases expires
        exact ⟨date, if_pos stays', .inl ⟨Int.le_refl _, rfl⟩⟩
      rw [if_neg stays] at expires
      obtain ⟨second, nano⟩ := Instant.ofParts?_eq_some expires
      by_cases stays' : date.IsLeap ∧ seconds = 0
      · have := date.nano_valid
        have leap : 1000000000 ≤ date.nano := stays'.1
        have some_more : more ≠ 0 := fun none => stays ⟨stays'.1, none⟩
        exact ⟨date, if_pos stays', .inr (by omega)⟩
      · have last := Instant.isSecond_iff.mp later.second_valid
        have first := Instant.isSecond_iff.mp date.second_valid
        have within : isSecond (date.second + seconds) = true := Instant.isSecond_iff.mpr (by omega)
        obtain ⟨sooner, made⟩ := Instant.ofParts?_isSome within
          (Nat.mod_lt date.nano (by decide : 1000000000 > 0))
        obtain ⟨second', nano'⟩ := Instant.ofParts?_eq_some made
        exact ⟨sooner, by rw [if_neg stays', made], .inl (by omega)⟩

/-- A record has not expired at the instants at which its lifetime is not over. -/
theorem isBefore_expiry_iff (settings : Settings) (plain : ¬ date.IsLeap) (now : Instant) :
    (∀ expiry ∈ (settings.keeping lifetime).expiry date, now.isBefore expiry = true)
      ↔ Remains date now lifetime := by
  rw [expiry_keeping plain]
  cases lifetime with
  | none => exact iff_of_true (fun _ never => by cases never) trivial
  | some seconds =>
    show (∀ expiry ∈ Instant.ofParts? (date.second + seconds) date.nano, _) ↔ _ ∨ _ ∨ _
    cases within : isSecond (date.second + seconds) with
    | false =>
      rw [Instant.ofParts?_of_beyond within]
      exact iff_of_true (fun _ never => by cases never) (.inl rfl)
    | true =>
      obtain ⟨expiry, made⟩ := Instant.ofParts?_isSome within (Nat.not_le.mp plain)
      obtain ⟨second, nano⟩ := Instant.ofParts?_eq_some made
      rw [made]
      simp only [Option.mem_def, Option.some.injEq, forall_eq', Instant.isBefore, second, nano,
        Bool.or_eq_true, Bool.and_eq_true, decide_eq_true_eq, reduceCtorEq, false_or]

/-- The last second of a lifetime is over at its end, and no lifetime ends after the last year. -/
example : let minute : Instant := ⟨60, 0, by decide, by decide⟩
    ¬ Remains .epoch minute (some 60) ∧ Remains .epoch minute (some 61) ∧
      Remains .epoch minute (some maxWord) := by
  decide

/-- The arithmetic of a lifetime that starts at a date fits signed words of 64 bits, and is exact up
to the last instant. -/
structure LifetimeFits (settings : Settings) (date : Instant) (lifetime : Option Nat) : Prop where
  /-- The milliseconds that a record is kept. -/
  retention : ∀ millis ∈ (settings.keeping lifetime).retention, millis ≤ maxStored
  expiry : (settings.keeping lifetime).expiry date
    = lifetime.bind fun seconds => Instant.ofParts? (date.second + seconds) date.nano
  /-- The milliseconds from 1970 until it expires. -/
  millis : ∀ expiry ∈ (settings.keeping lifetime).expiry date, expiry.millis.natAbs ≤ maxStored

theorem lifetimeFits (settings : Settings) (plain : ¬ date.IsLeap) (lifetime : Option Nat) :
    settings.LifetimeFits date lifetime where
  retention millis kept := by
    cases lifetime with
    | none => cases kept
    | some seconds =>
      cases kept
      exact Nat.min_le_right _ _
  expiry := expiry_keeping plain
  millis expiry _ := expiry.natAbs_millis_le

end Settings

end Mailroom
