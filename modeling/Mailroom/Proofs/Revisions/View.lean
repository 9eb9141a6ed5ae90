import Mailroom.Storage
/-!
What rows bear, and how that may change.

A row has a number in its mailbox for good, and bears a modification sequence and flags that change:
its `Revision`. The `View` of a store holds the revisions of its rows and the numbers that were
given out last.

`Stamps` is what happens to a view when rows are only ever given modification sequences that were
not given out before; `Resets` is what a reset does, whose modification sequence is chosen by the
caller. Both only let a view grow (`Grows`). Where moreover every change of a row takes it forward,
a number and a modification sequence never name two different sets of flags (`Later`).
-/

namespace Mailroom

/-- What a row bears until it is changed. -/
structure Revision where
  modSeq : ModSeq
  flags : Flags
deriving DecidableEq

/-- The rows of a store and the numbers given out last. -/
@[ext]
structure View where
  revisionAt : Place → Option Revision
  lastUid : MailboxId → Uid
  highestModSeq : MailboxId → ModSeq

namespace View

variable {v v' v'' : View} {mailbox : MailboxId} {place : Place} {modSeq : ModSeq} {r : Revision}

/-- Rows bear numbers and modification sequences that were given out. -/
def IsIssued (v : View) : Prop := ∀ place r, v.revisionAt place = some r →
  place.uid ≤ v.lastUid place.mailbox ∧ r.modSeq ≤ v.highestModSeq place.mailbox

/-- A view after a row has come to bear a revision. -/
def put (v : View) (place : Place) (r : Revision) : View :=
  { v with revisionAt := fun other => if other = place then some r else v.revisionAt other }

/-! ### What single operations do -/

/-- Gives out the next number of a mailbox, or fails and changes nothing. -/
def CountsUid (mailbox : MailboxId) (v : View) (answer : Except StoreError Uid) (v' : View) :
    Prop :=
  match answer with
  | .ok uid => uid = v.lastUid mailbox + 1 ∧
    v' = { v with lastUid := fun other => if other = mailbox then uid else v.lastUid other }
  | .error _ => v' = v

/-- Gives out the next modification sequence of a mailbox, or fails and changes nothing. -/
def CountsModSeq (mailbox : MailboxId) (v : View) (answer : Except StoreError ModSeq) (v' : View) :
    Prop :=
  match answer with
  | .ok modSeq => modSeq = v.highestModSeq mailbox + 1 ∧
    v' = { v with
      highestModSeq := fun other => if other = mailbox then modSeq else v.highestModSeq other }
  | .error _ => v' = v

/-- Puts a row where there is none, or changes nothing. -/
def Inserts (place : Place) (modSeq : ModSeq) (v v' : View) : Prop :=
  v' = v ∨ v.revisionAt place = none ∧ ∃ flags, v' = v.put place ⟨modSeq, flags⟩

/-- Changes the flags of a row under a modification sequence, or changes nothing. -/
def Updates (place : Place) (modSeq : ModSeq) (v v' : View) : Prop :=
  v' = v ∨ (∃ r, v.revisionAt place = some r) ∧ ∃ flags, v' = v.put place ⟨modSeq, flags⟩

/-- Gives some rows of a mailbox a modification sequence other than they had. -/
structure Resets (mailbox : MailboxId) (modSeq : ModSeq) (v v' : View) : Prop where
  lastUid : v'.lastUid = v.lastUid
  highestModSeq : v'.highestModSeq = v.highestModSeq
  rows : ∀ place, v'.revisionAt place = v.revisionAt place ∨
    place.mailbox = mailbox ∧ ∃ r flags, v.revisionAt place = some r ∧ r.modSeq ≠ modSeq ∧
      v'.revisionAt place = some ⟨modSeq, flags⟩

/-- Removes some rows. -/
structure Drops (v v' : View) : Prop where
  lastUid : v'.lastUid = v.lastUid
  highestModSeq : v'.highestModSeq = v.highestModSeq
  rows : ∀ place, v'.revisionAt place = v.revisionAt place ∨ v'.revisionAt place = none

/-! ### What calls do -/

/-- Numbers only go up, and one that was given out is given to no other row. -/
structure Grows (v v' : View) : Prop where
  lastUid : ∀ mailbox, v.lastUid mailbox ≤ v'.lastUid mailbox
  highestModSeq : ∀ mailbox, v.highestModSeq mailbox ≤ v'.highestModSeq mailbox
  gone : ∀ place, v.revisionAt place = none → place.uid ≤ v.lastUid place.mailbox →
    v'.revisionAt place = none

/-- Rows that are changed bear modification sequences that were given out since. -/
structure Stamps (v v' : View) : Prop extends Grows v v' where
  fresh : ∀ place r r', v.revisionAt place = some r → v'.revisionAt place = some r' →
    r' = r ∨ v.highestModSeq place.mailbox < r'.modSeq

/-- Rows that are changed bear greater modification sequences. -/
structure Later (v v' : View) : Prop extends Grows v v' where
  forward : ∀ place r r', v.revisionAt place = some r → v'.revisionAt place = some r' →
    r' = r ∨ r.modSeq < r'.modSeq

namespace Grows

theorem refl (v : View) : Grows v v where
  lastUid _ := Nat.le_refl _
  highestModSeq _ := Nat.le_refl _
  gone _ none _ := none

theorem trans (first : Grows v v') (second : Grows v' v'') : Grows v v'' where
  lastUid mailbox := Nat.le_trans (first.lastUid mailbox) (second.lastUid mailbox)
  highestModSeq mailbox :=
    Nat.le_trans (first.highestModSeq mailbox) (second.highestModSeq mailbox)
  gone place none given :=
    second.gone place (first.gone place none given) (Nat.le_trans given (first.lastUid _))

/-- A row that is there before and after was there in between. -/
theorem between (issued : v.IsIssued) (first : Grows v v') (second : Grows v' v'')
    {r r'' : Revision} (before : v.revisionAt place = some r)
    (after : v''.revisionAt place = some r'') : ∃ r', v'.revisionAt place = some r' := by
  cases found : v'.revisionAt place with
  | some r' => exact ⟨r', rfl⟩
  | none =>
    have given := Nat.le_trans (issued place r before).1 (first.lastUid place.mailbox)
    rw [second.gone place found given] at after
    cases after

end Grows

namespace Stamps

theorem refl (v : View) : Stamps v v where
  toGrows := .refl v
  fresh _ _ _ before after := .inl (Option.some.inj (after.symm.trans before))

theorem trans (issued : v.IsIssued) (first : Stamps v v') (second : Stamps v' v'') :
    Stamps v v'' where
  toGrows := first.toGrows.trans second.toGrows
  fresh place r r'' before after := by
    obtain ⟨r', between⟩ := Grows.between issued first.toGrows second.toGrows before after
    have rise := first.highestModSeq place.mailbox
    rcases first.fresh place r r' before between with rfl | firstFresh
    · exact (second.fresh place r' r'' between after).imp id (Nat.lt_of_le_of_lt rise)
    · rcases second.fresh place r' r'' between after with rfl | secondFresh
      · exact .inr firstFresh
      · exact .inr (Nat.lt_of_le_of_lt rise secondFresh)

/-- A row that is changed bears a greater modification sequence. -/
theorem forward (issued : v.IsIssued) (stamps : Stamps v v') {r r' : Revision}
    (before : v.revisionAt place = some r) (after : v'.revisionAt place = some r')
    (changed : r ≠ r') : r.modSeq < r'.modSeq := by
  rcases stamps.fresh place r r' before after with same | fresh
  · exact absurd same.symm changed
  · exact Nat.lt_of_le_of_lt (issued place r before).2 fresh

end Stamps

namespace Later

theorem refl (v : View) : Later v v where
  toGrows := .refl v
  forward _ _ _ before after := .inl (Option.some.inj (after.symm.trans before))

theorem trans (issued : v.IsIssued) (first : Later v v') (second : Later v' v'') :
    Later v v'' where
  toGrows := first.toGrows.trans second.toGrows
  forward place r r'' before after := by
    obtain ⟨r', between⟩ := Grows.between issued first.toGrows second.toGrows before after
    rcases first.forward place r r' before between with rfl | up
    · exact second.forward place r' r'' between after
    · rcases second.forward place r' r'' between after with rfl | higher
      · exact .inr up
      · exact .inr (Nat.lt_trans up higher)

/-- A row with the same modification sequence as before has the same flags. -/
theorem flags_eq (later : Later v v') {r r' : Revision} (before : v.revisionAt place = some r)
    (after : v'.revisionAt place = some r') (same : r.modSeq = r'.modSeq) : r.flags = r'.flags := by
  rcases later.forward place r r' before after with rfl | up
  · rfl
  · exact absurd same (Nat.ne_of_lt up)

end Later

/-! ### From operations to calls -/

theorem CountsUid.stamps {answer : Except StoreError Uid} (counts : CountsUid mailbox v answer v') :
    Stamps v v' ∧ (v.IsIssued → v'.IsIssued) ∧ v'.revisionAt = v.revisionAt := by
  cases answer with
  | error e =>
    cases counts
    exact ⟨.refl v, id, rfl⟩
  | ok uid =>
    obtain ⟨rfl, rfl⟩ := counts
    have rise (other : MailboxId) : v.lastUid other
        ≤ if other = mailbox then v.lastUid mailbox + 1 else v.lastUid other := by
      split
      · rename_i same
        exact same ▸ Nat.le_succ _
      · exact Nat.le_refl _
    refine ⟨?_, fun issued place r found => ?_, rfl⟩
    · exact
        { lastUid := rise
          highestModSeq := fun _ => Nat.le_refl _
          gone := fun _ none _ => none
          fresh := fun _ _ _ before after => .inl (Option.some.inj (after.symm.trans before)) }
    · exact ⟨Nat.le_trans (issued place r found).1 (rise _), (issued place r found).2⟩

theorem CountsModSeq.stamps {answer : Except StoreError ModSeq}
    (counts : CountsModSeq mailbox v answer v') :
    Stamps v v' ∧ (v.IsIssued → v'.IsIssued) ∧ v'.revisionAt = v.revisionAt := by
  cases answer with
  | error e =>
    cases counts
    exact ⟨.refl v, id, rfl⟩
  | ok modSeq =>
    obtain ⟨rfl, rfl⟩ := counts
    have rise (other : MailboxId) : v.highestModSeq other
        ≤ if other = mailbox then v.highestModSeq mailbox + 1 else v.highestModSeq other := by
      split
      · rename_i same
        exact same ▸ Nat.le_succ _
      · exact Nat.le_refl _
    refine ⟨?_, fun issued place r found => ?_, rfl⟩
    · exact
        { lastUid := fun _ => Nat.le_refl _
          highestModSeq := rise
          gone := fun _ none _ => none
          fresh := fun _ _ _ before after => .inl (Option.some.inj (after.symm.trans before)) }
    · exact ⟨(issued place r found).1, Nat.le_trans (issued place r found).2 (rise _)⟩

/-- What was given out is in reach of the counters. -/
theorem CountsModSeq.le (counts : CountsModSeq mailbox v (.ok modSeq) v') :
    v.highestModSeq mailbox < modSeq ∧ modSeq ≤ v'.highestModSeq mailbox := by
  obtain ⟨rfl, rfl⟩ := counts
  exact ⟨Nat.lt_succ_self _, by simp⟩

theorem CountsUid.le {uid : Uid} (counts : CountsUid mailbox v (.ok uid) v') :
    v.lastUid mailbox < uid ∧ uid ≤ v'.lastUid mailbox := by
  obtain ⟨rfl, rfl⟩ := counts
  exact ⟨Nat.lt_succ_self _, by simp⟩

/-- A row comes to bear a modification sequence that was given out just before. -/
theorem Stamps.put (stamps : Stamps v v') (rows : v'.revisionAt = v.revisionAt)
    (fresh : v.highestModSeq place.mailbox < r.modSeq)
    (new : v.revisionAt place = none → v.lastUid place.mailbox < place.uid) :
    Stamps v (v'.put place r) where
  lastUid := stamps.lastUid
  highestModSeq := stamps.highestModSeq
  gone other none given := by
    show (if other = place then some r else v'.revisionAt other) = Option.none
    split
    · rename_i same
      subst same
      exact absurd given (Nat.not_le.mpr (new none))
    · rw [rows, none]
  fresh other before after found found' := by
    have found' : (if other = place then some r else v'.revisionAt other) = some after := found'
    split at found'
    · rename_i same
      cases found'
      exact .inr (same ▸ fresh)
    · rw [rows, found] at found'
      exact .inl (Option.some.inj found').symm

theorem IsIssued.put (issued : v.IsIssued) (uid : place.uid ≤ v.lastUid place.mailbox)
    (modSeq : r.modSeq ≤ v.highestModSeq place.mailbox) : (v.put place r).IsIssued := by
  intro other found revision
  have revision : (if other = place then some r else v.revisionAt other) = some found := revision
  split at revision
  · rename_i same
    cases revision
    subst same
    exact ⟨uid, modSeq⟩
  · exact issued other found revision

namespace Drops

theorem refl (v : View) : Drops v v := ⟨rfl, rfl, fun _ => .inl rfl⟩

theorem trans (first : Drops v v') (second : Drops v' v'') : Drops v v'' where
  lastUid := second.lastUid.trans first.lastUid
  highestModSeq := second.highestModSeq.trans first.highestModSeq
  rows place := (second.rows place).elim (fun same => same ▸ first.rows place) .inr

theorem stamps (drops : Drops v v') : Stamps v v' where
  lastUid _ := drops.lastUid ▸ Nat.le_refl _
  highestModSeq _ := drops.highestModSeq ▸ Nat.le_refl _
  gone place none _ := (drops.rows place).elim (·.trans none) id
  fresh place r r' before after := by
    rcases drops.rows place with same | dropped
    · exact .inl (Option.some.inj (after.symm.trans (same.trans before)))
    · rw [dropped] at after
      cases after

theorem issued (drops : Drops v v') (issued : v.IsIssued) : v'.IsIssued := by
  intro place r found
  rw [drops.lastUid, drops.highestModSeq]
  rcases drops.rows place with same | dropped
  · exact issued place r (same ▸ found)
  · rw [dropped] at found
    cases found

end Drops

namespace Resets

theorem refl (v : View) : Resets mailbox modSeq v v := ⟨rfl, rfl, fun _ => .inl rfl⟩

theorem trans (first : Resets mailbox modSeq v v') (second : Resets mailbox modSeq v' v'') :
    Resets mailbox modSeq v v'' where
  lastUid := second.lastUid.trans first.lastUid
  highestModSeq := second.highestModSeq.trans first.highestModSeq
  rows place := by
    rcases second.rows place with same | ⟨inMailbox, r', flags, found', unsettled, after⟩
    · rw [same]
      exact first.rows place
    · rcases first.rows place with same | ⟨_, r, flags, found, _, after'⟩
      · exact .inr ⟨inMailbox, r', _, same ▸ found', unsettled, after⟩
      · -- What was reset once bears the modification sequence already.
        rw [after'] at found'
        cases found'
        exact absurd rfl unsettled

theorem grows (resets : Resets mailbox modSeq v v') : Grows v v' where
  lastUid _ := resets.lastUid ▸ Nat.le_refl _
  highestModSeq _ := resets.highestModSeq ▸ Nat.le_refl _
  gone place none _ := by
    rcases resets.rows place with same | ⟨_, r, _, found, _⟩
    · rw [same, none]
    · rw [none] at found
      cases found

theorem issued (resets : Resets mailbox modSeq v v') (issued : v.IsIssued)
    (given : modSeq ≤ v.highestModSeq mailbox) : v'.IsIssued := by
  intro place r' after
  rw [resets.lastUid, resets.highestModSeq]
  rcases resets.rows place with same | ⟨inMailbox, r, flags, found, _, reset⟩
  · exact issued place r' (same ▸ after)
  · rw [reset] at after
    cases after
    exact ⟨(issued place r found).1, inMailbox ▸ given⟩

/-- A row that is changed bears the modification sequence of the reset. -/
theorem modSeq_eq (resets : Resets mailbox modSeq v v') {r r' : Revision}
    (before : v.revisionAt place = some r) (after : v'.revisionAt place = some r')
    (changed : r ≠ r') : r.modSeq ≠ modSeq ∧ r'.modSeq = modSeq := by
  rcases resets.rows place with same | ⟨_, other, flags, found, unsettled, reset⟩
  · exact absurd (Option.some.inj (before.symm.trans (same.symm.trans after))) changed
  · rw [before] at found
    rw [reset] at after
    cases found
    cases after
    exact ⟨unsettled, rfl⟩

end Resets

end View

end Mailroom
