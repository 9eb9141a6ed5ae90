import Mailroom.Proofs.Mirror.Views
/-!
The modification sequences of rows over a run.

In a run whose resets are given modification sequences that their mailboxes gave out before, a call
that changes a row takes it forward unless it is a reset whose modification sequence is less than
that of the row, and where no such reset occurs a number and a modification sequence never name two
sets of flags (`revisions_moveForward`). Such resets do occur: between the allocation of its
modification sequence and the reset, rows may be added and changed (`lateReset_lowers`).
-/

namespace Mailroom.Service

open Revised View

section Runs

variable {σ : Type} [Storage σ]

/-- Every reset of a run is given a modification sequence that its mailbox gave out before. -/
def ResetsAreGiven (policy : Policy) (calls : List Call) (start : σ) : Prop :=
  ∀ before mailbox uids modSeq after,
    calls = before ++ .resetRecent mailbox uids modSeq :: after →
    ⟨.nextModSeq mailbox, .ok modSeq⟩ ∈ (Call.runAll policy before start).1

variable [Sound σ] [Revised σ]

/-- A call changes a row from one revision to another. -/
def Call.Changes (policy : Policy) (call : Call) (store : σ) (place : Place) (r r' : Revision) :
    Prop :=
  (view store).revisionAt place = some r ∧
    (view (call.run policy store).2).revisionAt place = some r' ∧ r ≠ r'

/-- How rows move over the runs of a store whose resets are given modification sequences that were
given out before. -/
structure MovesForward (policy : Policy) (start : σ) : Prop where
  /-- A row that a call changes comes to bear a greater modification sequence, unless the call is a
  reset whose modification sequence is less than that of the row. -/
  forward_iff : ∀ calls call, ResetsAreGiven policy (calls ++ [call]) start →
    ∀ place r r', call.Changes policy (Call.runAll policy calls start).2 place r r' →
      (r.modSeq < r'.modSeq ↔ ∀ target ∈ call.target?, r.modSeq < target)
  /-- Without such resets, a row never bears two sets of flags under one modification sequence, and
  neither do two rows with one number. -/
  flags_eq : ∀ calls, ResetsAreGiven policy calls start →
    (∀ before call after, calls = before ++ call :: after → ∀ place r r',
      call.Changes policy (Call.runAll policy before start).2 place r r' →
      ∀ target ∈ call.target?, r.modSeq < target) →
    ∀ first second, first <+: calls → second <+: calls → ∀ place r r',
      (view (Call.runAll policy first start).2).revisionAt place = some r →
      (view (Call.runAll policy second start).2).revisionAt place = some r' →
      r.modSeq = r'.modSeq → r.flags = r'.flags

variable [PureReads σ] {policy : Policy} {start : σ}

/-- The store after some calls is good, and its counters have reached what they gave out. -/
def Reaches (policy : Policy) (calls : List Call) (start : σ) : Prop :=
  IsGood (Call.runAll policy calls start).2 ∧ ∀ mailbox modSeq,
    ⟨.nextModSeq mailbox, .ok modSeq⟩ ∈ (Call.runAll policy calls start).1 →
    modSeq ≤ (view (Call.runAll policy calls start).2).highestModSeq mailbox

omit [Sound σ] [Revised σ] [PureReads σ] in
/-- The first calls of a run are given what all of them are. -/
theorem ResetsAreGiven.left {calls more : List Call}
    (given : ResetsAreGiven policy (calls ++ more) start) : ResetsAreGiven policy calls start := by
  intro before mailbox uids modSeq after split
  refine given before mailbox uids modSeq (after ++ more) ?_
  rw [split, List.append_assoc, List.cons_append]

omit [PureReads σ] in
/-- Before the first call nothing was given out. -/
theorem Reaches.of_good (good : IsGood start) : Reaches policy [] start :=
  ⟨good, fun _ _ member => by cases member⟩

/-- One more call leaves the store good, if a reset is given what was given out before. -/
theorem Reaches.concat {calls : List Call} {call : Call} (reaches : Reaches policy calls start)
    (given : ResetsAreGiven policy (calls ++ [call]) start) :
    call.IsGiven (view (Call.runAll policy calls start).2) ∧
      Reaches policy (calls ++ [call]) start := by
  obtain ⟨good, reached⟩ := reaches
  have isGiven : call.IsGiven (view (Call.runAll policy calls start).2) := by
    cases call with
    | resetRecent mailbox uids modSeq => exact reached _ _ (given _ _ _ _ [] rfl)
    | _ => trivial
  obtain ⟨after, grows, -⟩ := Call.run_forward_iff policy good isGiven
  refine ⟨isGiven, ?_⟩
  unfold Reaches
  rw [Call.runAll_append]
  refine ⟨after, fun mailbox modSeq member => ?_⟩
  rcases List.mem_append.mp member with old | new
  · exact Nat.le_trans (reached mailbox modSeq old) (grows.highestModSeq mailbox)
  · have same := List.mem_singleton.mp new
    cases call with
    | nextModSeq other =>
      injection same with mailboxes answers
      injection mailboxes with mailboxes
      subst mailboxes
      have counts := (nextModSeq mailbox _ good.1).2
      have answer : Except.ok modSeq
        = (Storage.nextModSeq mailbox (Call.runAll policy calls start).2).1 := answers
      rw [← answer] at counts
      exact counts.le.2
    | _ => cases same

/-- Where resets are given what was given out before, every store of a run is good. -/
theorem Reaches.append {calls more : List Call} (reaches : Reaches policy calls start)
    (given : ResetsAreGiven policy (calls ++ more) start) :
    Reaches policy (calls ++ more) start := by
  induction more generalizing calls with
  | nil => rwa [List.append_nil]
  | cons call rest ih =>
    rw [← List.singleton_append, ← List.append_assoc] at given ⊢
    exact ih (reaches.concat given.left).2 given

/-- Where every change takes a row forward, a later store bears later revisions. -/
theorem Reaches.later {calls more : List Call} (reaches : Reaches policy calls start)
    (given : ResetsAreGiven policy (calls ++ more) start)
    (forward : ∀ before call after, calls ++ more = before ++ call :: after → ∀ place r r',
      call.Changes policy (Call.runAll policy before start).2 place r r' →
      ∀ target ∈ call.target?, r.modSeq < target) :
    Later (view (Call.runAll policy calls start).2)
      (view (Call.runAll policy (calls ++ more) start).2) := by
  induction more generalizing calls with
  | nil =>
    rw [List.append_nil]
    exact .refl _
  | cons call rest ih =>
    have changes := forward calls call rest rfl
    rw [← List.singleton_append, ← List.append_assoc] at given forward ⊢
    obtain ⟨isGiven, next⟩ := reaches.concat given.left
    obtain ⟨-, grows, up⟩ := Call.run_forward_iff policy reaches.1 isGiven
    refine Later.trans reaches.1.2 ?_ (ih next given forward)
    rw [Call.runAll_append]
    refine { grows with forward := fun place r r' found found' => ?_ }
    by_cases same : r' = r
    · exact .inl same
    · have changed : r ≠ r' := Ne.symm same
      exact .inr ((up place r r' found found' changed).mpr
        (changes place r r' ⟨found, found', changed⟩))

/-- From one store of such a run to a later one, a row with the same modification sequence has the
same flags. -/
theorem flags_eq_of_earlier (good : IsGood start) {first second : List Call}
    (earlier : first <+: second) (given : ResetsAreGiven policy second start)
    (forward : ∀ before call after, second = before ++ call :: after → ∀ place r r',
      call.Changes policy (Call.runAll policy before start).2 place r r' →
      ∀ target ∈ call.target?, r.modSeq < target) {place : Place} {r r' : Revision}
    (found : (view (Call.runAll policy first start).2).revisionAt place = some r)
    (found' : (view (Call.runAll policy second start).2).revisionAt place = some r')
    (same : r.modSeq = r'.modSeq) : r.flags = r'.flags := by
  obtain ⟨more, rfl⟩ := earlier
  have reaches : Reaches policy first start := (Reaches.of_good good).append given.left
  exact (reaches.later given forward).flags_eq found found' same

/-- Rows move forward in the runs of a store that starts out good. -/
theorem movesForward (good : IsGood start) : MovesForward policy start where
  forward_iff calls call given place r r' := by
    rintro ⟨found, found', changed⟩
    have reaches : Reaches policy calls start := (Reaches.of_good good).append given.left
    obtain ⟨isGiven, -⟩ := reaches.concat given
    exact (Call.run_forward_iff policy reaches.1 isGiven).2.2 place r r' found found' changed
  flags_eq calls given forward first second isFirst isSecond place r r' found found' same := by
    -- What holds of the calls holds of the first ones of them.
    have left {some : List Call} (isLeft : some <+: calls) : ResetsAreGiven policy some start ∧
        ∀ before call after, some = before ++ call :: after → ∀ place r r',
          call.Changes policy (Call.runAll policy before start).2 place r r' →
          ∀ target ∈ call.target?, r.modSeq < target := by
      obtain ⟨more, rfl⟩ := isLeft
      refine ⟨given.left, fun before call after split => forward before call (after ++ more) ?_⟩
      rw [split, List.append_assoc, List.cons_append]
    rcases List.prefix_or_prefix_of_prefix isFirst isSecond with earlier | later
    · exact flags_eq_of_earlier good earlier (left isSecond).1 (left isSecond).2 found found' same
    · exact (flags_eq_of_earlier good later (left isFirst).1 (left isFirst).2 found' found
        same.symm).symm

end Runs

/-! ### The two stores -/

/-- A store without rows is good if it is sound. -/
theorem isGood_of_empty {σ : Type} [Storage σ] [Sound σ] [Revised σ] {store : σ}
    (sound : isSound store) (empty : ∀ place, (view store).revisionAt place = none) :
    IsGood store := by
  refine ⟨sound, fun place r found => ?_⟩
  rw [empty] at found
  cases found

/-- In memory and in the database, a change takes a row forward unless it is made by a reset whose
modification sequence is less than that of the row, and where no such reset occurs a number and a
modification sequence never name two sets of flags. -/
theorem revisions_moveForward (policy : Policy) (path : String) (listBound : Nat) :
    MovesForward policy (Memory.Store.new listBound) ∧
      MovesForward policy (Database.Store.new path listBound) :=
  ⟨movesForward (isGood_of_empty (Memory.Store.new_isSound listBound) fun _ => rfl),
    movesForward (isGood_of_empty (Mirror.new_isSound path listBound) fun _ => rfl)⟩

/-- A reset whose modification sequence was given out before the row was added, and which is
repeated after the row was changed. -/
def lateReset : List Call :=
  [.nextModSeq "inbox", .append "inbox" { id := "m1", flags.recent := true } .epoch,
    .resetRecent "inbox" [1] 1, .applyFlags "inbox" 1 ⟨{ seen := true }, .add⟩ none,
    .resetRecent "inbox" [1] 1]

/-- The resets of that run are given what its first call gives out. -/
theorem lateReset_isGiven {σ : Type} [Storage σ] {start : σ}
    (first : (Storage.nextModSeq "inbox" start).1 = .ok 1) :
    ResetsAreGiven ⟨1, none⟩ lateReset start := by
  intro before mailbox uids modSeq after split
  have same : mailbox = "inbox" ∧ modSeq = (1 : Nat) := by
    have resets : Call.resetRecent mailbox uids modSeq ∈ lateReset := by
      rw [split]
      exact List.mem_append_right _ List.mem_cons_self
    simp only [lateReset, List.mem_cons, reduceCtorEq, false_or, List.not_mem_nil, or_false]
      at resets
    rcases resets with same | same <;> (cases same; exact ⟨rfl, rfl⟩)
  cases before with
  | nil => cases split
  | cons call rest =>
    injection split with head
    subst head
    have answered : (⟨.nextModSeq "inbox", (Storage.nextModSeq "inbox" start).1⟩ :
        (call : Call) × Except StoreError call.Answer) = ⟨.nextModSeq mailbox, .ok modSeq⟩ := by
      rw [same.1, same.2]
      exact congrArg (Sigma.mk (Call.nextModSeq "inbox")) first
    rw [← answered]
    exact List.mem_cons_self

/-- What the first row of the inbox bears after so many calls of that run. -/
def revisionAfter {σ : Type} [Storage σ] [Sound σ] [Revised σ] (start : σ) (count : Nat) :
    Option Revision :=
  (view (Call.runAll ⟨1, none⟩ (lateReset.take count) start).2).revisionAt ⟨"inbox", 1⟩

/-- A reset may take a row back: the third call changes flags under a lesser modification sequence,
and after the fifth the row bears other flags under that one. -/
theorem lateReset_lowers :
    (ResetsAreGiven ⟨1, none⟩ lateReset (Memory.Store.new 1) ∧
      ResetsAreGiven ⟨1, none⟩ lateReset (Database.Store.new "mail" 1)) ∧
    ([2, 3, 5].map (revisionAfter (Memory.Store.new 1)) =
        [some ⟨2, { recent := true }⟩, some ⟨1, {}⟩, some ⟨1, { seen := true }⟩] ∧
      [2, 3, 5].map (revisionAfter (Database.Store.new "mail" 1)) =
        [some ⟨2, { recent := true }⟩, some ⟨1, {}⟩, some ⟨1, { seen := true }⟩]) := by
  refine ⟨⟨lateReset_isGiven rfl, lateReset_isGiven rfl⟩, ?_, ?_⟩
  · decide +kernel
  · decide +kernel

end Mailroom.Service
