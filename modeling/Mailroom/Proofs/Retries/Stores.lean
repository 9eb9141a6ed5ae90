import Mailroom.Proofs.Removals.Numbers
import Mailroom.Proofs.Retries.Recoveries
/-!
Batches that fail in part, in both stores.

Whichever partitions a fault hits, the error accounts for every number, and repeating the operation
on the numbers of the partitions that failed leaves what one call would have left that no fault
hits. In the database a partition fails as well if the engine does not carry its statements, and the
repetition needs that it carries them all, and that a removal can count up twice
(`partialBatches_recover`).
-/

namespace Mailroom

open Service

namespace Database.Store

variable {d : Store} {mailbox : MailboxId} {modSeq : ModSeq} {uids : List Uid}
  {fault : List Uid → Option StoreError}

theorem IsOpen.countsTwice_iff (isOpen : d.IsOpen) :
    CountsTwice mailbox d ↔ d.CanCount 2 mailbox := by
  constructor
  · rintro ⟨first, start, second, after, counted, countedAgain⟩
    have opened := isOpen.of_sameButCounters (sameButCounters_of_nextModSeq counted)
    exact (isOpen.canCount_next counted).mp (opened.nextModSeq_iff.mp ⟨second, after, countedAgain⟩)
  · intro can
    have once : d.CanCount 1 mailbox := by
      obtain ⟨value, stands, notNegative, fits⟩ := can
      exact ⟨value, stands, notNegative, by omega⟩
    obtain ⟨first, start, counted⟩ := isOpen.nextModSeq_iff.mpr once
    have opened := isOpen.of_sameButCounters (sameButCounters_of_nextModSeq counted)
    obtain ⟨second, after, countedAgain⟩ :=
      opened.nextModSeq_iff.mpr ((isOpen.canCount_next counted).mpr can)
    exact ⟨first, start, second, after, counted, countedAgain⟩

/-- What is reported of a number that is reset is about this number. -/
theorem IsOpen.uids_reset (isOpen : d.IsOpen) (mailbox : MailboxId) (fits : modSeq ≤ maxStored)
    (uid : Uid) :
    (BatchOutcome.report ((resetsBatchwise mailbox fits).one d uid)).uids = [uid] :=
  uids_resetOne fun _ found => (of_readEntry (isOpen.read found)).1

/-- A reset in the database that is interrupted fails where the fault hits and where the engine does
not carry a part. It is completed by its repetition if and only if the engine carries each part. -/
theorem IsOpen.resetRecent_interrupted (isOpen : d.IsOpen) (roomy : 3 ≤ d.variableLimit)
    (interrupted : IsInterrupted fault uids d) (mailbox : MailboxId) (fits : modSeq ≤ maxStored) :
    ResetFailsWhere fault (blocked fault (d.refusal mailbox modSeq)) mailbox modSeq uids d ∧
      (ResetRecovers fault mailbox modSeq uids d ↔
        ∀ part ∈ chunks (max d.listBound 1) (sortedUids uids), d.Carries mailbox modSeq part) := by
  have refusing := resetRecent_refusing mailbox fits
  have each := isOpen.uids_reset mailbox fits
  refine ⟨refusing.resetRecent_failsWhere fits ⟨isOpen, roomy⟩ interrupted each, ?_⟩
  rw [refusing.resetRecent_recovers_iff fits ⟨isOpen, roomy⟩ interrupted each]
  exact forall₂_congr fun part _ => refusal_eq_none

/-- A removal from the database that is interrupted fails where the fault hits and where a statement
does not carry a part, if it counts up. It is completed by its repetition if and only if each part
is carried and both count up. -/
theorem IsOpen.deleteByUids_interrupted (isOpen : d.IsOpen) (roomy : 1 ≤ d.variableLimit)
    (interrupted : IsInterrupted fault uids d) (mailbox : MailboxId) :
    (d.CanCount 1 mailbox → DeleteFailsWhere fault (blocked fault d.numbersRefusal) mailbox uids d) ∧
      (DeleteRecovers fault mailbox uids d ↔ d.CarriesNumbers uids ∧ d.CanCount 2 mailbox) := by
  have refusing := deleteBatch_refusing mailbox
  have opened_same {d after : Store} (same : SameButCounters d after)
      (opened : d.IsOpen ∧ 1 ≤ d.variableLimit) : after.IsOpen ∧ 1 ≤ after.variableLimit := by
    refine ⟨opened.1.of_sameButCounters same, ?_⟩
    obtain ⟨_, _, rfl⟩ := Store.of_sameButCounters same
    exact opened.2
  have refusal_same {d after : Store} (same : SameButCounters d after) :
      after.numbersRefusal = d.numbersRefusal := by
    obtain ⟨_, _, rfl⟩ := Store.of_sameButCounters same
    rfl
  constructor
  · intro can
    obtain ⟨modSeq, start, counted⟩ := isOpen.nextModSeq_iff.mpr can
    exact refusing.deleteByUids_failsWhere ⟨isOpen, roomy⟩ opened_same refusal_same interrupted
      counted
  · rw [refusing.deleteByUids_recovers_iff ⟨isOpen, roomy⟩ opened_same refusal_same interrupted
      fun {start part} opened => ?_, isOpen.countsTwice_iff]
    · exact and_congr_left fun _ => forall₂_congr fun part _ => numbersRefusal_eq_none
    · have removed : (kept (isApart mailbox part) start).IsOpen := opened.1.after_removal
      exact removed.nextModSeq_iff.trans opened.1.nextModSeq_iff.symm

/-- A removal that cannot count up is refused as a whole. -/
theorem IsOpen.deleteByUids_stuck (isOpen : d.IsOpen) (nonempty : uids ≠ [])
    (stuck : ¬ d.CanCount 1 mailbox) :
    ∃ e after, (deleteByUids mailbox uids : Step (Interrupted Store fault) (List Metadata)) d
      = (.error (.sequenceAllocation mailbox .modSeq e), after) ∧ SameButCounters d after := by
  obtain ⟨e, after, fails, same⟩ := isOpen.nextModSeq_fails stuck
  have fails : (Storage.nextModSeq mailbox : Step (Interrupted Store fault) ModSeq) d
    = (.error (.sequenceAllocation mailbox .modSeq e), after) := fails
  refine ⟨e, after, ?_, same⟩
  unfold deleteByUids
  rw [if_neg (by rwa [List.isEmpty_iff])]
  exact Step.bind_of_error fails

end Database.Store

namespace Memory.Store

variable {m : Store} {uids : List Uid} {fault : List Uid → Option StoreError}

theorem resetRecent_recovers (on : m.available = true) (keyed : m.IsKeyed)
    (interrupted : IsInterrupted fault uids m) (mailbox : MailboxId) {modSeq : ModSeq}
    (fits : modSeq ≤ maxStored) : ResetRecovers fault mailbox modSeq uids m :=
  ((resetRecent_refusing mailbox fits).resetRecent_recovers_iff fits on interrupted fun _ =>
    uids_resetOne fun row found => congrArg Place.uid (keyed _ row found)).mpr fun _ _ => rfl

theorem countsTwice (on : m.available = true) (mailbox : MailboxId) : CountsTwice mailbox m := by
  obtain ⟨first, start, counted, on'⟩ := nextModSeq_of_available on mailbox
  obtain ⟨second, after, countedAgain, -⟩ := nextModSeq_of_available on' mailbox
  exact ⟨first, start, second, after, counted, countedAgain⟩

theorem deleteByUids_recovers (on : m.available = true) (interrupted : IsInterrupted fault uids m)
    (mailbox : MailboxId) : DeleteRecovers fault mailbox uids m := by
  refine ((deleteBatch_refusing mailbox).deleteByUids_recovers_iff on
    (deletesBatchwise mailbox).fit_same (fun _ => rfl) interrupted fun {start part} on => ?_).mpr
      ⟨fun _ _ => rfl, countsTwice on mailbox⟩
  have on' : (start.kept (isApart mailbox part)).available = true := on
  obtain ⟨n, after, counted, -⟩ := nextModSeq_of_available on mailbox
  obtain ⟨n', after', counted', -⟩ := nextModSeq_of_available on' mailbox
  exact iff_of_true ⟨n', after', counted'⟩ ⟨n, after, counted⟩

end Memory.Store

/-- A batch that fails in some of its partitions accounts for every number, and is completed by its
repetition on the numbers of these partitions. In memory this is always so. In the database the
partitions that the engine does not carry fail as well, and the batch is completed by its repetition
if and only if there are none and, for a removal, the modification sequence can be counted up twice;
if it cannot be counted up at all, a removal is refused as a whole. A reset to a modification
sequence that no store keeps is refused as a whole, too. -/
theorem partialBatches_recover (fault : List Uid → Option StoreError) (mailbox : MailboxId)
    (modSeq : ModSeq) (uids : List Uid) :
    (∀ m : Memory.Store, m.available = true → m.IsKeyed → IsInterrupted fault uids m →
      (modSeq ≤ maxStored → ResetRecovers fault mailbox modSeq uids m) ∧
        DeleteRecovers fault mailbox uids m) ∧
    (∀ d : Database.Store, d.IsOpen → 3 ≤ d.variableLimit → IsInterrupted fault uids d →
      (modSeq ≤ maxStored →
        ResetFailsWhere fault (blocked fault (d.refusal mailbox modSeq)) mailbox modSeq uids d ∧
          (ResetRecovers fault mailbox modSeq uids d ↔
            ∀ part ∈ chunks (max d.listBound 1) (sortedUids uids),
              d.Carries mailbox modSeq part)) ∧
        (d.CanCount 1 mailbox →
          DeleteFailsWhere fault (blocked fault d.numbersRefusal) mailbox uids d) ∧
        (¬ d.CanCount 1 mailbox → ∃ e after,
          (deleteByUids mailbox uids : Step (Interrupted Database.Store fault) (List Metadata)) d
              = (.error (.sequenceAllocation mailbox .modSeq e), after) ∧
            SameButCounters d after) ∧
        (DeleteRecovers fault mailbox uids d ↔ d.CarriesNumbers uids ∧ d.CanCount 2 mailbox)) ∧
    (maxStored < modSeq → ∀ {σ : Type} [Storage σ] (store : σ),
      (resetRecent mailbox uids modSeq : Step (Interrupted σ fault) RecentReset) store
        = (.error (.invalidInput (.tooGreat .modSeq modSeq)), store)) := by
  refine ⟨fun m on keyed interrupted => ⟨fun fits => ?_, ?_⟩,
    fun d isOpen roomy interrupted => ⟨fun fits => ?_, ?_, fun stuck => ?_, ?_⟩, fun great => ?_⟩
  · exact Memory.Store.resetRecent_recovers on keyed interrupted mailbox fits
  · exact Memory.Store.deleteByUids_recovers on interrupted mailbox
  · exact isOpen.resetRecent_interrupted roomy interrupted mailbox fits
  · exact (isOpen.deleteByUids_interrupted (by omega) interrupted mailbox).1
  · exact isOpen.deleteByUids_stuck interrupted.ne_nil stuck
  · exact (isOpen.deleteByUids_interrupted (by omega) interrupted mailbox).2
  · intro σ _ store
    exact congrFun (if_pos great) store

/-- A store after two messages were linked into a mailbox. -/
def withTwoMessages {σ : Type} [Storage σ] (store : σ) : σ :=
  (Service.append "inbox" { id := "m2" } .epoch
    (Service.append "inbox" { id := "m1" } .epoch store).2).2

/-- A fault that hits the partition of the second message. -/
def failsSecond (part : List Uid) : Option StoreError :=
  if part.contains 2 then some (.timeout "injected at 2") else none

theorem withTwoMessages_isOpen : (withTwoMessages (Database.Store.new "mail" 1)).IsOpen := by
  have all : ∀ entry ∈ (withTwoMessages (Database.Store.new "mail" 1)).database.messages.entries,
      entry.1.uid ≤ maxStored ∧
        (Database.readEntry (withTwoMessages (Database.Store.new "mail" 1)).database .metadata
          entry).isOk = true := by
    decide +kernel
  refine ⟨by decide +kernel, by decide +kernel, fun place row found => ?_,
    fun place row found => ?_⟩
  · exact (all _ (Table.get?_eq_some_iff.mp found)).1
  · have read := (all _ (Table.get?_eq_some_iff.mp found)).2
    cases answer : Database.readEntry (withTwoMessages (Database.Store.new "mail" 1)).database
        .metadata (place, row) with
    | ok message => exact ⟨message, rfl⟩
    | error e =>
      rw [answer] at read
      cases read

/-- With partitions of one number, the first message is reset and removed, and the second one when
that is repeated. -/
theorem partialBatches_recover_twoMessages :
    (ResetRecovers failsSecond "inbox" 7 [2, 1, 2] (withTwoMessages (Memory.Store.new 1)) ∧
      DeleteRecovers failsSecond "inbox" [2, 1, 2] (withTwoMessages (Memory.Store.new 1))) ∧
    ResetRecovers failsSecond "inbox" 7 [2, 1, 2] (withTwoMessages (Database.Store.new "mail" 1)) ∧
      DeleteRecovers failsSecond "inbox" [2, 1, 2]
        (withTwoMessages (Database.Store.new "mail" 1)) := by
  have keyed : (withTwoMessages (Memory.Store.new 1)).IsKeyed := fun place row found => by
    have all : ∀ entry ∈ (withTwoMessages (Memory.Store.new 1)).rows.entries,
        entry.2.place = entry.1 := by decide +kernel
    exact all _ (Table.get?_eq_some_iff.mp found)
  have inMemory : IsInterrupted failsSecond [2, 1, 2] (withTwoMessages (Memory.Store.new 1)) :=
    ⟨by decide +kernel, [2], by decide +kernel, rfl⟩
  have inDatabase : IsInterrupted failsSecond [2, 1, 2]
      (withTwoMessages (Database.Store.new "mail" 1)) :=
    ⟨by decide +kernel, [2], by decide +kernel, rfl⟩
  have carries : ∀ part ∈ chunks (max (withTwoMessages (Database.Store.new "mail" 1)).listBound 1)
      (sortedUids [2, 1, 2]),
      (withTwoMessages (Database.Store.new "mail" 1)).Carries "inbox" 7 part := by
    decide +kernel
  have carriesNumbers : (withTwoMessages (Database.Store.new "mail" 1)).CarriesNumbers [2, 1, 2] :=
    Database.Store.carriesNumbers_of_short (by decide +kernel) _
  have can : (withTwoMessages (Database.Store.new "mail" 1)).CanCount 2 "inbox" :=
    ⟨2, by decide +kernel, by decide, by decide⟩
  obtain ⟨memory, database, -⟩ := partialBatches_recover failsSecond "inbox" 7 [2, 1, 2]
  obtain ⟨reset, removal⟩ := memory _ (by decide +kernel) keyed inMemory
  obtain ⟨reset', -, -, removal'⟩ :=
    database _ withTwoMessages_isOpen (by decide +kernel) inDatabase
  exact ⟨⟨reset (by decide), removal⟩, (reset' (by decide)).2.mpr carries,
    removal'.mpr ⟨carriesNumbers, can⟩⟩

/-- Two messages in a mailbox whose modification sequence stands at the last number. -/
def atLastModSeq : Database.Store :=
  let d := withTwoMessages (Database.Store.new "mail" 1)
  { d with database := { d.database with
      counters := d.database.counters.insert "inbox" ⟨.integer 2, .integer maxStored⟩ } }

/-- A removal that cannot count up fails in no partition, but as a whole. So does a reset to a
modification sequence that no store keeps. -/
theorem batches_refusedWhole :
    (atLastModSeq.IsOpen ∧ IsInterrupted failsSecond [2, 1, 2] atLastModSeq ∧
      ∀ blocks, ¬ DeleteFailsWhere failsSecond blocks "inbox" [2, 1, 2] atLastModSeq) ∧
    IsInterrupted failsSecond [2, 1, 2] (withTwoMessages (Memory.Store.new 1)) ∧
      ∀ blocks, ¬ ResetFailsWhere failsSecond blocks "inbox" (maxStored + 1) [2, 1, 2]
        (withTwoMessages (Memory.Store.new 1)) := by
  have same : SameButCounters (withTwoMessages (Database.Store.new "mail" 1)) atLastModSeq := rfl
  have isOpen := withTwoMessages_isOpen.of_sameButCounters same
  refine ⟨⟨isOpen, ⟨by decide +kernel, [2], by decide +kernel, rfl⟩, ?_⟩,
    ⟨by decide +kernel, [2], by decide +kernel, rfl⟩, ?_⟩
  · rintro blocks ⟨modSeq, start, -, -, -, -, counted, -⟩
    obtain ⟨value, stands, -, fits⟩ := isOpen.nextModSeq_iff.mp ⟨modSeq, start, counted⟩
    have last : (atLastModSeq.countersOf "inbox").highestModSeq = .integer maxStored := by
      decide +kernel
    obtain rfl : (maxStored : Int) = value := Database.Counter.integer.inj (last.symm.trans stands)
    omega
  · rintro blocks ⟨report, failed, succeeded, after, failsWhere, -⟩
    cases failsWhere.fails.symm.trans (congrFun (if_pos (Nat.lt_succ_self maxStored)) _)

end Mailroom
