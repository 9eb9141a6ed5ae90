import Mailroom.Proofs.Mirror.Calls
import Mailroom.Proofs.Statements.Limits
/-!
Runs of calls on messages, in memory and in the database.

`Admissible` says of each call of a run that it is admissible where it comes to be executed. From
empty stores such a run answers alike in both as long as no counter runs over (`runs_agree`). Other
runs can tell the stores apart: by a date that is not read back as it is, and by a list that alone
has as many numbers as a statement takes variables (`runs_differ`).
-/

namespace Mailroom

namespace Mirror

open Memory Service

variable {log : Log} {m : Memory.Store} {d : Database.Store}

/-- Each call of a run is admissible where it comes to be executed. -/
def Admissible (policy : Policy) : List Call → Memory.Store → Prop
  | [], _ => True
  | call :: rest, m => Call.IsAdmissible m call ∧ Admissible policy rest (call.run policy m).2

/-- Related stores give the same answers over a run. -/
theorem runAll_agree (mirrors : Mirrors True log m d) (policy : Policy) {calls : List Call}
    (admissible : Admissible policy calls m) (fit : CountersFit (Call.runAll policy calls m).2) :
    (Call.runAll policy calls d).1 = (Call.runAll policy calls m).1 ∧
      Mirrors True log (Call.runAll policy calls m).2 (Call.runAll policy calls d).2 := by
  induction calls generalizing m d with
  | nil => exact ⟨rfl, mirrors⟩
  | cons call rest ih =>
    have rises : CountersRise (call.run policy m).2 (Call.runAll policy rest _).2 :=
      Call.runAll_within countersRise_chains writes_countersRise policy
        (fun _ _ => trivial) _
    obtain ⟨answer, after⟩ := run_agrees mirrors policy admissible.1 (fit.of_rise rises)
    obtain ⟨answers, last⟩ := ih after admissible.2 fit
    refine ⟨?_, last⟩
    show (⟨call, (call.run policy d).1⟩ :: (Call.runAll policy rest (call.run policy d).2).1 :
      List ((call : Call) × Except StoreError call.Answer)) = _
    rw [answer, answers]
    rfl

/-- A run of calls on messages cannot tell a store in memory from one in a database: from empty
stores, with the same clock, every call of the run has the same answer in both. -/
theorem runs_agree (policy : Policy) (path : String) (listBound : Nat) {calls : List Call}
    (admissible : Admissible policy calls (.new listBound))
    (fit : CountersFit (Call.runAll policy calls (Memory.Store.new listBound)).2) :
    (Call.runAll policy calls (Database.Store.new path listBound)).1
      = (Call.runAll policy calls (Memory.Store.new listBound)).1 :=
  (runAll_agree (mirrors_new True path listBound) policy admissible fit).1

/-- A run over two mailboxes that share a message: keywords are edited under a condition that holds
and one that does not, a reset takes two partitions and names a number without a row, and rows are
removed. -/
def sharedMessageRun : List Call :=
  [.append "inbox" { id := "m1", content := [1, 2], flags.recent := true } .epoch,
    .append "inbox" { id := "m2", internalDate := some .epoch, flags.recent := true } .epoch,
    .append "archive" { id := "m1", content := [3] } .epoch,
    .applyFlags "inbox" 1 ⟨{ keywords := .ofList ["urgent", "later"] }, .add⟩ (some 1),
    .applyFlags "inbox" 2 ⟨{ seen := true }, .replace⟩ (some (maxWord)),
    .nextModSeq "inbox",
    .resetRecent "inbox" [7, 2, 1, maxWord] 5,
    .scan { mailbox := "inbox" } .full,
    .deleteByUids "inbox" [2],
    .deleteMailbox "inbox",
    .deleteMessage "m1",
    .counts "archive"]

theorem runs_agree_sharedMessageRun :
    Admissible ⟨1, none⟩ sharedMessageRun (.new 2) ∧
      CountersFit (Call.runAll ⟨1, none⟩ sharedMessageRun (Memory.Store.new 2)).2 ∧
      (Call.runAll ⟨1, none⟩ sharedMessageRun (Database.Store.new "mail" 2)).1
        = (Call.runAll ⟨1, none⟩ sharedMessageRun (Memory.Store.new 2)).1 := by
  have admissible : Admissible ⟨1, none⟩ sharedMessageRun (.new 2) := by
    refine ⟨?_, ?_, ?_, trivial, trivial, trivial, ?_, trivial, ?_, ?_, trivial, trivial, trivial⟩
    · exact ⟨by decide, by simp⟩
    · exact ⟨by decide, by simp; decide⟩
    · exact ⟨by decide, by simp⟩
    · show min _ _ + 3 ≤ 32766
      decide
    · show min _ _ + 1 ≤ 32766
      decide
    · show NameSet.size _ ≤ 32766
      decide +kernel
  have fit : CountersFit (Call.runAll ⟨1, none⟩ sharedMessageRun (Memory.Store.new 2)).2 := by
    decide +kernel
  exact ⟨admissible, fit, runs_agree ⟨1, none⟩ "mail" 2 admissible fit⟩

/-- An append that is dated to a leap second within a minute, and a read of its row. -/
def strayLeapRun : List Call :=
  [.append "inbox" { id := "m1", internalDate := some .strayLeap } .epoch,
    .find "inbox" 1 .metadata]

/-- The dates of the rows that the calls of a run found. -/
def datesFound {σ : Type} [Storage σ] (calls : List Call) (store : σ) : List (Option Instant) :=
  (Call.runAll ⟨1, none⟩ calls store).1.map fun
    | ⟨.find .., .ok (some row)⟩ => some row.internalDate
    | _ => none

/-- In an empty store in memory, no number is found. -/
theorem findByUids_new {listBound : Nat} {uids : List Uid} {fetch : Fetch}
    (ascending : uids.Pairwise (· < ·)) (some : uids ≠ []) (few : uids.length ≤ listBound) :
    (findByUids "inbox" uids fetch (Memory.Store.new listBound)).1 = .ok [] := by
  have whole : uids.length ≤ max (Storage.listBound (Memory.Store.new listBound)) 1 :=
    Nat.le_trans few (Nat.le_trans (Nat.le_max_left ..) (Nat.le_max_left ..))
  simp only [findByUids, partitioned, sortedUids_of_ascending ascending]
  rw [runPartitioned_single some whole]
  rfl

/-- Where two runs tell the stores apart: the years of all dates have four digits, but the database
does not find the date that was appended; and a list that is no longer than the variables of a
statement may be, but leaves none for the mailbox, is refused by the database only. -/
theorem runs_differ :
    (Instant.strayLeap.HasPlainYear ∧
      datesFound strayLeapRun (Database.Store.new "mail" 1)
        = [none, some Instant.strayLeap.asWritten] ∧
      datesFound strayLeapRun (Memory.Store.new 1) = [none, some Instant.strayLeap] ∧
      (Call.runAll ⟨1, none⟩ strayLeapRun (Database.Store.new "mail" 1)).1
        ≠ (Call.runAll ⟨1, none⟩ strayLeapRun (Memory.Store.new 1)).1) ∧
    (List.range' 1 maxVariables).length ≤ maxVariables ∧
      (findByUids "inbox" (List.range' 1 maxVariables) .metadata
          (Database.Store.new "mail" maxVariables)).1
        = .error Database.EngineError.tooManyVariables.toStoreError ∧
      (findByUids "inbox" (List.range' 1 maxVariables) .metadata
          (Memory.Store.new maxVariables)).1 = .ok [] := by
  have written : datesFound strayLeapRun (Database.Store.new "mail" 1)
      = [none, some Instant.strayLeap.asWritten] := by decide +kernel
  have kept : datesFound strayLeapRun (Memory.Store.new 1)
      = [none, some Instant.strayLeap] := by decide +kernel
  have length : (List.range' 1 maxVariables).length = maxVariables := List.length_range'
  have ascending : (List.range' 1 maxVariables).Pairwise (· < ·) := List.pairwise_lt_range' ..
  have stored (uid : Uid) (member : uid ∈ List.range' 1 maxVariables) : uid ≤ maxStored := by
    have below : uid < 1 + maxVariables := (List.mem_range'_1.mp member).2
    exact Nat.le_trans (Nat.le_of_lt below) (by decide)
  have some_uids : List.range' 1 maxVariables ≠ [] := by
    rw [Ne, ← List.length_eq_zero_iff, length]
    decide
  refine ⟨⟨by decide, written, kept, fun same => ?_⟩, Nat.le_of_eq length, ?_, ?_⟩
  · have found : datesFound strayLeapRun (Database.Store.new "mail" 1)
        = datesFound strayLeapRun (Memory.Store.new 1) := congrArg (List.map _) same
    rw [written, kept] at found
    exact absurd found (by decide)
  · have refused : (Call.findByUids "inbox" (List.range' 1 maxVariables) .metadata).run ⟨1, none⟩
        (Database.Store.new "mail" maxVariables) = _ :=
      Database.findByUids_refused ascending stored (Nat.le_of_eq length) (Nat.le_of_eq length.symm)
        some_uids
    exact congrArg Prod.fst refused
  · exact findByUids_new ascending some_uids (Nat.le_of_eq length)

end Mirror

end Mailroom
