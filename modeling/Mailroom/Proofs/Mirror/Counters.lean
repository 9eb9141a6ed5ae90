import Mailroom.Proofs.Memory.Counters
import Mailroom.Proofs.Mirror.Relation
/-!
Counting up in memory and in the database.

A counter gives out the same numbers in both, up to the last one that a store can keep
(`nextUid_agrees`, `nextModSeq_agrees`). After that one the database refuses, and its counter stays
where it is in memory (`nextUid_follows`, `nextModSeq_follows`).
-/

namespace Mailroom.Mirror

open Database (Counter CounterRow)
open Memory (countersOf_insert)

variable {regular : Prop} {log : Log} {m : Memory.Store} {d : Database.Store} {mailbox : MailboxId}

/-- A counter below the last number counts up. -/
theorem StandsAt.bump_of_lt {counter : Counter} {n : Nat} (stands : StandsAt regular counter n)
    (fits : n < maxStored) : counter.bump = .integer (n + 1 : Nat) := by
  rcases stands with ⟨rfl, _⟩ | ⟨_, _, last⟩
  · show (if (n : Int) < maxStored then Counter.integer (n + 1) else .overflowed) = _
    rw [if_pos (Int.ofNat_lt.mpr fits)]
    rfl
  · exact absurd last (Nat.ne_of_lt fits)

/-- A counter at the last number runs over. -/
theorem StandsAt.bump_of_eq {counter : Counter} {n : Nat} (stands : StandsAt regular counter n)
    (last : n = maxStored) : counter.bump = .overflowed := by
  rcases stands with ⟨rfl, _⟩ | ⟨_, rfl, _⟩
  · show (if (n : Int) < maxStored then Counter.integer (n + 1) else .overflowed) = _
    rw [last, if_neg (Int.lt_irrefl _)]
  · rfl

theorem StandsAt.le {counter : Counter} {n : Nat} (stands : StandsAt regular counter n) :
    n ≤ maxStored := by
  rcases stands with ⟨_, fits⟩ | ⟨_, _, last⟩
  · exact fits
  · exact Nat.le_of_eq last

theorem StandsAt.of_le {n : Nat} (fits : n ≤ maxStored) : StandsAt regular (.integer n) n :=
  .inl ⟨rfl, fits⟩

theorem StandsAt.overflowed {n : Nat} (last : n = maxStored) : StandsAt False .overflowed n :=
  .inr ⟨not_false, rfl, last⟩

namespace Mirrors

/-- Counters may be stored that stand alike. -/
theorem setCounters (mirrors : Mirrors regular log m d) {counters : Memory.Counters}
    {row : CounterRow} (lastUid : StandsAt regular row.lastUid counters.lastUid)
    (highestModSeq : StandsAt regular row.highestModSeq counters.highestModSeq) :
    Mirrors regular log { m with counters := m.counters.insert mailbox counters }
      { d with database := { d.database with
          counters := d.database.counters.insert mailbox row } } :=
  { mirrors with
    lastUid := fun other => by
      rw [countersOf_insert, Database.Store.countersOf_insert]
      split
      · exact lastUid
      · exact mirrors.lastUid other
    highestModSeq := fun other => by
      rw [countersOf_insert, Database.Store.countersOf_insert]
      split
      · exact highestModSeq
      · exact mirrors.highestModSeq other }

/-- Storing the counters that a mailbox has changes none. -/
theorem keepCounters (mirrors : Mirrors regular log m d) {row : CounterRow}
    (lastUid : StandsAt regular row.lastUid (m.countersOf mailbox).lastUid)
    (highestModSeq : StandsAt regular row.highestModSeq (m.countersOf mailbox).highestModSeq) :
    Mirrors regular log m { d with database := { d.database with
      counters := d.database.counters.insert mailbox row } } :=
  { mirrors with
    lastUid := fun other => by
      rw [Database.Store.countersOf_insert]
      split
      · rename_i same
        exact same ▸ lastUid
      · exact mirrors.lastUid other
    highestModSeq := fun other => by
      rw [Database.Store.countersOf_insert]
      split
      · rename_i same
        exact same ▸ highestModSeq
      · exact mirrors.highestModSeq other }

variable {sequence : Sequence} {bump : Memory.Counters → Nat × Memory.Counters}
  {bumpRow : CounterRow → Counter × CounterRow}

/-- What counting up in the database answers and leaves. -/
theorem allocate_eq (mirrors : Mirrors regular log m d) :
    Database.Store.allocate mailbox sequence bumpRow d
      = ((Database.Store.readCounter sequence (bumpRow (d.countersOf mailbox)).1).mapError
          (.sequenceAllocation mailbox sequence),
        { d with database := { d.database with
          counters := d.database.counters.insert mailbox (bumpRow (d.countersOf mailbox)).2 } }) :=
  Database.Store.allocate_eq mirrors.unlocked (mirrors.requireRelations _)

theorem allocate_memory (mirrors : Mirrors regular log m d) :
    Memory.Store.allocate mailbox sequence bump m
      = .ok ((bump (m.countersOf mailbox)).1, { m with
          counters := m.counters.insert mailbox (bump (m.countersOf mailbox)).2 }) := by
  unfold Memory.Store.allocate
  rw [mirrors.ensureAvailable]

/-- Counters that give out the same number agree. -/
theorem allocate_agrees (mirrors : Mirrors regular log m d)
    (value : (bumpRow (d.countersOf mailbox)).1 = .integer (bump (m.countersOf mailbox)).1)
    (lastUid : StandsAt regular (bumpRow (d.countersOf mailbox)).2.lastUid
      (bump (m.countersOf mailbox)).2.lastUid)
    (highestModSeq : StandsAt regular (bumpRow (d.countersOf mailbox)).2.highestModSeq
      (bump (m.countersOf mailbox)).2.highestModSeq) :
    Agrees regular log (.write (Memory.Store.allocate mailbox sequence bump))
      (Database.Store.allocate mailbox sequence bumpRow) m d := by
  refine ⟨?_, ?_⟩
  · rw [mirrors.allocate_eq, Step.write_of_ok mirrors.allocate_memory, value]
    rfl
  · rw [mirrors.allocate_eq, Step.write_of_ok mirrors.allocate_memory]
    exact mirrors.setCounters lastUid highestModSeq

/-- A counter that runs over is refused, and stands where it stood. -/
theorem allocate_refused (mirrors : Mirrors False log m d)
    (value : (bumpRow (d.countersOf mailbox)).1 = .overflowed)
    (lastUid : StandsAt False (bumpRow (d.countersOf mailbox)).2.lastUid
      (m.countersOf mailbox).lastUid)
    (highestModSeq : StandsAt False (bumpRow (d.countersOf mailbox)).2.highestModSeq
      (m.countersOf mailbox).highestModSeq) :
    Follows False log (.write (Memory.Store.allocate mailbox sequence bump))
      (Database.Store.allocate mailbox sequence bumpRow) m d := by
  refine .inr ⟨.sequenceAllocation mailbox sequence Database.EngineError.columnType.toStoreError,
    ?_, ?_⟩
  · rw [mirrors.allocate_eq, value]
    rfl
  · rw [mirrors.allocate_eq]
    exact mirrors.keepCounters lastUid highestModSeq

theorem nextUid_agrees (mirrors : Mirrors regular log m d)
    (fits : (m.countersOf mailbox).lastUid < maxStored) :
    Agrees regular log (Storage.nextUid mailbox) (Storage.nextUid mailbox) m d := by
  have bumped := (mirrors.lastUid mailbox).bump_of_lt fits
  show Agrees regular log (.write (Memory.Store.nextUid mailbox))
    (Database.Store.nextUid mailbox) m d
  unfold Memory.Store.nextUid Database.Store.nextUid
  refine mirrors.allocate_agrees ?_ ?_ ?_
  · exact bumped
  · rw [bumped]
    exact .of_le fits
  · exact mirrors.highestModSeq mailbox

theorem nextModSeq_agrees (mirrors : Mirrors regular log m d)
    (fits : (m.countersOf mailbox).highestModSeq < maxStored) :
    Agrees regular log (Storage.nextModSeq mailbox) (Storage.nextModSeq mailbox) m d := by
  have bumped := (mirrors.highestModSeq mailbox).bump_of_lt fits
  show Agrees regular log (.write (Memory.Store.nextModSeq mailbox))
    (Database.Store.nextModSeq mailbox) m d
  unfold Memory.Store.nextModSeq Database.Store.nextModSeq
  refine mirrors.allocate_agrees ?_ ?_ ?_
  · exact bumped
  · exact mirrors.lastUid mailbox
  · rw [bumped]
    exact .of_le fits

theorem nextUid_follows (mirrors : Mirrors False log m d) (mailbox : MailboxId) :
    Follows False log (Storage.nextUid mailbox) (Storage.nextUid mailbox) m d := by
  rcases Nat.lt_or_eq_of_le (mirrors.lastUid mailbox).le with fits | last
  · exact .inl (mirrors.nextUid_agrees fits)
  · have bumped := (mirrors.lastUid mailbox).bump_of_eq last
    show Follows False log (.write (Memory.Store.nextUid mailbox))
      (Database.Store.nextUid mailbox) m d
    unfold Memory.Store.nextUid Database.Store.nextUid
    refine mirrors.allocate_refused ?_ ?_ ?_
    · exact bumped
    · rw [bumped]
      exact .overflowed last
    · exact mirrors.highestModSeq mailbox

theorem nextModSeq_follows (mirrors : Mirrors False log m d) (mailbox : MailboxId) :
    Follows False log (Storage.nextModSeq mailbox) (Storage.nextModSeq mailbox) m d := by
  rcases Nat.lt_or_eq_of_le (mirrors.highestModSeq mailbox).le with fits | last
  · exact .inl (mirrors.nextModSeq_agrees fits)
  · have bumped := (mirrors.highestModSeq mailbox).bump_of_eq last
    show Follows False log (.write (Memory.Store.nextModSeq mailbox))
      (Database.Store.nextModSeq mailbox) m d
    unfold Memory.Store.nextModSeq Database.Store.nextModSeq
    refine mirrors.allocate_refused ?_ ?_ ?_
    · exact bumped
    · exact mirrors.lastUid mailbox
    · rw [bumped]
      exact .overflowed last

end Mirrors

end Mailroom.Mirror
