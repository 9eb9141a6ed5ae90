import Mailroom.Proofs.Effects
import Mailroom.Proofs.Outcomes
/-!
What the writes of a database can do, whatever stands in it.

A transaction that succeeds leaves what it computed, and one that fails leaves the database as it
was (`transaction_ok`, `transaction_error`). Recording a change counts the state of its account up,
moves the second head unless the change is delegated, and puts the record under that state
(`insertChange_ok`); the state is looked at only after that (`appendChange_ok`,
`appendChange_error`).
-/

namespace Mailroom.Database

/-- The heads of an account as they stand in the database, before its first change 0. -/
def headsRow (db : Database) (account : AccountId) : HeadsRow :=
  (db.heads.get? account).getD ⟨0, 0⟩

/-- The heads of an account after one more change. -/
def HeadsRow.next (row : HeadsRow) (delegated : Bool) : HeadsRow :=
  ⟨row.latest + 1, if delegated then row.latestNotDelegated else row.latest + 1⟩

/-- The heads of an account after those of one were stored. -/
theorem headsRow_insert {db db' : Database} {account other : AccountId} {row : HeadsRow}
    (stored : db'.heads = db.heads.insert account row) :
    db'.headsRow other = if account = other then row else db.headsRow other := by
  unfold headsRow
  rw [stored, Table.get?_insert]
  split <;> rfl

namespace Store

variable {α : Type} {d after : Store} {db db' : Database} {e : StoreError}

/-- A statement is taken that has no more parameters than the engine allows. -/
theorem bindVariables_of_le {count : Nat} (few : count ≤ d.variableLimit) :
    d.bindVariables count = .ok () := if_pos few

theorem bindVariables_of_gt {count : Nat} (many : d.variableLimit < count) :
    d.bindVariables count = .error EngineError.tooManyVariables.toStoreError :=
  if_neg (Nat.not_le.mpr many)

/-! ### Transactions -/

theorem transaction_ok {f : Store → Except StoreError (α × Database)} {a : α}
    (done : transaction f d = (.ok a, after)) :
    ∃ db, f d = .ok (a, db) ∧ after = { d with database := db } := by
  have done := Step.of_write_eq_ok done
  split at done
  · cases done
  · obtain ⟨⟨_, db⟩, committed, done⟩ := Outcomes.bind_eq_ok.mp done
    cases done
    exact ⟨db, committed, rfl⟩

/-- A transaction that succeeds was not locked out. -/
theorem unlocked_of_transaction_ok {f : Store → Except StoreError (α × Database)} {a : α}
    (done : transaction f d = (.ok a, after)) : d.lockedOut = false := by
  have done := Step.of_write_eq_ok done
  split at done
  · cases done
  · rename_i unlocked
    exact Bool.eq_false_iff.mpr unlocked

theorem transaction_of_ok {f : Store → Except StoreError (α × Database)} {a : α}
    (unlocked : d.lockedOut = false) (done : f d = .ok (a, db)) :
    transaction f d = (.ok a, { d with database := db }) := by
  unfold transaction
  apply Step.write_of_ok
  simp only [unlocked, done]
  rfl

theorem transaction_of_error {f : Store → Except StoreError (α × Database)}
    (unlocked : d.lockedOut = false) (fails : f d = .error e) :
    transaction f d = (.error e, d) := by
  unfold transaction
  apply Step.write_of_error
  simp only [unlocked, fails]
  rfl

theorem transaction_error {f : Store → Except StoreError (α × Database)}
    (fails : transaction f d = (.error e, after)) : after = d := Step.of_write_eq_error fails

/-- A transaction stays within a relation if what it computes does. -/
theorem transaction_within {R : Store → Store → Prop} (chains : Chains R)
    {f : Store → Except StoreError (α × Database)}
    (writes : ∀ {d a db}, f d = .ok (a, db) → R d { d with database := db }) :
    (transaction f).Within R := by
  intro d
  rcases done : transaction f d with ⟨e | a, after⟩
  · exact transaction_error done ▸ chains.refl d
  · obtain ⟨db, committed, rfl⟩ := transaction_ok done
    exact writes committed

/-! ### Counting up -/

/-- What counting up answers and leaves. -/
theorem allocate_eq {mailbox : MailboxId} {sequence : Sequence}
    {bump : CounterRow → Counter × CounterRow} (unlocked : d.lockedOut = false)
    (exist : requireRelations d.database [.counters] = .ok ()) :
    allocate mailbox sequence bump d
      = ((readCounter sequence (bump (d.countersOf mailbox)).1).mapError
          (.sequenceAllocation mailbox sequence),
        { d with database := { d.database with
            counters := d.database.counters.insert mailbox (bump (d.countersOf mailbox)).2 } })
    := by
  have counted := transaction_of_ok (f := fun store =>
    .ok ((bump (store.countersOf mailbox)).1, { store.database with
      counters := store.database.counters.insert mailbox
        (bump (store.countersOf mailbox)).2 })) unlocked rfl
  have relations : (query fun store => .ok (requireRelations store.database [.counters])) d
      = (.ok (.ok ()), d) := by
    show (Except.ok (requireRelations d.database [.counters]), d) = _
    rw [exist]
  unfold allocate Step.mapError
  rw [Step.bind_of_ok relations, Step.check_ok_bind, Step.bind_of_ok counted]
  unfold Step.check
  cases readCounter sequence (bump (d.countersOf mailbox)).1 <;> rfl

/-- Counting up answers the number that the counter gives out once it is counted up. -/
theorem allocate_ok {mailbox : MailboxId} {sequence : Sequence}
    {bump : CounterRow → Counter × CounterRow} {n : Nat}
    (done : allocate mailbox sequence bump d = (.ok n, after)) :
    d.lockedOut = false ∧ readCounter sequence (bump (d.countersOf mailbox)).1 = .ok n ∧
      after = { d with database := { d.database with
        counters := d.database.counters.insert mailbox (bump (d.countersOf mailbox)).2 } } := by
  unfold allocate Step.mapError at done
  split at done
  · rename_i steps
    cases done
    obtain ⟨_, _, first, steps⟩ := Step.of_bind_eq_ok steps
    cases first
    obtain ⟨_, _, second, steps⟩ := Step.of_bind_eq_ok steps
    obtain ⟨-, rfl⟩ := Prod.mk.inj second
    obtain ⟨value, _, third, last⟩ := Step.of_bind_eq_ok steps
    have unlocked := unlocked_of_transaction_ok third
    obtain ⟨_, counted, rfl⟩ := transaction_ok third
    cases counted
    obtain ⟨read, rfl⟩ := Prod.mk.inj last
    exact ⟨unlocked, read, rfl⟩
  · cases done

theorem countersOf_insert {mailbox other : MailboxId} {row : CounterRow} :
    ({ d with database := { d.database with
        counters := d.database.counters.insert mailbox row } } : Store).countersOf other
      = if mailbox = other then row else d.countersOf other := by
  unfold Store.countersOf
  rw [Table.get?_insert]
  split <;> rfl

/-! ### Recording changes -/

theorem advanceHeads_ok {account : AccountId} {delegated : Bool} {state : Int}
    (done : advanceHeads db account delegated = .ok (state, db')) :
    state = (db.headsRow account).latest + 1 ∧
      db' = { db with
        heads := db.heads.insert account ((db.headsRow account).next delegated) } := by
  unfold advanceHeads at done
  obtain ⟨_, -, done⟩ := Outcomes.bind_eq_ok.mp done
  unfold headsRow
  cases found : db.heads.get? account with
  | none =>
    rw [found] at done
    cases done
    exact ⟨rfl, rfl⟩
  | some row =>
    rw [found] at done
    by_cases last : (maxStored : Int) ≤ row.latest
    · simp only [if_pos last] at done
      cases done
    · simp only [if_neg last] at done
      cases done
      exact ⟨rfl, rfl⟩

theorem insertChange_ok {draft : ChangeDraft} {expiresAt : Option Instant} {state : Int}
    (done : insertChange draft expiresAt db = .ok (state, db')) :
    state = (db.headsRow draft.account).latest + 1 ∧
      db' = { db with
        heads := db.heads.insert draft.account
          ((db.headsRow draft.account).next draft.isDelegated)
        changes := db.changes.insert ⟨draft.account, .integer state⟩
          (.ofDraft draft expiresAt) } := by
  obtain ⟨⟨_, advanced⟩, first, done⟩ := Outcomes.bind_eq_ok.mp done
  obtain ⟨_, -, done⟩ := Outcomes.bind_eq_ok.mp done
  obtain ⟨given, rfl⟩ := advanceHeads_ok first
  simp only at done
  split at done
  · cases done
  · cases done
    exact ⟨given, rfl⟩

theorem readState_ok {value : Int} {state : State} (done : readState value = .ok state) :
    value = state := by
  cases value <;> cases done
  rfl

/-- A change that was recorded has the next state, and that is not below the initial one. -/
theorem appendChange_ok {draft : ChangeDraft} {expiresAt : Option Instant} {record : ChangeRecord}
    (done : appendChange draft expiresAt d = (.ok record, after)) :
    ∃ db, insertChange draft expiresAt d.database = .ok ((record.state : Int), db) ∧
      record = draft.record record.state ∧ after = { d with database := db } := by
  obtain ⟨state, middle, first, done⟩ := Step.of_bind_eq_ok done
  obtain ⟨db, inserted, rfl⟩ := transaction_ok first
  cases read : readState state with
  | error e =>
    rw [read] at done
    cases done
  | ok given =>
    rw [read] at done
    cases done
    exact ⟨db, readState_ok read ▸ inserted, rfl, rfl⟩

/-- A change whose recording failed has left nothing behind, or its state is negative. -/
theorem appendChange_error {draft : ChangeDraft} {expiresAt : Option Instant}
    (fails : appendChange draft expiresAt d = (.error e, after)) :
    after = d ∨ ∃ state db, insertChange draft expiresAt d.database = .ok (state, db) ∧
      state < 0 ∧ after = { d with database := db } := by
  rcases first : transaction (fun store => insertChange draft expiresAt store.database) d with
    ⟨e' | state, middle⟩
  · have fails := (Step.bind_of_error first).symm.trans fails
    cases fails
    exact .inl (transaction_error first)
  · have fails := (Step.bind_of_ok first).symm.trans fails
    obtain ⟨db, inserted, rfl⟩ := transaction_ok first
    refine .inr ⟨state, db, inserted, ?_⟩
    cases state with
    | ofNat given => cases fails
    | negSucc given =>
      cases fails
      exact ⟨Int.negSucc_lt_zero given, rfl⟩

end Store

end Mailroom.Database
