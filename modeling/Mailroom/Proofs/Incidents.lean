import Mailroom.Database.File
import Mailroom.Proofs.Memory.Views
import Mailroom.Proofs.Mirror.Views
/-!
What happens to a store beside the calls that are made on it.

A store in memory is switched off and on, and a database is reopened or locked by another
connection: these are its incidents. A store that is out of service refuses every write and stays as
it is. So its rows and counters are as they were when it is back in service (`Steadfast`).
-/

namespace Mailroom

open Service

/-- A store to which incidents happen. -/
class Exposed (σ : Type) (ι : outParam Type) where
  befall : ι → σ → σ

export Exposed (befall)

/-- A call under a policy, or an incident. -/
inductive Happening (ι : Type) where
  | made (policy : Policy) (call : Call)
  | suffered (incident : ι)

/-- What happens to a store, one after another, and the answers to the calls. -/
def Happening.runAll {σ ι : Type} [Storage σ] [Exposed σ ι] :
    List (Happening ι) → σ → List ((call : Call) × Except StoreError call.Answer) × σ
  | [], store => ([], store)
  | .made policy call :: rest, store =>
    let (answer, store) := call.run policy store
    let (answers, store) := runAll rest store
    (⟨call, answer⟩ :: answers, store)
  | .suffered incident :: rest, store => runAll rest (befall incident store)

/-- Nothing is done to a store that is out of service. -/
def StaysShut {σ : Type} (isOpen : σ → Prop) (store after : σ) : Prop :=
  ¬ isOpen store → after = store

theorem staysShut_chains {σ : Type} (isOpen : σ → Prop) : Chains (StaysShut isOpen) where
  refl _ _ := rfl
  trans first second shut := by
    have same := first shut
    subst same
    exact second shut

open Revised in
/-- A store that keeps its rows and counters whatever happens to it. -/
class Steadfast (σ : Type) [Storage σ] [Sound σ] [Revised σ] where
  /-- The store is sound, as soon as it is in service. -/
  isKept : σ → Prop
  /-- The store is in service. -/
  isOpen : σ → Prop
  sound : ∀ store, isKept store → isOpen store → isSound store
  kept : Operations σ fun store after => isKept store → isKept after
  shut : Operations σ (StaysShut isOpen)
  /-- A number is refused as a number, in service or not. -/
  nextUid_error : ∀ mailbox (store : σ) e, (Storage.nextUid mailbox store).1 = .error e →
    ∃ cause, e = .sequenceAllocation mailbox .uid cause
  nextModSeq_error : ∀ mailbox (store : σ) e, (Storage.nextModSeq mailbox store).1 = .error e →
    ∃ cause, e = .sequenceAllocation mailbox .modSeq cause
  nextUid_open : ∀ mailbox (store : σ) uid after,
    Storage.nextUid mailbox store = (.ok uid, after) → isOpen store
  nextModSeq_open : ∀ mailbox (store : σ) modSeq after,
    Storage.nextModSeq mailbox store = (.ok modSeq, after) → isOpen store
  /-- The places of the rows. -/
  places : σ → List Place
  revisionAt_place : ∀ store, isKept store → ∀ place ∈ places store,
    ∃ r, (view store).revisionAt place = some r

namespace Steadfast

open Revised View

variable {σ : Type} [Storage σ] [Sound σ] [Revised σ] [Steadfast σ] {store : σ}

/-- Row numbers are counted up, or refused and nothing is changed. -/
theorem nextUid_counts (mailbox : MailboxId) (before : isKept store) :
    CountsUid mailbox (view store) (Storage.nextUid mailbox store).1
      (view (Storage.nextUid mailbox store).2) := by
  by_cases opened : isOpen store
  · exact (nextUid mailbox store (sound store before opened)).2
  · have same := shut.nextUid mailbox store opened
    rcases done : (Storage.nextUid mailbox : Step σ Uid) store with ⟨_ | uid, after⟩
    · rw [done] at same
      exact congrArg view same
    · exact absurd (nextUid_open mailbox store uid after done) opened

/-- Modification sequences are counted up, or refused and nothing is changed. -/
theorem nextModSeq_counts (mailbox : MailboxId) (before : isKept store) :
    CountsModSeq mailbox (view store) (Storage.nextModSeq mailbox store).1
      (view (Storage.nextModSeq mailbox store).2) := by
  by_cases opened : isOpen store
  · exact (nextModSeq mailbox store (sound store before opened)).2
  · have same := shut.nextModSeq mailbox store opened
    rcases done : (Storage.nextModSeq mailbox : Step σ ModSeq) store with ⟨_ | modSeq, after⟩
    · rw [done] at same
      exact congrArg view same
    · exact absurd (nextModSeq_open mailbox store modSeq after done) opened

end Steadfast

open Revised in
/-- Incidents change no row and no counter. -/
class Withstands (σ : Type) {ι : Type} [Storage σ] [Sound σ] [Revised σ] [Steadfast σ]
    [Exposed σ ι] : Prop where
  befall : ∀ incident (store : σ), Steadfast.isKept store →
    Steadfast.isKept (befall incident store) ∧ view (befall incident store) = view store

/-! ### In memory -/

namespace Memory

/-- A store in memory is switched on or off. -/
inductive Incident where
  | switch (available : Bool)

/-- What an incident makes of a store. -/
def Incident.befall : Incident → Store → Store
  | .switch available, store => { store with available }

instance : Exposed Store Incident := ⟨Incident.befall⟩

namespace Store

/-- The store is switched on. -/
def IsOn (m : Store) : Prop := m.available = true

/-- A write that needs the store to be switched on. -/
theorem staysShut_write {α : Type} {f : Store → Except StoreError (α × Store)}
    (needs : ∀ {m a after}, f m = .ok (a, after) → m.IsOn) :
    (Step.write f).Within (StaysShut IsOn) :=
  .write (staysShut_chains IsOn) fun done shut => absurd (needs done) shut

theorem available_of_bind {m : Store} {α : Type} {next : Unit → Except StoreError α} {a : α}
    (done : (m.ensureAvailable >>= next) = .ok a) : m.IsOn := by
  obtain ⟨_, on, -⟩ := Outcomes.bind_eq_ok.mp done
  exact ensureAvailable_ok.mp on

theorem available_of_allocate {m after : Store} {mailbox : MailboxId} {sequence : Sequence}
    {bump : Counters → Nat × Counters} {n : Nat}
    (done : allocate mailbox sequence bump m = .ok (n, after)) : m.IsOn := by
  unfold allocate at done
  split at done
  · cases done
  · rename_i on
    exact ensureAvailable_ok.mp on

/-- While it is switched off, a store stays as it is. -/
theorem operations_stayShut : Operations Store (StaysShut IsOn) where
  nextUid _ := staysShut_write available_of_allocate
  nextModSeq _ := staysShut_write available_of_allocate
  insert _ := staysShut_write fun done => by
    obtain ⟨_, -, done⟩ := Outcomes.bind_eq_ok.mp done
    obtain ⟨_, -, done⟩ := Outcomes.bind_eq_ok.mp done
    obtain ⟨_, -, done⟩ := Outcomes.bind_eq_ok.mp done
    exact available_of_bind done
  updateFlags _ _ _ _ _ := staysShut_write fun done => by
    obtain ⟨_, -, done⟩ := Outcomes.bind_eq_ok.mp done
    exact available_of_bind done
  resetRecent _ _ _ _ _ := staysShut_write fun done => by
    obtain ⟨_, -, done⟩ := Outcomes.bind_eq_ok.mp done
    exact available_of_bind done
  deleteBatch _ _ _ := staysShut_write available_of_bind
  deleteMailbox _ := staysShut_write available_of_bind
  deleteMessage _ := staysShut_write available_of_bind
  appendChange _ _ := staysShut_write available_of_bind
  purgeExpired _ := staysShut_write available_of_bind

theorem allocate_error {m : Store} {mailbox : MailboxId} {sequence : Sequence}
    {bump : Counters → Nat × Counters} {e : StoreError}
    (fails : (Step.write (allocate mailbox sequence bump) m).1 = .error e) :
    ∃ cause, e = .sequenceAllocation mailbox sequence cause := by
  unfold Step.write allocate at fails
  cases on : m.ensureAvailable with
  | error cause =>
    rw [on] at fails
    cases fails
    exact ⟨cause, rfl⟩
  | ok _ =>
    rw [on] at fails
    cases fails

/-- A sound store is sound when it is switched on, for it is. -/
theorem IsSound.switched {m : Store} (sound : m.IsSound) :
    IsSound { m with available := true } := ⟨rfl, sound.records⟩

instance : Steadfast Store where
  isKept m := IsSound { m with available := true }
  isOpen := IsOn
  sound m kept on := ⟨on, kept.records⟩
  kept := Revised.operations_sound.both operations_stayShut fun {m _} sound stays kept => by
    by_cases on : m.IsOn
    · exact IsSound.switched (sound ⟨on, kept.records⟩)
    · rw [stays on]
      exact kept
  shut := operations_stayShut
  nextUid_error _ _ _ := allocate_error
  nextModSeq_error _ _ _ := allocate_error
  nextUid_open _ _ _ _ done := available_of_allocate (Step.of_write_eq_ok done)
  nextModSeq_open _ _ _ _ done := available_of_allocate (Step.of_write_eq_ok done)
  places m := m.rows.entries.map Prod.fst
  revisionAt_place m _ place listed := by
    obtain ⟨⟨_, row⟩, member, rfl⟩ := List.mem_map.mp listed
    refine ⟨⟨row.modSeq, row.flags⟩, ?_⟩
    show (m.rows.get? _).map _ = some _
    rw [Table.get?_eq_some_iff.mpr member]
    rfl

instance : Withstands Store := ⟨fun | .switch _, _, kept => ⟨kept, rfl⟩⟩

end Store

end Memory

/-! ### In the database -/

namespace Database

/-- A database is reopened, or another connection takes or gives back the write lock. A database
that cannot be reopened is left open. -/
inductive Incident where
  | reopen
  | lock (held : Bool)

/-- What an incident makes of a store. -/
def Incident.befall : Incident → Store → Store
  | .reopen, store =>
    match store.reopen with
    | .ok reopened => reopened
    | .error _ => store
  | .lock held, store => { store with lockedOut := held }

instance : Exposed Store Incident := ⟨Incident.befall⟩

namespace Store

section Transactions

variable {α : Type} {R : Store → Store → Prop} (chains : Chains R)

include chains

/-- Counting up stays within a relation if the transaction in it does. -/
theorem allocate_within {mailbox : MailboxId} {sequence : Sequence}
    {bump : CounterRow → Counter × CounterRow}
    (counts : (transaction fun store => .ok ((bump (store.countersOf mailbox)).1,
      { store.database with counters :=
          store.database.counters.insert mailbox (bump (store.countersOf mailbox)).2 })).Within R) :
    (allocate mailbox sequence bump).Within R := by
  refine .mapError <| .bind chains (.of_pure chains fun _ => rfl) fun _ => ?_
  refine .bind chains (.check chains _) fun _ => ?_
  exact .bind chains counts fun _ => .check chains _

variable (transactions : ∀ {α : Type} (f : Store → Except StoreError (α × Database)),
    (transaction f).Within R)
  (compiles : ∀ reached, (compileKeyword reached).Within R)

include transactions compiles

/-- Every operation is made of transactions, and of statements that are compiled. -/
theorem operations_within : Operations Store R where
  nextUid mailbox := by
    show (Database.Store.nextUid mailbox).Within R
    exact allocate_within chains (transactions _)
  nextModSeq mailbox := by
    show (Database.Store.nextModSeq mailbox).Within R
    exact allocate_within chains (transactions _)
  insert message := by
    refine .bind chains (.check chains _) fun _ => ?_
    refine .bind chains (.check chains _) fun _ => ?_
    exact .bind chains (compiles _) fun _ => transactions _
  updateFlags _ _ _ _ _ := by
    refine .bind chains (.check chains _) fun _ => ?_
    split
    · exact .fail chains _
    · exact .bind chains (compiles _) fun _ => transactions _
  resetRecent mailbox uids modSeq _ _ := by
    show (Database.Store.resetRecent mailbox uids modSeq).Within R
    unfold Database.Store.resetRecent
    split
    · exact .pure chains _
    · exact .bind chains (.check chains _) fun _ => transactions _
  deleteBatch mailbox uids _ := by
    show (Database.Store.deleteBatch mailbox uids).Within R
    unfold Database.Store.deleteBatch
    simp only
    split
    · exact .pure chains _
    · exact transactions _
  deleteMailbox _ := transactions _
  deleteMessage _ := transactions _
  appendChange _ _ := .bind chains (transactions _) fun _ =>
    .bind chains (.check chains _) fun _ => .pure chains _
  purgeExpired _ := .bind chains (.of_pure chains fun _ => rfl) fun _ => transactions _

end Transactions

/-- The file of a database stays where it is. -/
def StaysPut (d after : Store) : Prop := after.fileMoved = d.fileMoved

theorem operations_stayPut : Operations Store StaysPut := by
  have chains : Chains StaysPut := ⟨fun _ => rfl, fun first second => Eq.trans second first⟩
  refine operations_within chains (fun f => .write chains fun {d a after} done => ?_)
    fun reached => .write chains fun done => ?_
  · split at done
    · cases done
    · obtain ⟨_, -, done⟩ := Outcomes.bind_eq_ok.mp done
      cases done
      rfl
  · cases done
    rfl

/-- No other connection holds the write lock. -/
def IsUnlocked (d : Store) : Prop := d.lockedOut = false

/-- No transaction takes place while another connection holds the lock. -/
theorem transaction_locked {α : Type} {f : Store → Except StoreError (α × Database)} {d : Store}
    (shut : ¬ d.IsUnlocked) : transaction f d = (.error EngineError.lockHeld.toStoreError, d) := by
  refine Step.write_of_error ?_
  rw [if_pos (Bool.not_eq_false _ ▸ shut)]

/-- While it is locked, a database stays as it is. -/
theorem operations_stayShut : Operations Store (StaysShut IsUnlocked) := by
  have chains := staysShut_chains IsUnlocked
  refine operations_within chains (fun f d shut => ?_)
    fun reached => .write chains fun {d a after} done shut => ?_
  · rw [transaction_locked shut]
  · have locked : d.lockedOut = true := Bool.not_eq_false _ ▸ shut
    cases done
    rw [locked, Bool.not_true, Bool.false_and, Bool.false_and, Bool.false_and, Bool.or_false,
      ← locked]

theorem allocate_error {d : Store} {mailbox : MailboxId} {sequence : Sequence}
    {bump : CounterRow → Counter × CounterRow} {e : StoreError}
    (fails : (allocate mailbox sequence bump d).1 = .error e) :
    ∃ cause, e = .sequenceAllocation mailbox sequence cause := by
  unfold allocate Step.mapError at fails
  split at fails
  · cases fails
  · cases fails
    exact ⟨_, rfl⟩

theorem unlocked_of_allocate {d after : Store} {mailbox : MailboxId} {sequence : Sequence}
    {bump : CounterRow → Counter × CounterRow} {n : Nat}
    (done : allocate mailbox sequence bump d = (.ok n, after)) : d.IsUnlocked :=
  (allocate_ok done).1

/-- A database is where it was, and is sound as soon as it is not locked. -/
def IsKept (d : Store) : Prop := d.fileMoved = false ∧ IsSound { d with lockedOut := false }

theorem IsKept.sound {d : Store} (kept : d.IsKept) (unlocked : d.IsUnlocked) :
    d.IsSound := by
  have sound := kept.2
  rwa [← unlocked] at sound

theorem IsSound.isKept {d : Store} (sound : d.IsSound) (stays : d.fileMoved = false) :
    d.IsKept := by
  obtain ⟨m, memory, mirrors, written⟩ := sound
  refine ⟨stays, m, memory, ?_, written⟩
  rwa [← mirrors.unlocked]

/-- A write either finds a database unlocked and sound or leaves it as it is. -/
theorem operations_kept : Operations Store fun d after => d.IsKept → after.IsKept := by
  refine (Revised.operations_sound.both operations_stayPut And.intro).both operations_stayShut ?_
  rintro d after ⟨sound, stays⟩ shut kept
  by_cases unlocked : d.IsUnlocked
  · exact IsSound.isKept (sound (kept.sound unlocked)) (stays.trans kept.1)
  · rw [shut unlocked]
    exact kept

/-- A database in which every relation exists is up to date, or cannot be brought up to date. -/
theorem migrate?_of_complete {db db' : Database} (complete : db.missing = [])
    (done : migrate? db = some db') : db' = db := by
  by_cases current : db.version = schemaVersion
  · rw [migrate?_of_version current] at done
    exact (Option.some.inj done).symm
  · unfold migrate? at done
    split at done
    · rename_i known
      -- The first migration to go through would create a relation that exists.
      have pending : db.version = 0 ∨ db.version = 1 := by
        unfold schemaVersion at current known
        omega
      rcases pending with version | version <;>
        simp [version, migrations, createRelations, complete] at done
    · cases done

/-- A database that is reopened holds what it held. -/
theorem reopen_eq {d reopened : Store} (complete : d.database.missing = [])
    (stays : d.fileMoved = false) (done : d.reopen = .ok reopened) :
    reopened = { d with
      listBound := max d.listBound 1
      variableLimit := Mirror.maxVariables
      isKeywordCompiled := false } := by
  unfold reopen at done
  rw [if_neg (by rw [stays]; decide)] at done
  split at done
  · cases done
  · unfold Store.open at done
    cases migrated : migrate? d.database with
    | none =>
      rw [migrated] at done
      cases done
    | some database =>
      rw [migrated] at done
      cases migrate?_of_complete complete migrated
      cases done
      rw [stays]
      rfl

/-- An incident leaves a database where it was and its rows and counters as they were. -/
theorem befall_kept (incident : Incident) {d : Store} (kept : d.IsKept) :
    (incident.befall d).IsKept ∧ (incident.befall d).view = d.view := by
  cases incident with
  | lock held => exact ⟨kept, rfl⟩
  | reopen =>
    cases done : d.reopen with
    | error _ =>
      simp only [Incident.befall, done]
      exact ⟨kept, trivial⟩
    | ok reopened =>
      simp only [Incident.befall, done]
      obtain ⟨stays, m, sound, mirrors, written⟩ := kept
      have complete : d.database.missing = [] := mirrors.complete
      rw [reopen_eq complete stays done]
      refine ⟨⟨stays, { m with listBound := max m.listBound 1 }, ⟨sound.available, sound.records⟩,
        ?_, written⟩, rfl⟩
      exact { mirrors with bound := congrArg (max · 1) mirrors.bound, variableLimit := rfl }

instance : Steadfast Store where
  isKept := IsKept
  isOpen := IsUnlocked
  sound _ := IsKept.sound
  kept := operations_kept
  shut := operations_stayShut
  nextUid_error mailbox d e fails := by
    have fails : (Store.nextUid mailbox d).1 = .error e := fails
    exact allocate_error fails
  nextModSeq_error mailbox d e fails := by
    have fails : (Store.nextModSeq mailbox d).1 = .error e := fails
    exact allocate_error fails
  nextUid_open mailbox d uid after done := by
    have done : Store.nextUid mailbox d = (.ok uid, after) := done
    exact unlocked_of_allocate done
  nextModSeq_open mailbox d modSeq after done := by
    have done : Store.nextModSeq mailbox d = (.ok modSeq, after) := done
    exact unlocked_of_allocate done
  places d := d.database.messages.entries.map Prod.fst
  revisionAt_place := by
    rintro d ⟨stays, m, sound, mirrors, written⟩ _ listed
    obtain ⟨⟨place, row⟩, member, rfl⟩ := List.mem_map.mp listed
    have found : d.database.messages.get? place = some row := Table.get?_eq_some_iff.mpr member
    rw [mirrors.get?_messages] at found
    obtain ⟨message, stored, -⟩ := Option.map_eq_some_iff.mp found
    refine ⟨⟨message.modSeq, message.flags⟩, ?_⟩
    have same : d.view = m.view := mirrors.view_eq
    show d.view.revisionAt place = _
    rw [same]
    show (m.rows.get? place).map _ = _
    rw [stored]
    rfl

instance : Withstands Store := ⟨fun incident _ => befall_kept incident⟩

end Store

end Database

end Mailroom
