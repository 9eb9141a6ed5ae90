import Mailroom.Storage
/-!
A store that fails on demand.

Faults are armed on a store to see how its callers take them. A call that a fault hits fails before
the store does anything; every other call goes through.
-/

namespace Mailroom

/-- What a fault looks like to the caller. -/
inductive FaultKind where
  | timeout
  | unavailable
  | corrupted
deriving DecidableEq, Repr

/-- The error of a fault. -/
def FaultKind.error : FaultKind → String → StoreError
  | timeout, text => .timeout text
  | unavailable, text => .unavailable text
  | corrupted, text => .corrupted (.described text)

/-- A store and the faults armed on it. -/
structure Faulty (σ : Type) where
  store : σ
  /-- Calls on a partition that holds one of these numbers fail. -/
  uids : List Uid := []
  kind : FaultKind := .timeout
  /-- How many more pages can be read, if they are counted. -/
  pages : Option Nat := none

namespace Faulty

variable {σ α : Type}

/-- Runs a step on the store itself. -/
def lift (step : Step σ α) : Step (Faulty σ) α := fun faulty =>
  let (answer, store) := step faulty.store
  (answer, { faulty with store })

/-- The error of a call on a partition that holds a faulty number. -/
def uidFault? (faulty : Faulty σ) (uids : List Uid) : Option StoreError :=
  (faulty.uids.find? uids.contains).map fun uid => faulty.kind.error s!"injected at {uid}"

/-- Runs a step on a partition, unless a fault hits it. -/
def onUids (uids : List Uid) (step : Step σ α) : Step (Faulty σ) α := fun faulty =>
  match faulty.uidFault? uids with
  | some error => (.error error, faulty)
  | none => lift step faulty

/-- Reads a page, unless no more can be read. -/
def onPage (step : Step σ α) : Step (Faulty σ) α := fun faulty =>
  match faulty.pages with
  | none => lift step faulty
  | some 0 => (.error (.timeout "injected page failure"), faulty)
  | some (pages + 1) => lift step { faulty with pages := some pages }

instance [Storage σ] : Storage (Faulty σ) where
  nextUid mailbox := lift (Storage.nextUid mailbox)
  nextModSeq mailbox := lift (Storage.nextModSeq mailbox)
  lastUid mailbox := lift (Storage.lastUid mailbox)
  highestModSeq mailbox := lift (Storage.highestModSeq mailbox)
  insert message := lift (Storage.insert message)
  find mailbox uid fetch := lift (Storage.find mailbox uid fetch)
  fetchPage request fetch := onPage (Storage.fetchPage request fetch)
  fetchUidPage request := onPage (Storage.fetchUidPage request)
  fetchBatch mailbox uids fetch := onUids uids (Storage.fetchBatch mailbox uids fetch)
  updateFlags mailbox uid edit modSeq expected :=
    lift (Storage.updateFlags mailbox uid edit modSeq expected)
  resetRecent mailbox uids modSeq := onUids uids (Storage.resetRecent mailbox uids modSeq)
  deleteBatch mailbox uids := onUids uids (Storage.deleteBatch mailbox uids)
  deleteMailbox mailbox := lift (Storage.deleteMailbox mailbox)
  deleteMessage id := lift (Storage.deleteMessage id)
  findMailboxes id := lift (Storage.findMailboxes id)
  counts mailbox := lift (Storage.counts mailbox)
  firstUnseen mailbox := lift (Storage.firstUnseen mailbox)
  keywords mailbox := lift (Storage.keywords mailbox)
  listBound faulty := Storage.listBound faulty.store
  appendChange draft expiresAt := lift (Storage.appendChange draft expiresAt)
  changesPage request := lift (Storage.changesPage request)
  heads account := lift (Storage.heads account)
  purgeExpired now := lift (Storage.purgeExpired now)
  health faulty := Storage.health faulty.store
  extent faulty := Storage.extent faulty.store

end Faulty

end Mailroom
