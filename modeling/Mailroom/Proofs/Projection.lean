import Mailroom.Proofs.Simulation
/-!
Stores with something beside them.

A store that is kept beside something else, such as a record of what was done to it, is got back by
a projection. If every operation does to the projected store what it does to the store itself
(`Projection`), then so does every call (`Call.run_projects`): a service cannot tell the two apart.
-/

namespace Mailroom

variable {σ τ α β κ ρ : Type} {f : τ → σ}

/-- A step answers as another one does on the projected store, and leaves that projected. -/
def Step.Projects (f : τ → σ) (left : Step τ α) (right : Step σ α) : Prop :=
  ∀ t, right (f t) = ((left t).1, f (left t).2)

theorem Step.projects_iff_alike {left : Step τ α} {right : Step σ α} :
    Step.Projects f left right ↔ Step.Alike (fun t s => s = f t) left right := by
  constructor
  · rintro projects t s rfl
    rw [projects]
    exact ⟨rfl, rfl⟩
  · intro alike t
    obtain ⟨same, still⟩ := alike t (f t) rfl
    exact Prod.ext same.symm still

/-! ### Scans -/

/-- Two sources of rows with the same keys, of which one reads from the projected store. -/
structure Source.Projects (f : τ → σ) (left : Source τ κ ρ) (right : Source σ κ ρ) : Prop where
  key : left.key = right.key
  fetch : ∀ after limit, Step.Projects f (left.fetch after limit) (right.fetch after limit)

section Scans

variable {left : Source τ κ ρ} {right : Source σ κ ρ} (sources : Source.Projects f left right)

include sources

theorem Source.Projects.alike : Source.Alike (fun t s => s = f t) left right :=
  ⟨sources.key, fun after limit => Step.projects_iff_alike.mp (sources.fetch after limit)⟩

theorem nextPage_projects (paging : Paging κ ρ) (t : τ) :
    paging.nextPage right (f t) = ((paging.nextPage left t).1, (paging.nextPage left t).2.1,
      f (paging.nextPage left t).2.2) := by
  obtain ⟨_, _, _, _, did, did', rfl⟩ := nextPage_alike sources.alike paging (t := t) rfl
  rw [did, did']

theorem prime_projects (paging : Paging κ ρ) (t : τ) :
    paging.prime right (f t) = ((paging.prime left t).1, (paging.prime left t).2.1,
      f (paging.prime left t).2.2) := by
  obtain ⟨_, _, _, _, did, did', rfl⟩ := prime_alike sources.alike paging (t := t) rfl
  rw [did, did']

theorem next_projects (paging : Paging κ ρ) (t : τ) :
    paging.next right (f t) = ((paging.next left t).1, (paging.next left t).2.1,
      f (paging.next left t).2.2) := by
  have fetched := nextPage_projects sources paging t
  unfold Paging.next
  split
  · rfl
  · rcases done : paging.nextPage left t with ⟨_ | e | _ | _, next, after⟩ <;>
    · rw [done] at fetched
      rw [fetched]

end Scans

/-! ### Calls -/

/-- Every operation does to the projected store what it does to the store. -/
structure Projection [Storage τ] [Storage σ] (f : τ → σ) : Prop where
  nextUid : ∀ mailbox, Step.Projects f (Storage.nextUid mailbox) (Storage.nextUid mailbox)
  nextModSeq : ∀ mailbox, Step.Projects f (Storage.nextModSeq mailbox) (Storage.nextModSeq mailbox)
  highestModSeq : ∀ mailbox,
    Step.Projects f (Storage.highestModSeq mailbox) (Storage.highestModSeq mailbox)
  insert : ∀ message, Step.Projects f (Storage.insert message) (Storage.insert message)
  find : ∀ mailbox uid fetch,
    Step.Projects f (Storage.find mailbox uid fetch) (Storage.find mailbox uid fetch)
  fetchPage : ∀ request fetch,
    Step.Projects f (Storage.fetchPage request fetch) (Storage.fetchPage request fetch)
  fetchUidPage : ∀ request,
    Step.Projects f (Storage.fetchUidPage request) (Storage.fetchUidPage request)
  fetchBatch : ∀ mailbox uids fetch,
    Step.Projects f (Storage.fetchBatch mailbox uids fetch) (Storage.fetchBatch mailbox uids fetch)
  updateFlags : ∀ mailbox uid edit modSeq expected,
    Step.Projects f (Storage.updateFlags mailbox uid edit modSeq expected)
      (Storage.updateFlags mailbox uid edit modSeq expected)
  resetRecent : ∀ mailbox uids modSeq, Step.Projects f (Storage.resetRecent mailbox uids modSeq)
    (Storage.resetRecent mailbox uids modSeq)
  deleteBatch : ∀ mailbox uids,
    Step.Projects f (Storage.deleteBatch mailbox uids) (Storage.deleteBatch mailbox uids)
  deleteMailbox : ∀ mailbox,
    Step.Projects f (Storage.deleteMailbox mailbox) (Storage.deleteMailbox mailbox)
  deleteMessage : ∀ id, Step.Projects f (Storage.deleteMessage id) (Storage.deleteMessage id)
  findMailboxes : ∀ id, Step.Projects f (Storage.findMailboxes id) (Storage.findMailboxes id)
  counts : ∀ mailbox, Step.Projects f (Storage.counts mailbox) (Storage.counts mailbox)
  firstUnseen : ∀ mailbox,
    Step.Projects f (Storage.firstUnseen mailbox) (Storage.firstUnseen mailbox)
  keywords : ∀ mailbox, Step.Projects f (Storage.keywords mailbox) (Storage.keywords mailbox)
  listBound : ∀ t, Storage.listBound (f t) = Storage.listBound t
  appendChange : ∀ draft expiresAt,
    Step.Projects f (Storage.appendChange draft expiresAt) (Storage.appendChange draft expiresAt)
  changesPage : ∀ request,
    Step.Projects f (Storage.changesPage request) (Storage.changesPage request)
  heads : ∀ account, Step.Projects f (Storage.heads account) (Storage.heads account)
  purgeExpired : ∀ now, Step.Projects f (Storage.purgeExpired now) (Storage.purgeExpired now)
  extent : ∀ t, Storage.extent (f t) = Storage.extent t

/-- A store and what it projects to are related, whatever the partitions. -/
theorem Projection.simulation [Storage τ] [Storage σ] (projection : Projection f) :
    Simulation (fun _ => True) (fun t s => s = f t) where
  nextUid _ := Step.projects_iff_alike.mp (projection.nextUid _)
  nextModSeq _ := Step.projects_iff_alike.mp (projection.nextModSeq _)
  highestModSeq _ := Step.projects_iff_alike.mp (projection.highestModSeq _)
  insert _ := Step.projects_iff_alike.mp (projection.insert _)
  find _ _ _ := Step.projects_iff_alike.mp (projection.find _ _ _)
  fetchPage _ _ := Step.projects_iff_alike.mp (projection.fetchPage _ _)
  fetchUidPage _ := Step.projects_iff_alike.mp (projection.fetchUidPage _)
  fetchBatch _ _ _ _ := Step.projects_iff_alike.mp (projection.fetchBatch _ _ _)
  updateFlags _ _ _ _ _ := Step.projects_iff_alike.mp (projection.updateFlags _ _ _ _ _)
  resetRecent _ _ _ _ := Step.projects_iff_alike.mp (projection.resetRecent _ _ _)
  deleteBatch _ _ _ := Step.projects_iff_alike.mp (projection.deleteBatch _ _)
  deleteMessage _ := Step.projects_iff_alike.mp (projection.deleteMessage _)
  findMailboxes _ := Step.projects_iff_alike.mp (projection.findMailboxes _)
  counts _ := Step.projects_iff_alike.mp (projection.counts _)
  firstUnseen _ := Step.projects_iff_alike.mp (projection.firstUnseen _)
  keywords _ := Step.projects_iff_alike.mp (projection.keywords _)
  listBound := by rintro t _ rfl; exact (projection.listBound t).symm
  partition _ _ _ _ _ := trivial
  appendChange _ _ := Step.projects_iff_alike.mp (projection.appendChange _ _)
  changesPage _ := Step.projects_iff_alike.mp (projection.changesPage _)
  heads _ := Step.projects_iff_alike.mp (projection.heads _)
  purgeExpired _ := Step.projects_iff_alike.mp (projection.purgeExpired _)
  extent := by rintro t _ rfl; exact (projection.extent t).symm

/-- Every call does to the projected store what it does to the store. -/
theorem Service.Call.run_projects [Storage τ] [Storage σ] (projection : Projection f)
    (policy : Policy) (call : Call) : Step.Projects f (call.run policy) (call.run policy) := by
  refine Step.projects_iff_alike.mpr ?_
  refine Call.run_alike projection.simulation policy call fun mailbox _ => ?_
  exact Step.projects_iff_alike.mp (projection.deleteMailbox mailbox)

end Mailroom
