import Mailroom.Proofs.Effects
import Mailroom.Proofs.Mirror.Counters
import Mailroom.Proofs.Mirror.FlagWrites
import Mailroom.Proofs.Mirror.Removals
/-!
Computations that are built on the operations of a store: batches, scans, and counting up the
counters of several mailboxes.

Each of them agrees in memory and in the database because its steps do.
-/

namespace Mailroom.Mirror

variable {α : Type} {regular : Prop} {log : Log} {m : Memory.Store} {d : Database.Store}

/-! ### Batches -/

section Partitions

variable [BatchOutcome α] {left : List Uid → Step Memory.Store α}
  {right : List Uid → Step Database.Store α}

theorem runChunks_agree (mirrors : Mirrors regular log m d) {parts : List (List Uid)}
    (calls : ∀ part ∈ parts, ∀ m d, Mirrors regular log m d →
      Agrees regular log (left part) (right part) m d) (progress : BatchProgress α) :
    (runChunks right parts progress d).1 = (runChunks left parts progress m).1 ∧
      Mirrors regular log (runChunks left parts progress m).2
        (runChunks right parts progress d).2 := by
  induction parts generalizing progress m d with
  | nil => exact ⟨rfl, mirrors⟩
  | cons part rest ih =>
    have rests := fun part member => calls part (List.mem_cons_of_mem _ member)
    obtain ⟨answer, after⟩ := calls part List.mem_cons_self m d mirrors
    unfold runChunks
    rcases first : left part m with ⟨outcome, m'⟩
    rcases first' : right part d with ⟨outcome', d'⟩
    rw [first, first'] at answer after
    cases answer
    cases outcome <;> exact ih after rests _

/-- A batch agrees if its partitions do. -/
theorem runPartitioned_agrees (mirrors : Mirrors regular log m d) {bound : Nat} {uids : List Uid}
    (calls : ∀ part : List Uid, part.Sublist uids → part.length ≤ max bound 1 →
      ∀ m d, Mirrors regular log m d → Agrees regular log (left part) (right part) m d) :
    Agrees regular log (runPartitioned bound left uids) (runPartitioned bound right uids) m d := by
  unfold runPartitioned
  by_cases empty : uids.isEmpty = true
  · constructor
    · rw [if_pos empty, if_pos empty]
    · rw [if_pos empty, if_pos empty]
      exact mirrors
  by_cases short : uids.length ≤ max bound 1
  · obtain ⟨answer, after⟩ := calls uids (List.Sublist.refl _) short m d mirrors
    constructor
    · rw [if_neg empty, if_neg empty, if_pos short, if_pos short]
      exact answer
    · rw [if_neg empty, if_neg empty, if_pos short, if_pos short]
      exact after
  · obtain ⟨progress, after⟩ := runChunks_agree mirrors
      (fun part member => calls part (sublist_of_mem_chunks member) (length_of_mem_chunks member))
      ({ outcome := BatchOutcome.empty } : BatchProgress α)
    constructor
    · rw [if_neg empty, if_neg empty, if_neg short, if_neg short]
      exact congrArg BatchProgress.result progress
    · rw [if_neg empty, if_neg empty, if_neg short, if_neg short]
      exact after

/-- Batches are cut alike in both stores. -/
theorem partitioned_agrees (mirrors : Mirrors regular log m d) {uids : List Uid}
    (calls : ∀ part : List Uid, part.Sublist uids → part.length ≤ max m.listBound 1 →
      ∀ m d, Mirrors regular log m d → Agrees regular log (left part) (right part) m d) :
    Agrees regular log (Service.partitioned left uids) (Service.partitioned right uids) m d := by
  have agrees := runPartitioned_agrees mirrors calls
  refine ⟨?_, ?_⟩
  · show (runPartitioned d.listBound right uids d).1 = (runPartitioned m.listBound left uids m).1
    rw [mirrors.bound]
    exact agrees.answer
  · show Mirrors regular log (runPartitioned m.listBound left uids m).2
      (runPartitioned d.listBound right uids d).2
    rw [mirrors.bound]
    exact agrees.mirrors

end Partitions

/-! ### Scans -/

section Scans

variable {κ τ : Type} {left : Source Memory.Store κ τ} {right : Source Database.Store κ τ}

/-- Two reads deliver the same rows if their sources look at stores that show them the same. -/
theorem rest_eq (keys : right.key = left.key) {view : Option κ → Nat → Except StoreError (List τ)}
    (looks : ∀ after limit, left.fetch after limit m = (view after limit, m))
    (looks' : ∀ after limit, right.fetch after limit d = (view after limit, d))
    (pages : Nat) (paging : Paging κ τ) :
    (paging.rest right pages d).1 = (paging.rest left pages m).1 ∧
      (paging.rest right pages d).2.1 = (paging.rest left pages m).2.1 ∧
      (paging.rest left pages m).2.2 = m ∧ (paging.rest right pages d).2.2 = d := by
  induction pages generalizing paging with
  | zero => exact ⟨rfl, rfl, rfl, rfl⟩
  | succ pages ih =>
    unfold Paging.rest Paging.nextPage
    simp only [looks, looks']
    by_cases finished : paging.finished = true
    · simp only [finished, reduceIte, and_self]
    · simp only [if_neg finished]
      cases view paging.cursor ({ paging with buffer := [] } : Paging κ τ).pageSize with
      | error e => exact ⟨rfl, rfl, rfl, rfl⟩
      | ok rows =>
        simp only [keys]
        obtain ⟨delivered, reached, same, same'⟩ := ih _
        exact ⟨congrArg _ delivered, reached, same, same'⟩

/-- Reads run to their end agree, if their sources do and the stores are of the same size. -/
theorem drained_agrees (mirrors : Mirrors regular log m d) (proper : regular)
    {scan : Scan Memory.Store κ τ} {scan' : Scan Database.Store κ τ}
    (pagings : scan'.paging = scan.paging) (keys : scan'.source.key = scan.source.key)
    {view : Option κ → Nat → Except StoreError (List τ)}
    (looks : ∀ after limit, scan.source.fetch after limit m = (view after limit, m))
    (looks' : ∀ after limit, scan'.source.fetch after limit d = (view after limit, d)) :
    Agrees regular log (Service.Call.drained scan) (Service.Call.drained scan') m d := by
  obtain ⟨delivered, reached, same, same'⟩ := rest_eq keys looks looks' (Storage.extent m)
    scan.paging
  have extents := mirrors.extent_eq proper
  constructor
  · show Except.ok (Service.Scanned.mk (scan'.paging.rest scan'.source (Storage.extent d) d).1
      (scan'.paging.rest scan'.source (Storage.extent d) d).2.1.pages) = Except.ok
        (Service.Scanned.mk (scan.paging.rest scan.source (Storage.extent m) m).1
          (scan.paging.rest scan.source (Storage.extent m) m).2.1.pages)
    rw [pagings, extents, delivered, reached]
  · show Mirrors regular log (scan.paging.rest scan.source (Storage.extent m) m).2.2
      (scan'.paging.rest scan'.source (Storage.extent d) d).2.2
    rw [pagings, extents, same, same']
    exact mirrors

end Scans

end Mailroom.Mirror
