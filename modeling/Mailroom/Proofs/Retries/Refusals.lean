import Mailroom.Proofs.Retries.Batches
/-!
Batches of which some partitions are refused.

A store may refuse a partition, and whether it does may depend on the rows that it has. If the
partitions that go before leave a refusal as it is, a batch is refused as it stood at its start
(`Refusing.runPartitioned_eq`): it is all done if no partition is refused
(`Refusing.runPartitioned_ok`), and fails otherwise (`Refusing.runPartitioned_error`).
-/

namespace Mailroom

variable {σ α : Type} [Storage σ] [Kept σ] [BatchOutcome α] {isFit : σ → Prop}
  {call : List Uid → Step σ α} {fault : List Uid → Option StoreError} {store : σ} {part : List Uid}
  {parts : List (List Uid)} {uids : List Uid}

/-! ### Faults that hit nothing or something -/

namespace Batchwise

variable (batch : Batchwise isFit call)

/-- What a batch does to a partition if nothing is in the way. -/
def ideal (part : List Uid) : Step σ α := fun store =>
  (.ok (gather (batch.one store) part), batch.effect part store)

/-- What a batch does if nothing is in the way goes number by number on every store. -/
def onAll : Batchwise (fun _ : σ => True) batch.ideal where
  one := batch.one
  effect := batch.effect
  runs _ _ _ := rfl
  effect_nil := batch.effect_nil
  effect_effect := batch.effect_effect
  effect_congr := batch.effect_congr
  one_effect := batch.one_effect
  fit_effect _ := trivial
  bound_effect := batch.bound_effect
  fit_same _ _ := trivial
  one_same := batch.one_same
  bound_same := batch.bound_same
  effect_same := batch.effect_same

/-- A batch that is repeated on the same numbers has no more effect. -/
theorem effect_again (part : List Uid) (store : σ) :
    batch.effect part (batch.effect part store) = batch.effect part store := by
  rw [batch.effect_effect]
  exact batch.effect_congr fun uid => by rw [List.mem_append, or_self]

end Batchwise

/-! ### Refusals -/

/-- A call that refuses partitions, and does to the others what a batch does to them. What is done
to a partition does not change whether another one is refused. -/
structure Refusing (batch : Batchwise isFit call) (isOpen : σ → Prop)
    (refusal : σ → List Uid → Option StoreError) (actual : List Uid → Step σ α) : Prop where
  does : ∀ {store part}, isOpen store → part.Pairwise (· < ·) → part ≠ [] →
    actual part store = interrupt (refusal store) batch.ideal part store
  open_effect : ∀ {store part}, isOpen store → isOpen (batch.effect part store)
  refusal_effect : ∀ {store part other}, (∀ uid ∈ part, uid ∉ other) →
    refusal (batch.effect part store) other = refusal store other

namespace Refusing

variable {batch : Batchwise isFit call} {isOpen : σ → Prop}
  {refusal : σ → List Uid → Option StoreError} {actual : List Uid → Step σ α}
  (refusing : Refusing batch isOpen refusal actual)

include refusing

/-- Partitions are refused as it stood before the first of them. -/
theorem runChunks_eq (opened : isOpen store) (cut : Batchwise.Cut store parts)
    (nonempty : ∀ part ∈ parts, part ≠ [])
    (stands : ∀ part ∈ parts, refusal store part = fault part) (progress : BatchProgress α) :
    runChunks actual parts progress store
      = runChunks (interrupt fault batch.ideal) parts progress store := by
  induction parts generalizing progress store with
  | nil => rfl
  | cons part rest ih =>
    have here := stands part List.mem_cons_self
    have does := refusing.does opened (cut.ascending part List.mem_cons_self)
      (nonempty part List.mem_cons_self)
    have nonempty' := fun other member => nonempty other (List.mem_cons_of_mem _ member)
    have stands' := fun other member => stands other (List.mem_cons_of_mem _ member)
    unfold runChunks
    rw [does]
    cases refused : fault part with
    | some e =>
      rw [interrupt_of_some (here.trans refused), interrupt_of_some refused]
      exact ih opened (cut.rest batch).1 nonempty' stands' _
    | none =>
      rw [interrupt_of_none (here.trans refused), interrupt_of_none refused]
      have stands'' : ∀ other ∈ rest, refusal (batch.effect part store) other = fault other :=
        fun other member =>
          (refusing.refusal_effect ((List.pairwise_cons.mp cut.apart).1 other member)).trans
            (stands' other member)
      exact ih (refusing.open_effect opened) (cut.rest batch).2 nonempty' stands'' _

/-- A batch is refused as it stood before it. -/
theorem runPartitioned_eq (opened : isOpen store) (ascending : uids.Pairwise (· < ·)) :
    runPartitioned (Storage.listBound store) actual uids store
      = runPartitioned (Storage.listBound store) (interrupt (refusal store) batch.ideal) uids
        store := by
  unfold runPartitioned
  by_cases nothing : uids.isEmpty = true
  · rw [if_pos nothing, if_pos nothing]
  rw [if_neg nothing, if_neg nothing]
  rw [List.isEmpty_iff] at nothing
  split
  · exact refusing.does opened ascending nothing
  · rw [refusing.runChunks_eq opened (Batchwise.cut_chunks ascending)
      (fun _ => ne_nil_of_mem_chunks bound_pos) fun _ _ => rfl]

variable [LawfulBatchOutcome α]

/-- A batch none of whose partitions is refused does all of its numbers. -/
theorem runPartitioned_ok (opened : isOpen store) (ascending : uids.Pairwise (· < ·))
    (taken : ∀ part ∈ chunks (max (Storage.listBound store) 1) uids, refusal store part = none) :
    runPartitioned (Storage.listBound store) actual uids store
      = (.ok (gather (batch.one store) uids), batch.effect uids store) := by
  rw [refusing.runPartitioned_eq opened ascending]
  exact batch.onAll.runPartitioned_missed (refusal store) trivial ascending taken

/-- A batch fails if one of its partitions is refused. -/
theorem runPartitioned_error (opened : isOpen store) (ascending : uids.Pairwise (· < ·))
    (refused : ∃ part ∈ chunks (max (Storage.listBound store) 1) uids,
      (refusal store part).isSome) :
    ∃ e after, runPartitioned (Storage.listBound store) actual uids store = (.error e, after) := by
  rw [refusing.runPartitioned_eq opened ascending]
  by_cases several : max (Storage.listBound store) 1 < uids.length
  · exact ⟨_, _, batch.onAll.runPartitioned_interrupted trivial ascending several refused⟩
  obtain ⟨part, member, refused⟩ := refused
  have some_uids : uids ≠ [] := by
    rintro rfl
    cases member
  have single := Nat.not_lt.mp several
  rw [chunks_single some_uids single, List.mem_singleton] at member
  obtain ⟨e, refused⟩ := Option.isSome_iff_exists.mp (member ▸ refused)
  rw [runPartitioned_single some_uids single, interrupt_of_some refused]
  exact ⟨e, store, rfl⟩

/-- A batch that answers has had none of its partitions refused. -/
theorem taken_of_ran (opened : isOpen store) (ascending : uids.Pairwise (· < ·)) {a : α} {after : σ}
    (ran : runPartitioned (Storage.listBound store) actual uids store = (.ok a, after)) :
    ∀ part ∈ chunks (max (Storage.listBound store) 1) uids, refusal store part = none := by
  intro part member
  by_contra refused
  obtain ⟨e, left, fails⟩ := refusing.runPartitioned_error opened ascending
    ⟨part, member, Option.isSome_iff_ne_none.mpr refused⟩
  cases ran.symm.trans fails

/-- A batch none of whose partitions is refused is what it would be if nothing were in the way. -/
theorem runPartitioned_ideal (opened : isOpen store) (ascending : uids.Pairwise (· < ·))
    (taken : ∀ part ∈ chunks (max (Storage.listBound store) 1) uids, refusal store part = none) :
    runPartitioned (Storage.listBound store) actual uids store
      = runPartitioned (Storage.listBound store) batch.ideal uids store :=
  (refusing.runPartitioned_ok opened ascending taken).trans
    (batch.onAll.runPartitioned_eq trivial ascending).symm

end Refusing

/-! ### Refusals and faults -/

/-- The error with which a partition fails that a fault hits or that is refused. -/
def blocked (fault refusal : List Uid → Option StoreError) (part : List Uid) : Option StoreError :=
  (fault part).or (refusal part)

namespace Refusing

variable {batch : Batchwise isFit call} {isOpen : σ → Prop}
  {refusal : σ → List Uid → Option StoreError} {actual : List Uid → Step σ α}
  (refusing : Refusing batch isOpen refusal actual)

include refusing

/-- A call that is interrupted refuses the partitions that the fault hits, too. -/
theorem interrupted (fault : List Uid → Option StoreError) :
    Refusing batch isOpen (fun store => blocked fault (refusal store))
      (interrupt fault actual) where
  does {store part} opened ascending nonempty := by
    cases here : fault part with
    | some e =>
      have hits : blocked fault (refusal store) part = some e := by rw [blocked, here]; rfl
      rw [interrupt_of_some here, interrupt_of_some hits]
    | none =>
      have same : blocked fault (refusal store) part = refusal store part := by
        rw [blocked, here]
        rfl
      rw [interrupt_of_none here, refusing.does opened ascending nonempty, interrupt, interrupt,
        same]
  open_effect := refusing.open_effect
  refusal_effect apart := congrArg (Option.or _) (refusing.refusal_effect apart)

/-- Partitions that are not refused are executed. -/
theorem executed {answers : List α} {after : σ}
    (ran : Executed batch.ideal parts store answers after) (opened : isOpen store)
    (cut : Batchwise.Cut store parts) (nonempty : ∀ part ∈ parts, part ≠ [])
    (free : ∀ part ∈ parts, refusal store part = none) :
    Executed actual parts store answers after := by
  induction ran with
  | nil store => exact .nil store
  | @cons part rest store middle after a answers ran others ih =>
    have does := refusing.does opened (cut.ascending part List.mem_cons_self)
      (nonempty part List.mem_cons_self)
    rw [interrupt_of_none (free part List.mem_cons_self)] at does
    have moved : batch.effect part store = middle := congrArg Prod.snd ran
    subst moved
    have free' : ∀ other ∈ rest, refusal (batch.effect part store) other = none :=
      fun other member =>
        (refusing.refusal_effect ((List.pairwise_cons.mp cut.apart).1 other member)).trans
          (free other (List.mem_cons_of_mem _ member))
    exact .cons (does.trans ran) (ih (refusing.open_effect opened) (cut.rest batch).2
      (fun other member => nonempty other (List.mem_cons_of_mem _ member)) free')

variable [LawfulBatchOutcome α] {start : σ}

/-- What a batch does that is interrupted, whether or not partitions are refused as well. -/
theorem failsInPart (opened : isOpen start) (interrupted : IsInterrupted fault uids start) :
    let parts := chunks (max (Storage.listBound start) 1) (sortedUids uids)
    let refused := blocked fault (refusal start)
    let report := BatchOutcome.report (gather (batch.one start) (missed refused parts).flatten)
    let after := batch.effect (missed refused parts).flatten start
    runPartitioned (Storage.listBound start) (interrupt fault actual) (sortedUids uids) start
        = (.error (.partialBatch report (failures refused parts) (missed refused parts).length),
          after) ∧
      FailsInPart actual refused parts start report (failures refused parts)
        (missed refused parts).length after := by
  intro parts refused report after
  have ascending := sortedUids_ascending uids
  have hits : IsInterrupted refused uids start := by
    obtain ⟨part, member, here⟩ := interrupted.isHit
    refine ⟨interrupted.several, part, member, ?_⟩
    obtain ⟨e, here⟩ := Option.isSome_iff_exists.mp here
    show (Option.or (fault part) _).isSome = true
    rw [here]
    rfl
  obtain ⟨fails, inPart⟩ := batch.onAll.failsInPart trivial hits
  obtain ⟨answers, executed, told⟩ := inPart.executed
  have whole : Batchwise.Cut start parts := Batchwise.cut_chunks ascending
  have cut : Batchwise.Cut start (missed refused parts) :=
    ⟨whole.apart.filter _, fun part member => whole.ascending part (List.mem_of_mem_filter member),
      fun part member => whole.short part (List.mem_of_mem_filter member)⟩
  have free : ∀ part ∈ missed refused parts, refusal start part = none := fun part member =>
    (Option.or_eq_none_iff.mp (mem_missed.mp member).2).2
  refine ⟨?_, { inPart with executed := ⟨answers, ?_, told⟩ }⟩
  · exact ((refusing.interrupted fault).runPartitioned_eq opened ascending).trans fails
  · exact refusing.executed executed opened cut
      (fun part member => ne_nil_of_mem_chunks bound_pos (mem_missed.mp member).1) free

/-- What a batch does that is interrupted, if no partition is refused. -/
theorem failsInPart_of_taken (opened : isOpen start) (interrupted : IsInterrupted fault uids start)
    (taken : ∀ part ∈ chunks (max (Storage.listBound start) 1) (sortedUids uids),
      refusal start part = none) :
    let parts := chunks (max (Storage.listBound start) 1) (sortedUids uids)
    let report := BatchOutcome.report (gather (batch.one start) (missed fault parts).flatten)
    let after := batch.effect (missed fault parts).flatten start
    runPartitioned (Storage.listBound start) (interrupt fault actual) (sortedUids uids) start
        = (.error (.partialBatch report (failures fault parts) (missed fault parts).length),
          after) ∧
      FailsInPart actual fault parts start report (failures fault parts)
        (missed fault parts).length after := by
  intro parts report after
  have same : ∀ part ∈ parts, blocked fault (refusal start) part = fault part :=
    fun part member => by rw [blocked, taken part member, Option.or_none]
  obtain ⟨fails, inPart⟩ := refusing.failsInPart opened interrupted
  have inPart := inPart.congr same
  rw [missed_congr same, failures_congr same] at fails inPart
  exact ⟨fails, inPart⟩

/-- What a batch that was interrupted has done, and what is left of it, is the whole of it, if no
partition of it is refused. -/
theorem completes (opened : isOpen start)
    (taken : ∀ part ∈ chunks (max (Storage.listBound start) 1) (sortedUids uids),
      refusal start part = none) {counted : σ} (openedAgain : isOpen counted)
    (same : SameButCounters (batch.effect (missed fault
      (chunks (max (Storage.listBound start) 1) (sortedUids uids))).flatten start) counted)
    (stands : refusal counted = refusal (batch.effect (missed fault
      (chunks (max (Storage.listBound start) 1) (sortedUids uids))).flatten start)) :
    let parts := chunks (max (Storage.listBound start) 1) (sortedUids uids)
    ∃ (again whole : α) (retried done : σ),
      runPartitioned (Storage.listBound counted) actual (sortedUids (hit fault parts).flatten)
          counted = (.ok again, retried) ∧
        runPartitioned (Storage.listBound start) actual (sortedUids uids) start
          = (.ok whole, done) ∧
        SameButCounters done retried ∧
        ((BatchOutcome.report (gather (batch.one start) (missed fault parts).flatten)).append
          (BatchOutcome.report again)).Perm (BatchOutcome.report whole) := by
  intro parts
  obtain ⟨again, whole, retried, done, repeated, ran, left, told⟩ :=
    batch.onAll.completes trivial same
  have bound : Storage.listBound counted = Storage.listBound start :=
    (batch.bound_same same).trans (batch.bound_effect _ _)
  have others : (hit fault parts).flatten.Pairwise (· < ·) := hit_ascending bound_pos
  have takenAgain : ∀ part ∈ chunks (max (Storage.listBound counted) 1)
      (sortedUids (hit fault parts).flatten), refusal counted part = none := by
    intro part member
    have cut : chunks (max (Storage.listBound start) 1) (hit fault parts).flatten
      = hit fault parts := chunks_filter bound_pos _ _
    rw [bound, sortedUids_of_ascending others, cut] at member
    have apart : ∀ uid ∈ (missed fault parts).flatten, uid ∉ part := fun uid there here =>
      hit_apart_missed bound_pos uid (List.mem_flatten_of_mem member here) there
    rw [stands, refusing.refusal_effect apart]
    exact taken part (List.mem_of_mem_filter member)
  refine ⟨again, whole, retried, done, ?_, ?_, left, told⟩
  · exact (refusing.runPartitioned_ideal openedAgain (sortedUids_ascending _) takenAgain).trans
      repeated
  · exact (refusing.runPartitioned_ideal opened (sortedUids_ascending uids) taken).trans ran

end Refusing

end Mailroom
