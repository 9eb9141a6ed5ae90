import Mailroom.Proofs.Changes.History
import Mailroom.Proofs.Listings.Lookups
import Mailroom.Proofs.Retries.Memory
/-!
Stores that rows are removed from.

Calls keep a store well (`IsWellKept`): it is sound, it has the content of each message that is
linked and of no other, and its rows lie where they are looked for. A removal counts up the
modification sequence of each mailbox that it touches. `CountsUp` says which counters that moves,
and by how much; whether a counter has a next number depends on where it stands (`Counts`), in
memory always and in the database below the last number that it can keep.
-/

namespace Mailroom

open Service Revised

variable {σ α : Type}

/-! ### Well-kept stores -/

/-- A sound store with the contents of the messages that are linked, whose rows lie where they are
looked for. -/
structure IsWellKept [Storage σ] [Kept σ] [Sound σ] [Stocked σ] [Confines σ] (store : σ) :
    Prop where
  sound : isSound store
  tidy : (stock store).IsTidy
  orderly : isOrderly store

section WellKept

variable [Storage σ] [Kept σ] [Sound σ] [Stocked σ] [Confines σ] [PureReads σ] {store : σ}

theorem IsWellKept.run (kept : IsWellKept store) (policy : Policy) (call : Call) :
    IsWellKept (call.run policy store).2 where
  sound := (call.run_stock policy kept.sound).1
  tidy := by
    obtain ⟨-, drops | ⟨mailbox, new, now, metadata, links⟩⟩ := call.run_stock policy kept.sound
    · exact drops.isTidy kept.tidy
    · rw [links.put]
      exact kept.tidy.put links.free
  orderly := by
    have chains : Chains fun store after : σ => isOrderly store → isOrderly after :=
      keeps_chains isOrderly
    exact call.run_within chains Confines.writes policy trivial store kept.orderly

/-- Calls keep a store well, each under a policy of its own. -/
theorem IsWellKept.runUnder (kept : IsWellKept store) (steps : List (Policy × Call)) :
    IsWellKept (Call.runUnder steps store) := by
  induction steps generalizing store with
  | nil => exact kept
  | cons step rest ih => exact ih (kept.run step.1 step.2)

omit [PureReads σ] in
theorem IsWellKept.of_nothing (nothing : HoldsNothing store) (orderly : isOrderly store) :
    IsWellKept store where
  sound := nothing.isSound
  tidy id := by simp [nothing.contentOf, nothing.unlinked]
  orderly := orderly

end WellKept

theorem Memory.Store.runUnder_isWellKept (steps : List (Policy × Call)) (bound : Nat) :
    IsWellKept (Call.runUnder steps (new bound)) :=
  (IsWellKept.of_nothing (holdsNothing_inMemory bound) (new_keyed bound)).runUnder steps

theorem Database.Store.runUnder_isWellKept (steps : List (Policy × Call)) (path : String)
    (bound : Nat) : IsWellKept (Call.runUnder steps (new path bound)) :=
  (IsWellKept.of_nothing (holdsNothing_inDatabase path bound) trivial).runUnder steps

/-! ### Counting up -/

/-- The modification sequences of some mailboxes have advanced by one, and no other counter has
moved. -/
structure CountsUp [Storage σ] [Kept σ] [Sound σ] [Revised σ] (mailboxes : List MailboxId)
    (store after : σ) : Prop where
  highestModSeq : ∀ mailbox, (view after).highestModSeq mailbox
    = (view store).highestModSeq mailbox + if mailbox ∈ mailboxes then 1 else 0
  lastUid : (view after).lastUid = (view store).lastUid
  elsewhere : ∀ mailbox ∉ mailboxes,
    Kept.countersOf after mailbox = Kept.countersOf store mailbox

/-- A store in which a counter has a next number depending on where it stands. -/
class Counts (σ : Type) [Storage σ] [Sound σ] [Revised σ] where
  hasNext : ModSeq → Prop
  nextModSeq_iff : ∀ {store : σ} (mailbox), isSound store →
    ((∃ modSeq after, Storage.nextModSeq mailbox store = (.ok modSeq, after)) ↔
      hasNext ((view store).highestModSeq mailbox))

section Counting

variable [Storage σ] [Kept σ] [Sound σ] [Revised σ] {store middle after : σ} {mailbox : MailboxId}
  {mailboxes rest : List MailboxId}

theorem CountsUp.refl (store : σ) : CountsUp [] store store := ⟨fun _ => rfl, rfl, fun _ _ => rfl⟩

theorem CountsUp.cons (first : CountsUp [mailbox] store middle) (once : mailbox ∉ rest)
    (others : CountsUp rest middle after) : CountsUp (mailbox :: rest) store after where
  highestModSeq other := by
    rw [others.highestModSeq, first.highestModSeq]
    by_cases here : other = mailbox
    · subst here
      simp [once]
    · simp [here]
  lastUid := others.lastUid.trans first.lastUid
  elsewhere other apart := by
    have different := List.ne_of_not_mem_cons apart
    exact (others.elsewhere other (List.not_mem_of_not_mem_cons apart)).trans
      (first.elsewhere other (mt List.mem_singleton.mp different))

/-- Removing rows moves no counter. -/
theorem CountsUp.removed {touched : Place → Prop} (counts : CountsUp mailboxes store middle)
    (confined : Confined touched middle after) (drops : (view middle).Drops (view after)) :
    CountsUp mailboxes store after where
  highestModSeq mailbox := by rw [drops.highestModSeq, counts.highestModSeq]
  lastUid := drops.lastUid.trans counts.lastUid
  elsewhere mailbox apart :=
    (congrFun confined.counters mailbox).trans (counts.elsewhere mailbox apart)

theorem CountsUp.of_nextModSeq [RollsBack σ] {modSeq : ModSeq} (sound : isSound store)
    (done : Storage.nextModSeq mailbox store = (.ok modSeq, after)) :
    CountsUp [mailbox] store after := by
  obtain ⟨-, counts⟩ := Revised.nextModSeq mailbox store sound
  have counted := RollsBack.nextModSeq mailbox store
  rw [done] at counts counted
  obtain ⟨next, counts⟩ := counts
  refine ⟨fun other => ?_, ?_, fun other apart => ?_⟩
  · rw [counts]
    by_cases here : other = mailbox
    · subst here
      simp [next]
    · simp [here]
  · rw [counts]
  · exact counted.elsewhere other (mt List.mem_singleton.mpr apart)

/-- Counting up in each of some mailboxes. -/
theorem CountsUp.of_bumpEach [RollsBack σ] (sound : isSound store) (once : mailboxes.Nodup)
    (done : bumpEach mailboxes store = (.ok (), after)) : CountsUp mailboxes store after := by
  induction mailboxes generalizing store with
  | nil =>
    cases done
    exact .refl _
  | cons mailbox rest ih =>
    obtain ⟨modSeq, middle, first, done⟩ := Step.of_bind_eq_ok done
    obtain ⟨notAgain, once⟩ := List.nodup_cons.mp once
    have sound' := (Revised.nextModSeq mailbox store sound).1
    rw [first] at sound'
    exact (CountsUp.of_nextModSeq sound first).cons notAgain (ih sound' once done)

/-- Each of some mailboxes can be counted up in if its counter has a next number. -/
theorem bumpEach_ok_iff [RollsBack σ] [Counts σ] (sound : isSound store) (once : mailboxes.Nodup) :
    (∃ after, bumpEach mailboxes store = (.ok (), after)) ↔
      ∀ mailbox ∈ mailboxes, Counts.hasNext σ ((view store).highestModSeq mailbox) := by
  induction mailboxes generalizing store with
  | nil => exact iff_of_true ⟨store, rfl⟩ (List.forall_mem_nil _)
  | cons mailbox rest ih =>
    obtain ⟨notAgain, once⟩ := List.nodup_cons.mp once
    rw [List.forall_mem_cons, ← Counts.nextModSeq_iff mailbox sound]
    by_cases counted : ∃ modSeq after, Storage.nextModSeq mailbox store = (.ok modSeq, after)
    case neg =>
      refine iff_of_false ?_ fun both => counted both.1
      rintro ⟨after, done⟩
      obtain ⟨modSeq, middle, first, -⟩ := Step.of_bind_eq_ok done
      exact counted ⟨modSeq, middle, first⟩
    rw [and_iff_right counted]
    obtain ⟨modSeq, middle, first⟩ := counted
    have sound' := (Revised.nextModSeq mailbox store sound).1
    rw [first] at sound'
    have run : bumpEach (mailbox :: rest) store = bumpEach rest middle := Step.bind_of_ok first
    rw [run, ih sound' once]
    refine forall₂_congr fun other member => ?_
    have different : other ∉ [mailbox] := by
      rintro (same : other ∈ [mailbox])
      exact notAgain (List.mem_singleton.mp same ▸ member)
    rw [(CountsUp.of_nextModSeq sound first).highestModSeq, if_neg different, Nat.add_zero]

end Counting

/-! ### The two stores -/

/-- In memory every counter has a next number. -/
instance : Counts Memory.Store where
  hasNext _ := True
  nextModSeq_iff mailbox sound := by
    obtain ⟨modSeq, after, counted, -⟩ :=
      Memory.Store.nextModSeq_of_available sound.available mailbox
    exact iff_of_true ⟨modSeq, after, counted⟩ trivial

/-- In the database every counter has a next number below the last one. -/
instance : Counts Database.Store where
  hasNext modSeq := modSeq < maxStored
  nextModSeq_iff {d} mailbox sound := by
    obtain ⟨m, -, mirrors, -⟩ := sound
    have stands := mirrors.highestModSeq mailbox
    have here : (view d).highestModSeq mailbox = (m.countersOf mailbox).highestModSeq :=
      congrFun (congrArg View.highestModSeq mirrors.view_eq) mailbox
    rw [here]
    constructor
    · rintro ⟨modSeq, after, counted⟩
      refine Nat.lt_of_le_of_ne stands.le fun last => ?_
      change Database.Store.nextModSeq mailbox d = _ at counted
      unfold Database.Store.nextModSeq at counted
      rw [mirrors.allocate_eq, stands.bump_of_eq last] at counted
      cases counted
    · intro fits
      obtain ⟨modSeq, _, counted, -⟩ := Memory.Store.nextModSeq_of_available
        (Memory.Store.ensureAvailable_ok.mp mirrors.ensureAvailable) mailbox
      have answer := (mirrors.nextModSeq_agrees fits).answer
      rw [counted] at answer
      exact ⟨modSeq, _, Prod.ext answer rfl⟩

/-- A database counts up as often as it is asked to, as far as there is a next number. What is
linked stays as it is. -/
theorem Database.Store.runUnder_counting {d : Store} {mailbox : MailboxId} (policy : Policy)
    {times : Nat} (sound : d.IsSound)
    (fits : (view d).highestModSeq mailbox + times ≤ maxStored) :
    let after := Call.runUnder (List.replicate times (policy, .nextModSeq mailbox)) d
    (view after).highestModSeq mailbox = (view d).highestModSeq mailbox + times ∧
      after.stock = d.stock := by
  induction times generalizing d with
  | zero => exact ⟨rfl, rfl⟩
  | succ times ih =>
    obtain ⟨modSeq, middle, counted⟩ := (Counts.nextModSeq_iff (σ := Store) mailbox sound).mpr
      (show _ < maxStored from Nat.lt_of_lt_of_le (Nat.lt_add_of_pos_right (Nat.succ_pos _)) fits)
    obtain ⟨sound', linked⟩ : middle.IsSound ∧ d.stock = middle.stock := by
      have kept := Stocked.nextModSeq mailbox d sound
      rwa [counted] at kept
    have counts : middle.view.highestModSeq mailbox = d.view.highestModSeq mailbox + 1 := by
      have counts := (CountsUp.of_nextModSeq (σ := Store) sound counted).highestModSeq mailbox
      rwa [if_pos (List.mem_singleton_self _)] at counts
    have total : middle.view.highestModSeq mailbox + times
        = d.view.highestModSeq mailbox + (times + 1) := by
      rw [counts, Nat.add_assoc, Nat.add_comm 1]
    have run : Call.runUnder (List.replicate (times + 1) (policy, .nextModSeq mailbox)) d
        = Call.runUnder (List.replicate times (policy, .nextModSeq mailbox)) middle :=
      congrArg (fun outcome => Call.runUnder _ outcome.2) counted
    obtain ⟨reached, still⟩ := ih sound' (Nat.le_trans (Nat.le_of_eq total) fits)
    rw [run]
    exact ⟨reached.trans total, still.trans linked.symm⟩

end Mailroom
