import Mailroom.Partition
import Mathlib.Data.List.Nodup
/-!
Lists of row numbers and their partitions.

`sortedUids` lists the same numbers in ascending order, each once (`sortedUids_ascending`,
`mem_sortedUids`), and is the only list that does (`eq_sortedUids`). `chunks` cuts a list into parts
that are no longer than asked for (`length_of_mem_chunks`), keep its order
(`sublist_of_mem_chunks`) and make it up again (`flatten_chunks`). The parts of an ascending list
have no common number (`chunks_apart`), and some of them make up a list that is cut as they were
(`chunks_filter`).
-/

namespace Mailroom

variable {uid other : Uid} {uids : List Uid} {size : Nat}

/-! ### Sorting -/

theorem mem_insertUid : other ∈ insertUid uid uids ↔ other = uid ∨ other ∈ uids := by
  induction uids with
  | nil => simp [insertUid]
  | cons first rest ih =>
    unfold insertUid
    split
    · simp
    · split
      · rename_i same
        subst same
        simp
      · rw [List.mem_cons, ih, List.mem_cons]
        exact or_left_comm

theorem insertUid_ascending (ascending : uids.Pairwise (· < ·)) :
    (insertUid uid uids).Pairwise (· < ·) := by
  induction uids with
  | nil => exact List.pairwise_singleton _ _
  | cons first rest ih =>
    obtain ⟨below, rest_ascending⟩ := List.pairwise_cons.mp ascending
    unfold insertUid
    split
    · rename_i before
      refine List.pairwise_cons.mpr ⟨fun other member => ?_, ascending⟩
      rcases List.mem_cons.mp member with rfl | later
      · exact before
      · exact Nat.lt_trans before (below other later)
    · split
      · exact ascending
      · rename_i not_before different
        refine List.pairwise_cons.mpr ⟨fun other member => ?_, ih rest_ascending⟩
        rcases mem_insertUid.mp member with rfl | later
        · exact Nat.lt_of_le_of_ne (Nat.not_lt.mp not_before) fun same => different same.symm
        · exact below other later

/-- Sorted numbers are ascending, so each is listed once. -/
theorem sortedUids_ascending (uids : List Uid) : (sortedUids uids).Pairwise (· < ·) := by
  induction uids with
  | nil => exact .nil
  | cons uid rest ih => exact insertUid_ascending ih

theorem mem_sortedUids : uid ∈ sortedUids uids ↔ uid ∈ uids := by
  induction uids with
  | nil => exact Iff.rfl
  | cons first rest ih =>
    show uid ∈ insertUid first (sortedUids rest) ↔ _
    rw [mem_insertUid, ih, List.mem_cons]

/-- Numbers that ascend are known by their members. -/
theorem eq_sortedUids (ascending : uids.Pairwise (· < ·)) {others : List Uid}
    (same : ∀ uid, uid ∈ uids ↔ uid ∈ others) : uids = sortedUids others := by
  have sorted := sortedUids_ascending others
  have perm : uids.Perm (sortedUids others) :=
    (List.perm_ext_iff_of_nodup (ascending.imp Nat.ne_of_lt) (sorted.imp Nat.ne_of_lt)).mpr
      fun uid => (same uid).trans mem_sortedUids.symm
  exact perm.eq_of_pairwise (fun _ _ _ _ before after => absurd after (Nat.lt_asymm before))
    ascending sorted

/-- Numbers that ascend are sorted already. -/
theorem sortedUids_of_ascending (ascending : uids.Pairwise (· < ·)) : sortedUids uids = uids :=
  (eq_sortedUids ascending fun _ => Iff.rfl).symm

/-! ### Cutting -/

theorem sublist_of_mem_chunksGo {count : Nat} {part : List Uid}
    (member : part ∈ chunks.go size count uids) : part.Sublist uids ∧ part.length ≤ size := by
  induction count generalizing uids with
  | zero => cases member
  | succ count ih =>
    cases uids with
    | nil => cases member
    | cons uid rest =>
      rcases List.mem_cons.mp member with rfl | later
      · exact ⟨List.take_sublist _ _, List.length_take_le _ _⟩
      · obtain ⟨within, short⟩ := ih later
        exact ⟨within.trans (List.drop_sublist _ _), short⟩

theorem sublist_of_mem_chunks {part : List Uid} (member : part ∈ chunks size uids) :
    part.Sublist uids := (sublist_of_mem_chunksGo member).1

theorem ne_nil_of_mem_chunks (positive : 0 < size) {part : List Uid}
    (member : part ∈ chunks size uids) : part ≠ [] := by
  have cut : ∀ (count : Nat) {uids : List Uid}, part ∈ chunks.go size count uids → part ≠ [] := by
    intro count
    induction count with
    | zero => exact nofun
    | succ count ih =>
      intro uids member
      cases uids with
      | nil => cases member
      | cons uid rest =>
        rcases List.mem_cons.mp member with rfl | later
        · rw [Ne, List.take_eq_nil_iff]
          exact not_or.mpr ⟨Nat.ne_of_gt positive, List.cons_ne_nil _ _⟩
        · exact ih later
  exact cut _ member

theorem length_of_mem_chunks {part : List Uid} (member : part ∈ chunks size uids) :
    part.length ≤ size := (sublist_of_mem_chunksGo member).2

/-- A list that is short enough is a single part. -/
theorem chunks_single (some_uids : uids ≠ []) (single : uids.length ≤ size) :
    chunks size uids = [uids] := by
  cases uids with
  | nil => exact absurd rfl some_uids
  | cons uid rest =>
    show (uid :: rest).take size :: chunks.go size rest.length ((uid :: rest).drop size) = _
    rw [List.take_of_length_le single, List.drop_eq_nil_of_le single]
    cases rest <;> rfl

/-- The parts of a list make up the list. -/
theorem flatten_chunks (positive : 0 < size) : (chunks size uids).flatten = uids := by
  have cut : ∀ (count : Nat) (uids : List Uid), uids.length ≤ count →
      (chunks.go size count uids).flatten = uids := by
    intro count
    induction count with
    | zero =>
      intro uids short
      rw [List.length_eq_zero_iff.mp (Nat.le_zero.mp short)]
      rfl
    | succ count ih =>
      intro uids short
      cases uids with
      | nil => rfl
      | cons uid rest =>
        show (uid :: rest).take size ++ (chunks.go size count ((uid :: rest).drop size)).flatten = _
        rw [ih, List.take_append_drop]
        rw [List.length_drop]
        omega
  exact cut _ _ (Nat.le_refl _)

/-- The parts of an ascending list have no common number. -/
theorem chunks_apart (ascending : uids.Pairwise (· < ·)) :
    (chunks size uids).Pairwise fun part other => ∀ uid ∈ part, uid ∉ other := by
  have cut : ∀ (count : Nat) {uids : List Uid}, uids.Pairwise (· < ·) →
      (chunks.go size count uids).Pairwise fun part other => ∀ uid ∈ part, uid ∉ other := by
    intro count
    induction count with
    | zero => exact fun _ => .nil
    | succ count ih =>
      intro uids ascending
      cases uids with
      | nil => exact .nil
      | cons first rest =>
        have split := ascending
        rw [← List.take_append_drop size (first :: rest)] at split
        obtain ⟨-, dropped, below⟩ := List.pairwise_append.mp split
        refine List.pairwise_cons.mpr ⟨fun part member uid taken within => ?_, ih dropped⟩
        have later := (sublist_of_mem_chunksGo member).1.subset within
        exact Nat.lt_irrefl uid (below uid taken uid later)
  exact cut _ ascending

/-- A list is cut up once there are as many parts to cut off as it has numbers. -/
theorem chunksGo_of_le (positive : 0 < size) {count : Nat} (enough : uids.length ≤ count) :
    chunks.go size count uids = chunks size uids := by
  have cut : ∀ (count other : Nat) (uids : List Uid), uids.length ≤ count → uids.length ≤ other →
      chunks.go size count uids = chunks.go size other uids := by
    intro count
    induction count with
    | zero =>
      intro other uids short _
      rw [List.length_eq_zero_iff.mp (Nat.le_zero.mp short)]
      cases other <;> rfl
    | succ count ih =>
      intro other uids short short'
      cases uids with
      | nil => cases other <;> rfl
      | cons uid rest =>
        obtain ⟨other, rfl⟩ := Nat.exists_eq_add_one_of_ne_zero
          (Nat.ne_of_gt (Nat.lt_of_lt_of_le (Nat.succ_pos _) short'))
        have dropped : ((uid :: rest).drop size).length ≤ rest.length := by
          rw [List.length_drop, List.length_cons]
          omega
        exact congrArg (_ :: ·) (ih other _ (Nat.le_trans dropped (Nat.le_of_succ_le_succ short))
          (Nat.le_trans dropped (Nat.le_of_succ_le_succ short')))
  exact cut count _ uids enough (Nat.le_refl _)

/-- A part that is full is cut off as it stands. -/
theorem chunks_append {part : List Uid} (positive : 0 < size) (full : part.length = size) :
    chunks size (part ++ uids) = part :: chunks size uids := by
  cases part with
  | nil => exact absurd full (Nat.ne_of_lt positive)
  | cons first rest =>
    show (first :: rest ++ uids).take size
        :: chunks.go size (rest ++ uids).length ((first :: rest ++ uids).drop size) = _
    rw [List.take_left' full, List.drop_left' full, chunksGo_of_le positive]
    rw [List.length_append]
    exact Nat.le_add_left _ _

/-- Some of the parts of a list, one after another, are cut into the same parts: all but the last
one of the list are full. -/
theorem chunks_filter (positive : 0 < size) (keep : List Uid → Bool) (uids : List Uid) :
    chunks size ((chunks size uids).filter keep).flatten = (chunks size uids).filter keep := by
  have cut : ∀ (count : Nat) (uids : List Uid), uids.length ≤ count →
      chunks size ((chunks size uids).filter keep).flatten = (chunks size uids).filter keep := by
    intro count
    induction count with
    | zero =>
      intro uids short
      rw [List.length_eq_zero_iff.mp (Nat.le_zero.mp short)]
      rfl
    | succ count ih =>
      intro uids short
      by_cases nothing : uids = []
      · rw [nothing]
        rfl
      by_cases single : uids.length ≤ size
      · rw [chunks_single nothing single, List.filter_singleton]
        cases keep uids with
        | true =>
          show chunks size [uids].flatten = [uids]
          rw [List.flatten_singleton, chunks_single nothing single]
        | false => rfl
      have full : (uids.take size).length = size :=
        List.length_take_of_le (Nat.le_of_not_le single)
      have cuts : chunks size uids = uids.take size :: chunks size (uids.drop size) := by
        rw [← chunks_append positive full, List.take_append_drop]
      have left := ih (uids.drop size) (by rw [List.length_drop]; omega)
      rw [cuts, List.filter_cons]
      split
      · rw [List.flatten_cons, chunks_append positive full, left]
      · exact left
  exact cut _ uids (Nat.le_refl _)

/-- A single part answers for itself. -/
theorem runPartitioned_single {σ α : Type} [BatchOutcome α] {bound : Nat}
    {call : List Uid → Step σ α} (some_uids : uids ≠ []) (single : uids.length ≤ max bound 1)
    (store : σ) : runPartitioned bound call uids store = call uids store := by
  unfold runPartitioned
  rw [if_neg (by rwa [List.isEmpty_iff]), if_pos single]

end Mailroom
