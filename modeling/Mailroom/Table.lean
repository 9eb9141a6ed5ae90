/-!
Finite tables: at most one entry per key, entries in ascending order of their keys.

`get?` is the view through which a table is read; `get?_insert`, `get?_filter` and
`get?_mapValues` say what each operation does to it, and `ext_get?` that nothing else can be
observed of a table.
-/

namespace Mailroom

/-- A finite map from keys to values, listed by ascending key. -/
structure Table (κ α : Type) [Ord κ] where
  entries : List (κ × α)
  ascending : entries.Pairwise fun a b => compare a.1 b.1 = .lt

namespace Table

variable {κ α β : Type} [Ord κ]

/-- The table without entries. -/
def empty : Table κ α := ⟨[], .nil⟩

instance : EmptyCollection (Table κ α) := ⟨empty⟩

instance : Inhabited (Table κ α) := ⟨empty⟩

instance [DecidableEq κ] [DecidableEq α] : DecidableEq (Table κ α) := fun s t =>
  decidable_of_iff (s.entries = t.entries)
    ⟨fun same => by cases s; cases t; simp_all, fun same => by rw [same]⟩

/-- The value stored at a key. -/
def get? [DecidableEq κ] (t : Table κ α) (key : κ) : Option α :=
  (t.entries.find? fun entry => entry.1 = key).map (·.2)

/-- The values, by ascending key. -/
def values (t : Table κ α) : List α := t.entries.map (·.2)

/-- The number of entries. -/
def size (t : Table κ α) : Nat := t.entries.length

/-- The entries that pass a test. -/
def filter (t : Table κ α) (keep : κ → α → Bool) : Table κ α :=
  ⟨t.entries.filter fun entry => keep entry.1 entry.2, t.ascending.filter _⟩

/-- Changes every value and no key. -/
def mapValues (t : Table κ α) (f : κ → α → β) : Table κ β where
  entries := t.entries.map fun entry => (entry.1, f entry.1 entry.2)
  ascending := List.pairwise_map.mpr t.ascending

/-- Puts an entry at its place in an ascending list, replacing one with the same key. -/
def insertAscending (key : κ) (value : α) : List (κ × α) → List (κ × α)
  | [] => [(key, value)]
  | entry :: rest =>
    match compare key entry.1 with
    | .lt => (key, value) :: entry :: rest
    | .eq => (key, value) :: rest
    | .gt => entry :: insertAscending key value rest

theorem mem_insertAscending {key : κ} {value : α} {entries : List (κ × α)} {entry : κ × α}
    (member : entry ∈ insertAscending key value entries) :
    entry = (key, value) ∨ entry ∈ entries := by
  induction entries with
  | nil => exact .inl (List.mem_singleton.mp member)
  | cons first rest ih =>
    unfold insertAscending at member
    split at member
    · exact List.mem_cons.mp member
    · rcases List.mem_cons.mp member with same | member
      · exact .inl same
      · exact .inr (List.mem_cons_of_mem _ member)
    · rcases List.mem_cons.mp member with same | member
      · exact .inr (same ▸ List.mem_cons_self)
      · exact (ih member).imp id (List.mem_cons_of_mem _)

section Order

variable [Std.TransOrd κ] [Std.LawfulEqOrd κ]

theorem insertAscending_ascending {key : κ} {value : α} {entries : List (κ × α)}
    (ascending : entries.Pairwise fun a b => compare a.1 b.1 = .lt) :
    (insertAscending key value entries).Pairwise fun a b => compare a.1 b.1 = .lt := by
  induction entries with
  | nil => simp [insertAscending]
  | cons first rest ih =>
    obtain ⟨below, rest_ascending⟩ := List.pairwise_cons.mp ascending
    unfold insertAscending
    split
    · rename_i before
      refine List.pairwise_cons.mpr ⟨fun other member => ?_, ascending⟩
      rcases List.mem_cons.mp member with rfl | member
      · exact before
      · exact Std.TransCmp.lt_trans before (below other member)
    · rename_i same
      have same : key = first.1 := Std.LawfulEqCmp.eq_of_compare same
      refine List.pairwise_cons.mpr ⟨fun other member => ?_, rest_ascending⟩
      exact same ▸ below other member
    · rename_i after
      refine List.pairwise_cons.mpr ⟨fun other member => ?_, ih rest_ascending⟩
      rcases mem_insertAscending member with rfl | member
      · exact Std.OrientedCmp.gt_iff_lt.mp after
      · exact below other member

/-- Stores a value at a key, in place of the one that was there. -/
def insert (t : Table κ α) (key : κ) (value : α) : Table κ α :=
  ⟨insertAscending key value t.entries, insertAscending_ascending t.ascending⟩

end Order

/-- Removes the entry at one key, if there is one. -/
def erase [DecidableEq κ] (t : Table κ α) (key : κ) : Table κ α :=
  t.filter fun other _ => other ≠ key

/-! ### The view of a table -/

section View

variable [DecidableEq κ]

@[simp] theorem get?_empty {key : κ} : (empty : Table κ α).get? key = none := rfl

theorem get?_mapValues {t : Table κ α} {f : κ → α → β} {key : κ} :
    (t.mapValues f).get? key = (t.get? key).map (f key) := by
  simp only [get?, mapValues]
  induction t.entries with
  | nil => rfl
  | cons entry rest ih =>
    by_cases h : entry.1 = key
    · simp [h]
    · simpa [List.find?_cons, h] using ih

theorem find?_insertAscending [Std.LawfulEqOrd κ] {key other : κ} {value : α}
    {entries : List (κ × α)} :
    (insertAscending key value entries).find? (fun entry => entry.1 = other) =
      if key = other then some (key, value) else entries.find? fun entry => entry.1 = other := by
  induction entries with
  | nil => simp [insertAscending, List.find?_cons]; split <;> simp_all
  | cons first rest ih =>
    unfold insertAscending
    split
    · by_cases h : key = other <;> simp [h]
    · rename_i same
      have same : key = first.1 := Std.LawfulEqCmp.eq_of_compare same
      by_cases h : key = other
      · simp [h]
      · have : first.1 ≠ other := fun eq => h (same.trans eq)
        simp [h, this]
    · rename_i after
      by_cases h : first.1 = other
      · have : key ≠ other := fun eq => by
          rw [eq, ← h, Std.compare_self] at after
          cases after
        simp [h, this]
      · simp only [List.find?_cons, h, decide_false]
        exact ih

variable [Std.TransOrd κ] [Std.LawfulEqOrd κ]

theorem get?_insert {t : Table κ α} {key other : κ} {value : α} :
    (t.insert key value).get? other = if key = other then some value else t.get? other := by
  simp only [get?, insert, find?_insertAscending]
  split <;> rfl

@[simp] theorem get?_insert_self {t : Table κ α} {key : κ} {value : α} :
    (t.insert key value).get? key = some value := by
  rw [get?_insert, if_pos rfl]

omit [Std.TransOrd κ] in
/-- An entry that is listed is the entry found at its key. -/
theorem get?_eq_some_iff {t : Table κ α} {key : κ} {value : α} :
    t.get? key = some value ↔ (key, value) ∈ t.entries := by
  have ascending := t.ascending
  simp only [get?]
  revert ascending
  induction t.entries with
  | nil => simp
  | cons first rest ih =>
    intro ascending
    obtain ⟨below, rest_ascending⟩ := List.pairwise_cons.mp ascending
    by_cases h : first.1 = key
    · simp only [List.find?_cons, h, decide_true, Option.map_some, Option.some.injEq,
        List.mem_cons]
      constructor
      · intro same
        exact .inl (by rw [← h, ← same])
      · rintro (same | member)
        · rw [← same]
        · have later := below _ member
          rw [h, Std.compare_self] at later
          cases later
    · simp only [List.find?_cons, h, decide_false, List.mem_cons]
      refine (ih rest_ascending).trans ?_
      constructor
      · exact .inr
      · rintro (same | member)
        · exact absurd (by rw [← same]) h
        · exact member

omit [Std.TransOrd κ] in
theorem get?_filter {t : Table κ α} {keep : κ → α → Bool} {key : κ} :
    (t.filter keep).get? key = (t.get? key).filter (keep key) := by
  apply Option.ext
  intro value
  rw [get?_eq_some_iff, Option.filter_eq_some_iff, get?_eq_some_iff]
  exact List.mem_filter

omit [Std.TransOrd κ] in
theorem get?_erase {t : Table κ α} {key other : κ} :
    (t.erase key).get? other = if other = key then none else t.get? other := by
  rw [erase, get?_filter]
  split
  · rename_i same
    cases h : t.get? other <;> simp [same]
  · rename_i different
    cases h : t.get? other <;> simp [different]

omit [DecidableEq κ] in
/-- Two ascending lists of entries with the same entries are the same list. -/
theorem eq_of_ascending {xs ys : List (κ × α)}
    (hx : xs.Pairwise fun a b => compare a.1 b.1 = .lt)
    (hy : ys.Pairwise fun a b => compare a.1 b.1 = .lt)
    (same : ∀ entry, entry ∈ xs ↔ entry ∈ ys) : xs = ys := by
  have irrefl (k : κ) : compare k k ≠ .lt := by rw [Std.compare_self]; simp
  induction xs generalizing ys with
  | nil =>
    cases ys with
    | nil => rfl
    | cons y ys => exact absurd ((same y).mpr List.mem_cons_self) List.not_mem_nil
  | cons x xs ih =>
    cases ys with
    | nil => exact absurd ((same x).mp List.mem_cons_self) List.not_mem_nil
    | cons y ys =>
      obtain ⟨x_below, xs_ascending⟩ := List.pairwise_cons.mp hx
      obtain ⟨y_below, ys_ascending⟩ := List.pairwise_cons.mp hy
      have heads : x = y := by
        rcases List.mem_cons.mp ((same x).mp List.mem_cons_self) with eq | in_ys
        · exact eq
        · rcases List.mem_cons.mp ((same y).mpr List.mem_cons_self) with eq | in_xs
          · exact eq.symm
          · exact absurd (Std.TransCmp.lt_trans (x_below y in_xs) (y_below x in_ys)) (irrefl _)
      subst heads
      have tails : xs = ys := ih xs_ascending ys_ascending fun entry => by
        constructor
        · intro member
          rcases List.mem_cons.mp ((same entry).mp (List.mem_cons_of_mem _ member)) with eq | m
          · exact absurd (x_below _ member) (eq ▸ irrefl _)
          · exact m
        · intro member
          rcases List.mem_cons.mp ((same entry).mpr (List.mem_cons_of_mem _ member)) with eq | m
          · exact absurd (y_below _ member) (eq ▸ irrefl _)
          · exact m
      rw [tails]

/-- A table is decided by what is found at each key. -/
theorem ext_get? {s t : Table κ α} (same : ∀ key, s.get? key = t.get? key) : s = t := by
  have entries : s.entries = t.entries := eq_of_ascending s.ascending t.ascending fun entry => by
    have here (t : Table κ α) : entry ∈ t.entries ↔ t.get? entry.1 = some entry.2 :=
      get?_eq_some_iff.symm
    rw [here s, here t, same]
  cases s
  cases t
  simp_all

end View

end Table

end Mailroom
