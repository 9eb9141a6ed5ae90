/-!
Finite sets of names: user keywords of a message, message identifiers of a change record.

A set is its ascending list of members, so two sets with the same members are equal (`ext`) and
listing a set has one possible order. Membership after each operation is given by `mem_insert`,
`mem_ofList`, `mem_union` and `mem_diff`.
-/

namespace Mailroom

/-- A finite set of names, listed in ascending order of their code points. -/
structure NameSet where
  toList : List String
  ascending : toList.Pairwise (· < ·)
deriving DecidableEq

namespace NameSet

instance : Membership String NameSet := ⟨fun s name => name ∈ s.toList⟩

theorem mem_toList {s : NameSet} {name : String} : name ∈ s.toList ↔ name ∈ s := Iff.rfl

instance (name : String) (s : NameSet) : Decidable (name ∈ s) :=
  inferInstanceAs (Decidable (name ∈ s.toList))

instance : Repr NameSet := ⟨fun s => reprPrec s.toList⟩

/-- The set without members. -/
def empty : NameSet := ⟨[], .nil⟩

instance : EmptyCollection NameSet := ⟨empty⟩

instance : Inhabited NameSet := ⟨empty⟩

/-- Whether there are no names. -/
def isEmpty (s : NameSet) : Bool := s.toList.isEmpty

/-- The number of members. -/
def size (s : NameSet) : Nat := s.toList.length

/-- Puts a name at its place in an ascending list, unless the list has it already. -/
def insertAscending (name : String) : List String → List String
  | [] => [name]
  | first :: rest =>
    if name < first then name :: first :: rest
    else if name = first then first :: rest
    else first :: insertAscending name rest

theorem mem_insertAscending {name other : String} {names : List String} :
    other ∈ insertAscending name names ↔ other = name ∨ other ∈ names := by
  induction names with
  | nil => simp [insertAscending]
  | cons first rest ih =>
    unfold insertAscending
    split
    · simp
    · split
      · rename_i same
        subst same
        simp
      · simp only [List.mem_cons, ih]
        exact or_left_comm

theorem insertAscending_ascending {name : String} {names : List String}
    (ascending : names.Pairwise (· < ·)) : (insertAscending name names).Pairwise (· < ·) := by
  induction names with
  | nil => simp [insertAscending]
  | cons first rest ih =>
    obtain ⟨below, rest_ascending⟩ := List.pairwise_cons.mp ascending
    unfold insertAscending
    split
    · rename_i before
      refine List.pairwise_cons.mpr ⟨fun other member => ?_, ascending⟩
      rcases List.mem_cons.mp member with rfl | member
      · exact before
      · exact String.lt_trans before (below other member)
    · rename_i not_before
      split
      · exact ascending
      · rename_i different
        refine List.pairwise_cons.mpr ⟨fun other member => ?_, ih rest_ascending⟩
        rcases mem_insertAscending.mp member with rfl | member
        · rcases String.le_total first other with le | le
          · exact Classical.byContradiction fun not_lt =>
              different (String.le_antisymm (String.not_lt.mp not_lt) le)
          · exact Classical.byContradiction fun not_lt =>
              different (String.le_antisymm le (String.not_lt.mp not_before))
        · exact below other member

/-- The set with one more member. -/
def insert (s : NameSet) (name : String) : NameSet :=
  ⟨insertAscending name s.toList, insertAscending_ascending s.ascending⟩

/-- The set of the names of a list, in whatever order and however often they are given. -/
def ofList (names : List String) : NameSet := names.foldl insert empty

/-- Every name of either set. -/
def union (s t : NameSet) : NameSet := t.toList.foldl insert s

/-- The members that pass a test. -/
def filter (s : NameSet) (keep : String → Bool) : NameSet :=
  ⟨s.toList.filter keep, s.ascending.filter _⟩

/-- The members of `s` that are not members of `t`. -/
def diff (s t : NameSet) : NameSet := s.filter fun name => !t.toList.contains name

/-- The set without one name. -/
def erase (s : NameSet) (name : String) : NameSet := s.filter (· != name)

/-! ### Members -/

@[simp] theorem not_mem_empty {name : String} : name ∉ empty := List.not_mem_nil

@[simp] theorem mem_insert {s : NameSet} {name other : String} :
    other ∈ s.insert name ↔ other = name ∨ other ∈ s :=
  mem_insertAscending

theorem mem_foldl_insert {names : List String} {s : NameSet} {name : String} :
    name ∈ names.foldl insert s ↔ name ∈ s ∨ name ∈ names := by
  induction names generalizing s with
  | nil => simp
  | cons first rest ih =>
    rw [List.foldl_cons, ih, mem_insert, List.mem_cons, or_left_comm, or_assoc]

@[simp] theorem mem_ofList {names : List String} {name : String} :
    name ∈ ofList names ↔ name ∈ names := by
  simp [ofList, mem_foldl_insert]

@[simp] theorem mem_union {s t : NameSet} {name : String} :
    name ∈ s.union t ↔ name ∈ s ∨ name ∈ t := by
  simp only [union, mem_foldl_insert, mem_toList]

@[simp] theorem mem_filter {s : NameSet} {keep : String → Bool} {name : String} :
    name ∈ s.filter keep ↔ name ∈ s ∧ keep name = true :=
  List.mem_filter

@[simp] theorem mem_diff {s t : NameSet} {name : String} :
    name ∈ s.diff t ↔ name ∈ s ∧ name ∉ t := by
  rw [diff, mem_filter]
  simp [mem_toList]

/-- Two ascending lists with the same members are the same list. -/
theorem eq_of_ascending {xs ys : List String} (hx : xs.Pairwise (· < ·))
    (hy : ys.Pairwise (· < ·)) (same : ∀ name, name ∈ xs ↔ name ∈ ys) : xs = ys := by
  induction xs generalizing ys with
  | nil =>
    cases ys with
    | nil => rfl
    | cons y ys => exact absurd ((same y).mpr List.mem_cons_self) List.not_mem_nil
  | cons x xs ih =>
    cases ys with
    | nil => exact absurd ((same x).mp List.mem_cons_self) List.not_mem_nil
    | cons y ys =>
      obtain ⟨x_below, xs_ascending⟩ := List.pairwise_cons.mp hx
      obtain ⟨y_below, ys_ascending⟩ := List.pairwise_cons.mp hy
      have heads : x = y := by
        rcases List.mem_cons.mp ((same x).mp List.mem_cons_self) with eq | in_ys
        · exact eq
        · rcases List.mem_cons.mp ((same y).mpr List.mem_cons_self) with eq | in_xs
          · exact eq.symm
          · exact absurd (x_below y in_xs) (String.lt_asymm (y_below x in_ys))
      subst heads
      have tails : xs = ys := ih xs_ascending ys_ascending fun name => by
        constructor
        · intro member
          rcases List.mem_cons.mp ((same name).mp (List.mem_cons_of_mem _ member)) with rfl | m
          · exact absurd (x_below _ member) (String.lt_irrefl _)
          · exact m
        · intro member
          rcases List.mem_cons.mp ((same name).mpr (List.mem_cons_of_mem _ member)) with rfl | m
          · exact absurd (y_below _ member) (String.lt_irrefl _)
          · exact m
      rw [tails]

/-- A set is decided by its members. -/
@[ext] theorem ext {s t : NameSet} (same : ∀ name, name ∈ s ↔ name ∈ t) : s = t := by
  cases s with
  | mk xs hx =>
    cases t with
    | mk ys hy =>
      have : xs = ys := eq_of_ascending hx hy same
      subst this
      rfl

@[simp] theorem ofList_toList (s : NameSet) : ofList s.toList = s := by
  ext name
  simp [mem_toList]

end NameSet

end Mailroom
