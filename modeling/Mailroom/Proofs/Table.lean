import Mailroom.Table
/-!
Tables under a change of their values, and the part of a table that is named by a list of keys.

`filter_mapValues` and `mapValues_insert` move a change of values past the other operations;
`entries_filter_keys` lists the entries at ascending keys in the order of the keys;
`entries_filter_insert_last` puts an entry after all others that are chosen. A table under other
keys, in the same order, follows the operations as well (`entries_insert_of_map`,
`entries_filter_of_map`).
-/

namespace Mailroom.Table

variable {κ α β γ : Type} [Ord κ]

theorem ext_entries {s t : Table κ α} (same : s.entries = t.entries) : s = t := by
  cases s
  cases t
  simp_all

/-! ### Changing values -/

@[simp] theorem entries_mapValues {t : Table κ α} {f : κ → α → β} :
    (t.mapValues f).entries = t.entries.map fun entry => (entry.1, f entry.1 entry.2) := rfl

@[simp] theorem entries_filter {t : Table κ α} {keep : κ → α → Bool} :
    (t.filter keep).entries = t.entries.filter fun entry => keep entry.1 entry.2 := rfl

@[simp] theorem size_mapValues {t : Table κ α} {f : κ → α → β} : (t.mapValues f).size = t.size := by
  simp [size]

theorem values_mapValues {t : Table κ α} {f : α → β} :
    (t.mapValues fun _ => f).values = t.values.map f := by
  simp [values]

theorem filter_mapValues {t : Table κ α} {f : κ → α → β} {keep : κ → β → Bool} :
    (t.mapValues f).filter keep = (t.filter fun key value => keep key (f key value)).mapValues f :=
  ext_entries (by simp [List.filter_map, Function.comp_def])

theorem mapValues_mapValues {t : Table κ α} {f : κ → α → β} {g : κ → β → γ} :
    (t.mapValues f).mapValues g = t.mapValues fun key value => g key (f key value) :=
  ext_entries (by simp)

theorem mapValues_congr {t : Table κ α} {f g : κ → α → β}
    (same : ∀ entry ∈ t.entries, f entry.1 entry.2 = g entry.1 entry.2) :
    t.mapValues f = t.mapValues g :=
  ext_entries (List.map_congr_left fun entry member => by rw [same entry member])

/-! ### Choosing entries -/

theorem filter_congr {t : Table κ α} {keep other : κ → α → Bool}
    (same : ∀ entry ∈ t.entries, keep entry.1 entry.2 = other entry.1 entry.2) :
    t.filter keep = t.filter other :=
  ext_entries (List.filter_congr same)

theorem filter_eq_self {t : Table κ α} {keep : κ → α → Bool}
    (all : ∀ entry ∈ t.entries, keep entry.1 entry.2 = true) : t.filter keep = t :=
  ext_entries (List.filter_eq_self.mpr all)

theorem filter_filter {t : Table κ α} {keep other : κ → α → Bool} :
    (t.filter keep).filter other = t.filter fun key value => keep key value && other key value :=
  ext_entries (by simp [List.filter_filter, Bool.and_comm])

/-- The values that pass a test, if the test can be made on the value alone. -/
theorem values_filter {t : Table κ α} {keep : κ → α → Bool} {test : α → Bool}
    (same : ∀ entry ∈ t.entries, keep entry.1 entry.2 = test entry.2) :
    (t.filter keep).values = t.values.filter test := by
  unfold values
  rw [entries_filter, List.filter_map]
  exact congrArg _ (List.filter_congr same)

section View

variable [DecidableEq κ] [Std.TransOrd κ] [Std.LawfulEqOrd κ]

theorem mapValues_insert {t : Table κ α} {f : κ → α → β} {key : κ} {value : α} :
    (t.insert key value).mapValues f = (t.mapValues f).insert key (f key value) := by
  apply ext_get?
  intro other
  rw [get?_mapValues, get?_insert, get?_insert, get?_mapValues]
  split
  · rename_i same
    subst same
    rfl
  · rfl

theorem map_get?_insert {t : Table κ α} {key other : κ} {value : α} {f : α → β} :
    ((t.insert key value).get? other).map f
      = if other = key then some (f value) else (t.get? other).map f := by
  rw [get?_insert]
  by_cases same : other = key
  · rw [if_pos same, if_pos same.symm]
    rfl
  · rw [if_neg same, if_neg (Ne.symm same)]

omit [Std.TransOrd κ] in
/-- An entry of a table is chosen, or dropped. -/
theorem get?_filter_or {t : Table κ α} (keep : κ → α → Bool) (key : κ) :
    (t.filter keep).get? key = t.get? key ∨ (t.filter keep).get? key = none := by
  rw [get?_filter]
  cases t.get? key with
  | none => exact .inl rfl
  | some value =>
    rw [Option.filter_some]
    split
    · exact .inl rfl
    · exact .inr rfl

omit [Std.TransOrd κ] in
theorem mem_values_iff {t : Table κ α} {value : α} :
    value ∈ t.values ↔ ∃ key, t.get? key = some value := by
  simp only [values, List.mem_map, get?_eq_some_iff]
  constructor
  · rintro ⟨⟨key, _⟩, member, rfl⟩
    exact ⟨key, member⟩
  · rintro ⟨key, member⟩
    exact ⟨_, member, rfl⟩

omit [DecidableEq κ] [Std.TransOrd κ] [Std.LawfulEqOrd κ] in
/-- Keys that were chosen in ascending order stay in that order. -/
theorem ascending_filterMap {keys : List κ} {f : κ → Option α}
    (ascending : keys.Pairwise fun a b => compare a b = .lt) :
    (keys.filterMap fun key => (f key).map (key, ·)).Pairwise fun a b =>
      compare a.1 b.1 = .lt := by
  rw [List.pairwise_filterMap]
  refine ascending.imp ?_
  intro a b before x found y found'
  obtain ⟨_, _, rfl⟩ := Option.map_eq_some_iff.mp found
  obtain ⟨_, _, rfl⟩ := Option.map_eq_some_iff.mp found'
  exact before

/-- The entries at some ascending keys, in the order of the keys. -/
theorem entries_filter_keys {t : Table κ α} {keys : List κ} (keep : κ → α → Bool)
    (ascending : keys.Pairwise fun a b => compare a b = .lt)
    (named : ∀ entry ∈ t.entries, keep entry.1 entry.2 = true ↔ entry.1 ∈ keys) :
    (t.filter keep).entries = keys.filterMap fun key => (t.get? key).map (key, ·) := by
  refine eq_of_ascending (t.filter keep).ascending (ascending_filterMap ascending) ?_
  rintro ⟨key, value⟩
  rw [entries_filter, List.mem_filter, List.mem_filterMap]
  constructor
  · rintro ⟨member, kept⟩
    exact ⟨key, (named _ member).mp kept, by rw [get?_eq_some_iff.mpr member]; rfl⟩
  · rintro ⟨other, chosen, found⟩
    obtain ⟨_, here, same⟩ := Option.map_eq_some_iff.mp found
    cases same
    have member := get?_eq_some_iff.mp here
    exact ⟨member, (named _ member).mpr chosen⟩

/-- The entry at one key. -/
theorem entries_filter_key {t : Table κ α} {key : κ} :
    (t.filter fun other _ => decide (other = key)).entries
      = (t.get? key).toList.map (key, ·) := by
  rw [entries_filter_keys _ (List.pairwise_singleton _ key)
    (fun entry _ => by rw [decide_eq_true_eq, List.mem_singleton])]
  cases found : t.get? key <;> simp [found]

/-- An entry that comes after the chosen ones is chosen last. -/
theorem entries_filter_insert_last {t : Table κ α} {keep : κ → α → Bool} {key : κ} {value : α}
    (kept : keep key value = true)
    (last : ∀ entry ∈ (t.filter keep).entries, compare entry.1 key = .lt) :
    ((t.insert key value).filter keep).entries = (t.filter keep).entries ++ [(key, value)] := by
  refine eq_of_ascending ((t.insert key value).filter keep).ascending ?_ ?_
  · rw [List.pairwise_append]
    refine ⟨(t.filter keep).ascending, List.pairwise_singleton _ _, ?_⟩
    intro entry member other single
    rw [List.mem_singleton.mp single]
    exact last entry member
  · rintro ⟨other, found⟩
    rw [← get?_eq_some_iff, get?_filter, get?_insert, List.mem_append, List.mem_singleton,
      ← get?_eq_some_iff, get?_filter]
    by_cases same : key = other
    · subst same
      have none : (t.get? key).filter (keep key) = none := by
        refine Option.eq_none_iff_forall_ne_some.mpr fun value present => ?_
        have before := last (key, value) (get?_eq_some_iff.mp (by rw [get?_filter, present]))
        rw [Std.compare_self] at before
        cases before
      rw [if_pos rfl, none, Option.filter_some, if_pos kept]
      simp [eq_comm]
    · rw [if_neg same]
      simp [Ne.symm same]

/-- An entry that is not chosen does not matter to those that are. -/
theorem filter_insert_of_not {t : Table κ α} {keep : κ → α → Bool} {key : κ} {value : α}
    (dropped : ∀ value, keep key value = false) :
    (t.insert key value).filter keep = t.filter keep := by
  refine ext_get? fun other => ?_
  rw [get?_filter, get?_filter, get?_insert]
  split
  · rename_i same
    subst same
    rw [Option.filter_some, dropped]
    cases t.get? key with
    | none => rfl
    | some found =>
      rw [Option.filter_some, dropped]
      rfl
  · rfl

end View

/-! ### Other keys -/

section Keys

variable {κ' : Type} [Ord κ']

/-- Choosing the images of what is chosen. -/
theorem entries_filter_of_map {t : Table κ α} {u : Table κ' β} {f : κ × α → κ' × β}
    (image : u.entries = t.entries.map f) {keep : κ → α → Bool} {keep' : κ' → β → Bool}
    (same : ∀ entry ∈ t.entries, keep' (f entry).1 (f entry).2 = keep entry.1 entry.2) :
    (u.filter keep').entries = (t.filter keep).entries.map f := by
  rw [entries_filter, image, List.filter_map, entries_filter]
  exact congrArg _ (List.filter_congr same)

variable [Std.TransOrd κ] [Std.LawfulEqOrd κ] [Std.TransOrd κ'] [Std.LawfulEqOrd κ']

/-- Storing under the other key, if the keys have the same order. -/
theorem entries_insert_of_map {t : Table κ α} {u : Table κ' β} {f : κ → κ'} {g : α → β}
    (ordered : ∀ a b, compare (f a) (f b) = compare a b)
    (image : u.entries = t.entries.map fun entry => (f entry.1, g entry.2)) (key : κ) (value : α) :
    (u.insert (f key) (g value)).entries
      = (t.insert key value).entries.map fun entry => (f entry.1, g entry.2) := by
  show insertAscending (f key) (g value) u.entries = (insertAscending key value t.entries).map _
  rw [image]
  induction t.entries with
  | nil => rfl
  | cons first rest ih =>
    rw [List.map_cons]
    unfold insertAscending
    rw [ordered]
    split
    · rfl
    · rfl
    · rw [ih, List.map_cons]

end Keys

end Mailroom.Table
