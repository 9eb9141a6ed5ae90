import Mailroom.Json.Record
import Mailroom.Proofs.Json.Texts
/-!
Records that are read from objects with their members in any order.

Of the members of an object a record keeps those whose names it has (`of?_object`), so neither their
order nor an unknown member counts. `Rearranged` puts the members of a value in any order, at every
depth, and adds further ones; `Reads` says that a reader finds the same in a value however it is
rearranged. A record is read field by field: `required_of_reads` and its neighbours need only a
reader of each field. A record that leaves out standard values `Supplies` its fields all the same.
-/

namespace Mailroom

/-! ### Rearranged values -/

namespace Json

mutual

/-- The same value, with the members of its objects in any order and beside further members. -/
inductive Rearranged : Json → Json → Prop
  | same (value : Json) : Rearranged value value
  | object {fields found others members : List (String × Json)}
      (inner : RearrangedMembers fields found)
      (unknown : ∀ member ∈ others, member.1 ∉ fields.map (·.1))
      (order : members.Perm (found ++ others)) : Rearranged (object fields) (object members)

/-- The same names in the same order, each with the value rearranged. -/
inductive RearrangedMembers : List (String × Json) → List (String × Json) → Prop
  | nil : RearrangedMembers [] []
  | cons {name : String} {value changed : Json} {rest others : List (String × Json)}
      (here : Rearranged value changed) (there : RearrangedMembers rest others) :
      RearrangedMembers ((name, value) :: rest) ((name, changed) :: others)

end

theorem RearrangedMembers.refl (fields : List (String × Json)) :
    RearrangedMembers fields fields := by
  induction fields with
  | nil => exact .nil
  | cons field rest ih => exact .cons (.same field.2) ih

theorem RearrangedMembers.names {fields found : List (String × Json)}
    (inner : RearrangedMembers fields found) : found.map (·.1) = fields.map (·.1) := by
  induction fields generalizing found with
  | nil =>
    cases inner
    rfl
  | cons field rest ih =>
    cases inner with
    | cons here there => rw [List.map_cons, List.map_cons, ih there]

/-- The value of every field is there, rearranged. -/
theorem RearrangedMembers.exists_of_mem {fields found : List (String × Json)} {name : String}
    {value : Json} (inner : RearrangedMembers fields found) (member : (name, value) ∈ fields) :
    ∃ changed, (name, changed) ∈ found ∧ Rearranged value changed := by
  induction fields generalizing found with
  | nil => cases member
  | cons field rest ih =>
    cases inner with
    | cons here there =>
      rcases List.mem_cons.mp member with first | later
      · cases first
        exact ⟨_, List.mem_cons_self, here⟩
      · obtain ⟨changed, mem, inside⟩ := ih there later
        exact ⟨changed, List.mem_cons_of_mem _ mem, inside⟩

/-- An object stays an object with the same fields. -/
theorem Rearranged.exists_of_object {fields : List (String × Json)} {value : Json}
    (h : Rearranged (.object fields) value) :
    ∃ found others members, value = .object members ∧ RearrangedMembers fields found
      ∧ (∀ member ∈ others, member.1 ∉ fields.map (·.1)) ∧ members.Perm (found ++ others) := by
  cases h with
  | same => exact ⟨fields, [], fields, rfl, .refl fields, by simp, by simp⟩
  | object inner unknown order => exact ⟨_, _, _, rfl, inner, unknown, order⟩

/-- A value that is no object stays as it is. -/
theorem Rearranged.eq_of_not_object {value changed : Json} (h : Rearranged value changed)
    (leaf : ∀ fields, value ≠ .object fields) : changed = value := by
  cases h with
  | same => rfl
  | object => exact absurd rfl (leaf _)

/-- A reader finds something in a value, however the value is rearranged. -/
def Reads {α : Type} (read : Json → Option α) (value : Json) (a : α) : Prop :=
  ∀ changed, Rearranged value changed → read changed = some a

variable {α : Type} {read : Json → Option α} {value : Json} {a : α}

theorem Reads.same (reads : Reads read value a) : read value = some a := reads value (.same value)

/-- A value that is no object need only be read as it is. -/
theorem reads_leaf (leaf : ∀ fields, value ≠ object fields) (found : read value = some a) :
    Reads read value a := by
  intro changed h
  rw [h.eq_of_not_object leaf, found]

end Json

/-! ### Records -/

namespace JsonRecord

open Json

variable {α : Type} {names : List String} {given others members : List (String × Json)}
  {record : JsonRecord} {name : String} {value : Json} {read : Json → Option α} {a : α}

/-- A name that occurs once is found where it is. -/
theorem lookup_of_mem (once : (given.map (·.1)).Nodup) (member : (name, value) ∈ given) :
    given.lookup name = some value := by
  induction given with
  | nil => cases member
  | cons field rest ih =>
    obtain ⟨first, once⟩ := List.nodup_cons.mp once
    rcases List.mem_cons.mp member with rfl | later
    · exact List.lookup_cons_self
    · have apart : (name == field.1) = false := by
        rw [beq_eq_false_iff_ne]
        rintro rfl
        exact first (List.mem_map.mpr ⟨_, later, rfl⟩)
      rw [List.lookup_cons, apart]
      exact ih once later

/-- The record of an object has the members whose names are known. -/
theorem of?_object (order : members.Perm (given ++ others)) (once : (given.map (·.1)).Nodup)
    (known : ∀ field ∈ given, field.1 ∈ names) (unknown : ∀ member ∈ others, member.1 ∉ names) :
    ∃ record, of? names (.object members) = some record ∧ record.fields.Perm given := by
  have kept : (members.filter fun m => names.contains m.1).Perm given := by
    have filtered := order.filter fun m => names.contains m.1
    have all : given.filter (fun m => names.contains m.1) = given := by
      rw [List.filter_eq_self]
      intro field member
      simpa using known field member
    have none : others.filter (fun m => names.contains m.1) = [] := by
      rw [List.filter_eq_nil_iff]
      intro field member
      simpa using unknown field member
    rw [List.filter_append, all, none, List.append_nil] at filtered
    exact filtered
  refine ⟨⟨members.filter fun m => names.contains m.1, false⟩, ?_, kept⟩
  rw [of?]
  exact if_pos ((kept.map (·.1)).nodup_iff.mpr once)

/-- A record has a value for each field, however rearranged. -/
def Gives (record : JsonRecord) (fields : List (String × Json)) : Prop :=
  ∀ field ∈ fields, ∃ changed, record.fields.lookup field.1 = some changed
    ∧ Rearranged field.2 changed

/-- An object gives its fields, however it is rearranged. -/
theorem of?_rearranged {fields : List (String × Json)} (once : (fields.map (·.1)).Nodup)
    (h : Rearranged (.object fields) value) :
    ∃ record, of? (fields.map (·.1)) value = some record ∧ record.Gives fields := by
  obtain ⟨found, others, members, rfl, inner, unknown, order⟩ := h.exists_of_object
  have found_once : (found.map (·.1)).Nodup := by
    rw [inner.names]
    exact once
  have known : ∀ field ∈ found, field.1 ∈ fields.map (·.1) := by
    intro field member
    rw [← inner.names]
    exact List.mem_map_of_mem member
  obtain ⟨record, opened, fields_perm⟩ := of?_object order found_once known unknown
  refine ⟨record, opened, ?_⟩
  intro field member
  obtain ⟨changed, mem, inside⟩ := inner.exists_of_mem member
  refine ⟨changed, lookup_of_mem ?_ (fields_perm.mem_iff.mpr mem), inside⟩
  exact (fields_perm.map (·.1)).nodup_iff.mpr found_once

section Fields

variable {fields : List (String × Json)}

theorem required_of_reads (gives : record.Gives fields) (name : String)
    (member : (name, value) ∈ fields) (reads : Reads read value a) :
    record.required name read = some a := by
  obtain ⟨changed, found, inside⟩ := gives _ member
  rw [required, found]
  exact reads changed inside

theorem optional_of_reads {o : Option α} (gives : record.Gives fields) (name : String)
    (member : (name, value) ∈ fields) (reads : Reads (asOption? read) value o) :
    record.optional name read = some o := by
  obtain ⟨changed, found, inside⟩ := gives _ member
  simp only [optional, found]
  exact reads changed inside

theorem withDefault_of_reads (gives : record.Gives fields) (name : String)
    (member : (name, value) ∈ fields) (reads : Reads read value a) (default : α) :
    record.withDefault name read default = some a := by
  obtain ⟨changed, found, inside⟩ := gives _ member
  simp only [withDefault, found]
  exact reads changed inside

end Fields

end JsonRecord

/-! ### Plain values -/

namespace Json

variable {α : Type}

theorem reads_bool (b : Bool) : Reads asBool? (.bool b) b := reads_leaf (by simp) rfl

theorem reads_word {n : Nat} (fits : n ≤ maxWord) : Reads asWord? (.nat n) n :=
  reads_leaf (by simp [nat]) (if_pos fits)

theorem reads_string (text : String) : Reads asString? (.string text) text :=
  reads_leaf (by simp) rfl

theorem reads_nameSet (names : NameSet) : Reads asNameSet? (ofNameSet names) names := by
  refine reads_leaf (by simp [ofNameSet]) ?_
  have items : (names.toList.map string).mapM asString? = some names.toList := by
    induction names.toList with
    | nil => rfl
    | cons name rest ih =>
      rw [List.map_cons, List.mapM_cons, ih]
      rfl
  simp [asNameSet?, ofNameSet, asList?, items]

/-- A word of a vocabulary without repetitions is read back. -/
theorem reads_wordOf [DecidableEq α] {words : List α} {name : α → String}
    (apart : ∀ a ∈ words, ∀ b ∈ words, name a = name b → a = b) {a : α} (member : a ∈ words) :
    Reads (asWordOf? words name) (.string (name a)) a := by
  refine reads_leaf (by simp) ?_
  show (words.find? fun b => name b == name a) = some a
  cases found : words.find? fun b => name b == name a with
  | none =>
    have := List.find?_eq_none.mp found a member
    simp at this
  | some b =>
    have same : name b = name a := by simpa using List.find?_some found
    rw [apart b (List.mem_of_find?_eq_some found) a member same]

/-- What is there is read as it is, if it is not written as null. -/
theorem reads_some {read : Json → Option α} {value : Json} {a : α} (reads : Reads read value a)
    (given : ¬ Rearranged value null) : Reads (asOption? read) value (some a) := by
  intro changed h
  have found := reads changed h
  unfold asOption?
  split
  · exact absurd h given
  · rw [found]
    rfl

theorem reads_none (read : Json → Option α) : Reads (asOption? read) .null none :=
  reads_leaf (by simp) rfl

/-- A value that may be missing is read back, if no value is written as null. -/
theorem reads_option {encode : α → Json} {read : Json → Option α} (o : Option α)
    (reads : ∀ a ∈ o, Reads read (encode a) a) (refused : read null = none) :
    Reads (asOption? read) (option encode o) o := by
  cases o with
  | none => exact reads_none read
  | some a =>
    refine reads_some (reads a rfl) fun missing => ?_
    have found := reads a rfl null missing
    rw [refused] at found
    cases found

/-! ### Texts of plain values -/

@[simp] theorem isPlain_bool (b : Bool) : (bool b).isPlain = true := rfl

@[simp] theorem isPlain_nat (n : Nat) : (nat n).isPlain = true := rfl

@[simp] theorem isPlain_string (text : String) : (string text).isPlain = true := rfl

@[simp] theorem isPlain_ofInstant (t : Instant) : (ofInstant t).isPlain = true := rfl

@[simp] theorem isPlain_ofNameSet (names : NameSet) : (ofNameSet names).isPlain = true := by
  rw [ofNameSet, isPlain]
  induction names.toList with
  | nil => rfl
  | cons name rest ih => simpa [itemsPlain] using ih

theorem isPlain_option {encode : α → Json} (plain : ∀ a, (encode a).isPlain = true)
    (o : Option α) : (option encode o).isPlain = true := by
  cases o with
  | none => rfl
  | some a => exact plain a

@[simp] theorem isPlain_object (members : List (String × Json)) :
    (object members).isPlain = membersPlain members := by
  rw [isPlain]

/-- A set of names is read back from its text. -/
theorem ofText?_ofNameSet (names : NameSet) :
    (ofText? (ofNameSet names).compact).bind asNameSet? = some names := by
  rw [ofText?_compact (isPlain_ofNameSet names)]
  exact (reads_nameSet names).same

end Json

end Mailroom
