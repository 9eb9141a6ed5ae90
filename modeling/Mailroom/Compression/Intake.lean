import Mailroom.Ident
/-!
Taking octets from the front of a text of octets, as the parts of a compressed frame are read.

Main fact: what is taken and what is left are together what there was (`take_eq`).
-/

namespace Mailroom.Compression

/-- A step that takes octets from the front, or finds them unfit. -/
abbrev Intake (α : Type) := StateT Octets Option α

/-- The number written by octets, the least significant first. -/
def littleEndian (octets : Octets) : Nat :=
  octets.foldr (fun octet n => octet.toNat + 256 * n) 0

namespace Intake

/-- Refuses the octets. -/
def refuse {α : Type} : Intake α := fun _ => none

/-- Goes on only if a condition holds. -/
def ensure (condition : Bool) : Intake Unit := if condition then pure () else refuse

/-- Goes on with a value, if there is one. -/
def ofOption {α : Type} : Option α → Intake α
  | some value => pure value
  | none => refuse

/-- Takes so many octets. -/
def take (count : Nat) : Intake Octets := fun octets =>
  if (octets.take count).length = count then
    some (octets.take count, octets.drop count)
  else
    none

/-- Takes all octets that are left. -/
def rest : Intake Octets := fun octets => some (octets, [])

/-- Takes a number that fills so many octets. -/
def number (count : Nat) : Intake Nat := littleEndian <$> take count

/-- The next octet, which is left where it is. -/
def next : Intake UInt8 := fun octets => octets.head?.map (·, octets)

/-- Whether no octets are left. -/
def atEnd : Intake Bool := fun octets => some (octets.isEmpty, octets)

/-- What is taken and what is left are together what there was. -/
theorem take_eq {count : Nat} {octets taken left : Octets}
    (h : (take count).run octets = some (taken, left)) :
    taken.length = count ∧ taken ++ left = octets := by
  simp only [take, StateT.run] at h
  split at h
  · simp only [Option.some.injEq, Prod.mk.injEq] at h
    obtain ⟨rfl, rfl⟩ := h
    exact ⟨by assumption, List.take_append_drop _ _⟩
  · contradiction

/-- Fewer octets than are to be taken are unfit. -/
theorem take_eq_none {count : Nat} {octets : Octets} (h : octets.length < count) :
    (take count).run octets = none := by
  simp only [take, StateT.run, List.length_take]
  split
  · omega
  · rfl

/-- Fewer octets than a number fills are unfit. -/
theorem number_eq_none {count : Nat} {octets : Octets} (h : octets.length < count) :
    (number count).run octets = none := by
  have unfit := take_eq_none h
  simp only [number, StateT.run_map, unfit]
  rfl

end Intake

end Mailroom.Compression
