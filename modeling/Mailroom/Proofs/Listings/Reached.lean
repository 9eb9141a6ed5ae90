import Mailroom.Proofs.Contents.Origins
import Mailroom.Proofs.Listings.Agreement
import Mailroom.Proofs.Locality
/-!
How stores are read that calls led to.

After any calls on an empty store the rows are where they are looked for, every one of them has a
number that was given out, and all reads of messages are reads of one table
(`Memory.Store.runAll_readsFrom`, `Database.Store.runAll_readsFrom`). If the dates of what was
appended have years of four digits, all rows can be told (`Memory.Store.runAll_isLegible`,
`Database.Store.runAll_isLegible`).
-/

namespace Mailroom

open Service

/-! ### In memory -/

namespace Memory.Store

/-- What every write keeps is kept by calls. -/
theorem runAll_keeps {kept : Store → Prop}
    (keeps : ∀ (write : Write) {m : Store}, kept m → kept (write.run m)) (policy : Policy)
    (calls : List Call) {m : Store} (before : kept m) : kept (Call.runAll policy calls m).2 := by
  have writes : Writes Store (fun _ => True) fun m after => kept m → kept after :=
    writes_of_operations (keeps_chains kept) (.of_writes fun write _ => keeps write)
  exact Call.runAll_within (keeps_chains kept) writes policy (fun _ _ => trivial) m before

theorem new_bare (listBound : Nat) : (new listBound).IsBare := fun _ _ found => nomatch found

variable (policy : Policy) (calls : List Call) (listBound : Nat)

theorem runAll_isSound : (Call.runAll policy calls (new listBound)).2.IsSound :=
  Call.runAll_sound (σ := Store) policy calls (new_isSound listBound)

theorem runAll_isLegible : (Call.runAll policy calls (new listBound)).2.IsLegible where
  available := (runAll_isSound policy calls listBound).available
  keyed := runAll_keeps run_keyed policy calls (new_keyed listBound)
  bare := runAll_keeps run_bare policy calls (new_bare listBound)

theorem runAll_readsFrom :
    let m := (Call.runAll policy calls (new listBound)).2
    ReadsFrom m m.rows m.reader :=
  have legible := runAll_isLegible policy calls listBound
  readsFrom legible.available legible.keyed

/-- Every row has a number that was given out. -/
theorem runAll_uid_pos : ∀ entry ∈ (Call.runAll policy calls (new listBound)).2.rows.entries,
    1 ≤ entry.1.uid := by
  intro entry member
  have traced : (Call.runAll policy calls (new listBound)).2.originAt entry.1
      = some entry.2.origin :=
    congrArg (Option.map Message.origin) (Table.get?_eq_some_iff.mpr member)
  exact run_uid_pos (σ := Store) (new_isSound listBound) (fun _ => rfl) calls _ _ traced

end Memory.Store

/-! ### In the database -/

namespace Database.Store

variable {d : Store}

theorem IsSound.complete (sound : d.IsSound) : d.database.missing = [] := by
  obtain ⟨m, -, mirrors, -⟩ := sound
  exact mirrors.complete

theorem IsSound.unlocked (sound : d.IsSound) : d.lockedOut = false := by
  obtain ⟨m, -, mirrors, -⟩ := sound
  exact mirrors.unlocked

/-- A statement has as many parameters as the engine allows. -/
theorem IsSound.variableLimit (sound : d.IsSound) : d.variableLimit = Mirror.maxVariables := by
  obtain ⟨m, -, mirrors, -⟩ := sound
  exact mirrors.variableLimit

theorem IsSound.carries (sound : d.IsSound) {count : Nat} (few : count ≤ Mirror.maxVariables) :
    count ≤ d.variableLimit := by
  rw [sound.variableLimit]
  exact few

/-- Every row was written for a message. -/
theorem IsSound.encoded (sound : d.IsSound) : d.IsEncoded := by
  obtain ⟨m, -, mirrors, -⟩ := sound
  intro place row found
  rw [mirrors.get?_messages] at found
  obtain ⟨message, stored, rfl⟩ := Option.map_eq_some_iff.mp found
  have fits := mirrors.stored place message stored
  exact ⟨fits.place_eq ▸ fits.uid_le, message, rfl⟩

/-- Every content was packed. -/
theorem IsSound.packed (sound : d.IsSound) {id : MessageId} {stored : StoredContent}
    (found : d.database.contents.get? id = some stored) : ∃ content, stored = .packed content := by
  obtain ⟨m, -, mirrors, -⟩ := sound
  rw [mirrors.get?_contents] at found
  obtain ⟨content, -, rfl⟩ := Option.map_eq_some_iff.mp found
  exact ⟨content, rfl⟩

/-- If the dates of its rows are plain, all of them can be told. -/
theorem IsSound.isLegible (sound : d.IsSound) (plain : d.stock.IsPlain) : d.IsLegible where
  complete := sound.complete
  written place row found := by
    obtain ⟨m, -, mirrors, -⟩ := sound
    rw [mirrors.get?_messages] at found
    obtain ⟨message, stored, rfl⟩ := Option.map_eq_some_iff.mp found
    have fits := mirrors.stored place message stored
    refine ⟨fits.place_eq ▸ fits.uid_le, message, ?_, rfl⟩
    exact mirrors.readable_of_isPlain plain message (Table.mem_values_iff.mpr ⟨place, stored⟩)
  unpacked id stored found := by
    obtain ⟨content, rfl⟩ := sound.packed found
    exact ⟨content, rfl⟩
  carries := sound.carries (by decide)

/-- Keywords are those of rows. -/
theorem IsSound.keyworded (sound : d.IsSound) {place : Place} {keyword : String}
    (listed : (place, keyword) ∈ d.database.keywords) :
    ∃ row, d.database.messages.get? place = some row := by
  obtain ⟨m, -, mirrors, -⟩ := sound
  obtain ⟨row, stored, -⟩ := (mirrors.keywords place keyword).mp listed
  exact ⟨.encode row, by rw [mirrors.get?_messages, stored]; rfl⟩

/-- Every row has an origin. -/
theorem IsSound.traced (sound : d.IsSound) {entry : Place × MessageRow}
    (member : entry ∈ d.database.messages.entries) :
    ∃ origin, d.originAt entry.1 = some origin := by
  have found := Table.get?_eq_some_iff.mpr member
  obtain ⟨-, message, same⟩ := sound.encoded _ _ found
  exact ⟨message.origin, originAt_of_encode (same ▸ found)⟩

variable (policy : Policy) (calls : List Call) (path : String) (listBound : Nat)

theorem runAll_isSound : (Call.runAll policy calls (new path listBound)).2.IsSound :=
  Call.runAll_sound (σ := Store) policy calls (Mirror.new_isSound path listBound)

theorem runAll_readsFrom :
    let d := (Call.runAll policy calls (new path listBound)).2
    ReadsFrom d d.database.messages d.reader :=
  have sound := runAll_isSound policy calls path listBound
  readsFrom sound.complete sound.encoded

theorem runAll_isLegible (plain : ∀ call ∈ calls, call.HasPlainDates) :
    (Call.runAll policy calls (new path listBound)).2.IsLegible := by
  have holds : Holds policy (new path listBound) calls :=
    (Holds.of_nothing (holdsNothing_inDatabase path listBound)).append plain
  exact (runAll_isSound policy calls path listBound).isLegible holds.isPlain

/-- Every row has a number that was given out. -/
theorem runAll_uid_pos :
    ∀ entry ∈ (Call.runAll policy calls (new path listBound)).2.database.messages.entries,
      1 ≤ entry.1.uid := by
  intro entry member
  obtain ⟨origin, traced⟩ := (runAll_isSound policy calls path listBound).traced member
  exact run_uid_pos (σ := Store) (Mirror.new_isSound path listBound) (fun _ => rfl) calls _ _ traced

end Database.Store

end Mailroom
