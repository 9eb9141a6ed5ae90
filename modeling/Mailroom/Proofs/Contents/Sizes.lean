import Mailroom.Proofs.Listings.Reached
/-!
Sizes and contents of rows.

Each row has a size of its own, which is that of the content given to the append that made it. The
content itself is stored once for a message: a row is read in full with the content given to the
first append of its message (`SizesOfAppends`). So the size of a row is the length of its content if
and only if these two appends were given as many octets, and nothing makes sure that they were:
`sizes_ofAppends` says the one of every run, and `longerAgain_misstates` the other of one of them.
-/

namespace Mailroom

open Service

variable {σ ρ : Type}

/-! ### From rows to entries -/

/-- A row that is read in full is decoded from an entry of the table. -/
theorem ReadsFrom.entry [Storage σ] [PureReads σ] {policy : Policy} {store : σ} {t : Table Place ρ}
    {reader : Reader ρ} (reads : ReadsFrom store t reader) {row : Message}
    (isRead : IsReadInFull policy store row) :
    ∃ entry ∈ t.entries, reader.decode .full entry = .ok row := by
  refine isRead.of_operations (P := fun row => ∃ entry ∈ t.entries,
    reader.decode .full entry = .ok row) (fun {mailbox uid row} answered => ?_)
    (fun {mailbox uids rows} answered row member => ?_)
    fun {request rows} answered row member => ?_
  · rw [reads.find] at answered
    cases found : t.get? ⟨mailbox, uid⟩ with
    | none =>
      rw [found] at answered
      cases answered
    | some stored =>
      rw [found] at answered
      have answered : some <$> reader.decode .full (⟨mailbox, uid⟩, stored) = .ok (some row) :=
        answered
      refine ⟨_, Table.get?_eq_some_iff.mp found, ?_⟩
      cases decoded : reader.decode .full (⟨mailbox, uid⟩, stored) with
      | error e =>
        rw [decoded] at answered
        cases answered
      | ok message =>
        rw [decoded] at answered
        cases answered
        rfl
  · rw [reads.fetchBatch] at answered
    obtain ⟨_, -, decoded⟩ := Outcomes.bind_eq_ok.mp answered
    obtain ⟨entry, chosen, same⟩ := (Outcomes.mem_of_mapM_eq_ok decoded).1 row member
    exact ⟨entry, (List.filter_sublist.trans List.filter_sublist).subset chosen, same⟩
  · rw [reads.fetchPage] at answered
    obtain ⟨entry, chosen, same⟩ := (Outcomes.mem_of_mapM_eq_ok answered).1 row member
    exact ⟨entry, Table.onPage_take_subset chosen, same⟩

/-! ### Sizes and contents -/

namespace Service

variable [Storage σ] [Sound σ] [Stocked σ] [Traced σ]

/-- How the sizes and the contents come about of the rows that are read in full. -/
structure SizesOfAppends (policy : Policy) (start : σ) (calls : List Call) : Prop where
  /-- A row has the size of the content that was given to the append that made it. -/
  made : ∀ row, IsReadInFull policy (Call.runAll policy calls start).2 row →
    ∃ position, Made policy start calls row.place row.origin position
  /-- It is read with the content that was given to the first append of its message. -/
  first : ∀ row, IsReadInFull policy (Call.runAll policy calls start).2 row →
    ∃ content position, IsFirst policy start calls row.messageId content position ∧
      row.content = some content
  /-- The size is the length of the content if and only if both were given as many octets. -/
  size_iff : ∀ row, IsReadInFull policy (Call.runAll policy calls start).2 row →
    ∀ {origin maker content position}, Made policy start calls row.place origin maker →
      IsFirst policy start calls row.messageId content position →
        (row.content.map List.length = some row.size ↔ content.length = origin.size)

variable [Revised σ] [PureReads σ] {policy : Policy} {start : σ} {calls : List Call}
  {t : Table Place ρ} {reader : Reader ρ}

/-- Sizes and contents are those of appends, if an entry is decoded to a row of its origin that
shows the content that is stored. -/
theorem sizesOfAppends (nothing : HoldsNothing start) (bare : ∀ place, originAt start place = none)
    (reads : ReadsFrom (Call.runAll policy calls start).2 t reader)
    (decodes : ∀ entry ∈ t.entries, ∀ row, reader.decode .full entry = .ok row →
      originAt (Call.runAll policy calls start).2 entry.1 = some row.origin ∧
        (stock (Call.runAll policy calls start).2).Shows row) :
    SizesOfAppends policy start calls := by
  have made (row : Message) (isRead : IsReadInFull policy (Call.runAll policy calls start).2 row) :
      ∃ position, Made policy start calls row.place row.origin position := by
    obtain ⟨entry, member, decoded⟩ := reads.entry isRead
    rw [reads.place_eq .full entry member row decoded]
    exact run_made nothing.isSound bare calls _ _ (decodes entry member row decoded).1
  have first (row : Message) (isRead : IsReadInFull policy (Call.runAll policy calls start).2 row) :
      ∃ content position, IsFirst policy start calls row.messageId content position ∧
        row.content = some content := by
    obtain ⟨entry, member, decoded⟩ := reads.entry isRead
    obtain ⟨-, shows⟩ := decodes entry member row decoded
    exact ((Recalls.of_nothing nothing).append calls).first_of_shows shows
  refine ⟨made, first, fun row isRead origin maker content position isMaker isFirst => ?_⟩
  obtain ⟨_, isMaker'⟩ := made row isRead
  obtain ⟨_, _, isFirst', same⟩ := first row isRead
  obtain ⟨-, rfl⟩ := isMaker.unique nothing.isSound isMaker'
  obtain ⟨-, rfl⟩ := isFirst.unique isFirst'
  rw [same, Option.map_some, Option.some_inj]
  rfl

end Service

/-! ### In memory -/

namespace Memory.Store

/-- A row in memory is presented with its origin and the content that is stored. -/
theorem present_of_entry {m : Store} {entry : Place × Message} (member : entry ∈ m.rows.entries) :
    m.originAt entry.1 = some (m.present .full entry.2).origin ∧
      m.stock.Shows (m.present .full entry.2) := by
  have found := Table.get?_eq_some_iff.mpr member
  exact ⟨congrArg (Option.map Message.origin) found, present_shows found⟩

end Memory.Store

/-! ### In the database -/

namespace Database.Store

/-- What is unpacked is what was packed. -/
theorem eq_map_packed {stored : Option StoredContent} {content : Option Octets}
    (packed : ∀ {kept}, stored = some kept → ∃ octets, kept = .packed octets)
    (unpacked : stored.map StoredContent.unpack? = content.map some) :
    stored = content.map .packed := by
  cases stored with
  | none =>
    cases content with
    | none => rfl
    | some octets => cases unpacked
  | some kept =>
    obtain ⟨octets, rfl⟩ := packed rfl
    cases content with
    | none => cases unpacked
    | some other =>
      cases unpacked
      rfl

/-- A row of the database is read back with its origin and the content that is stored. -/
theorem IsSound.readEntry_of_entry {d : Store} (sound : d.IsSound) {entry : Place × MessageRow}
    (member : entry ∈ d.database.messages.entries) {row : Message}
    (read : readEntry d.database .full entry = .ok row) :
    d.originAt entry.1 = some row.origin ∧ d.stock.Shows row := by
  obtain ⟨place, stored⟩ := entry
  have found := Table.get?_eq_some_iff.mpr member
  obtain ⟨-, message, rfl⟩ := sound.encoded place stored found
  obtain ⟨sameId, sameSize⟩ := origin_of_readEntry_eq_ok read
  refine ⟨?_, ?_, ?_⟩
  · rw [originAt_of_encode found, Message.origin, Message.origin, sameId, sameSize]
  · rw [sameId]
    exact isLinked_of_encode found
  · rw [readEntry_encode] at read
    show d.database.contents.get? row.messageId = _
    rw [sameId]
    exact eq_map_packed sound.packed (MessageValues.of_read_eq_ok read).content_eq

end Database.Store

/-! ### The two stores -/

namespace Service

/-- In memory and in the database, after any calls, a row that is read in full has the size of the
content that was given to the append that made it, and is read with the content that was given to
the first append of its message. -/
theorem sizes_ofAppends (policy : Policy) (path : String) (listBound : Nat) (calls : List Call) :
    SizesOfAppends policy (Memory.Store.new listBound) calls ∧
      SizesOfAppends policy (Database.Store.new path listBound) calls := by
  constructor
  · refine sizesOfAppends (holdsNothing_inMemory listBound) (fun _ => rfl)
      (Memory.Store.runAll_readsFrom policy calls listBound) fun entry member row decoded => ?_
    cases decoded
    exact Memory.Store.present_of_entry member
  · have sound := Database.Store.runAll_isSound policy calls path listBound
    exact sizesOfAppends (holdsNothing_inDatabase path listBound) (fun _ => rfl)
      (Database.Store.runAll_readsFrom policy calls path listBound)
      fun entry member row => sound.readEntry_of_entry member

/-- A run in which a message is appended again, with more octets. -/
def longerAgain : List Call :=
  [.append "inbox" { id := "m1", content := "hello".toUTF8.toList } .epoch,
    .append "archive" { id := "m1", content := "hello world".toUTF8.toList } .epoch]

/-- The size and the length of the content that the row of the archive is read with. -/
def archivedSize [Storage σ] (start : σ) : Option (Nat × Option Nat) :=
  let store := (Call.runAll ⟨1, none⟩ longerAgain start).2
  (Storage.find "archive" 1 .full store).1.toOption.bind fun found =>
    found.map fun row => (row.size, row.content.map List.length)

/-- The row is one that is read in full after that run. -/
theorem isReadInFull_of_archivedSize [Storage σ] {start : σ} {size : Nat} {length : Option Nat}
    (reads : archivedSize start = some (size, length)) :
    ∃ row, IsReadInFull ⟨1, none⟩ (Call.runAll ⟨1, none⟩ longerAgain start).2 row ∧
      row.size = size ∧ row.content.map List.length = length := by
  obtain ⟨found, answered, shown⟩ := Option.bind_eq_some_iff.mp reads
  obtain ⟨row, rfl, same⟩ := Option.map_eq_some_iff.mp shown
  cases same
  cases answer : (Storage.find "archive" 1 .full
      (Call.runAll ⟨1, none⟩ longerAgain start).2).1 with
  | error e =>
    rw [answer] at answered
    cases answered
  | ok found =>
    rw [answer] at answered
    cases answered
    exact ⟨row, .find answer, rfl, rfl⟩

/-- A row is read in full with 5 octets, and its size is 11. -/
theorem longerAgain_misstates :
    (∃ row, IsReadInFull ⟨1, none⟩
        (Call.runAll ⟨1, none⟩ longerAgain (Memory.Store.new 2)).2 row ∧
      row.size = 11 ∧ row.content.map List.length = some 5) ∧
    ∃ row, IsReadInFull ⟨1, none⟩
        (Call.runAll ⟨1, none⟩ longerAgain (Database.Store.new "mail" 2)).2 row ∧
      row.size = 11 ∧ row.content.map List.length = some 5 :=
  ⟨isReadInFull_of_archivedSize (by decide +kernel),
    isReadInFull_of_archivedSize (by decide +kernel)⟩

end Service

end Mailroom
