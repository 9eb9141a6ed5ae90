import Mailroom.Proofs.Memory.Writes
import Mailroom.Proofs.Mirror.Relation
/-!
Writing a new row in memory and in the database.

`insert_agrees` needs numbers that fit, except for the size, which both refuse alike, and dates that
the database has as they are; in a regular pair of stores it needs plain dates too. `insert_follows`
needs nothing: the database follows the store in memory to which the dates come as they are written.
-/

namespace Mailroom.Mirror

open Database (MessageRow)
open Memory (contentsWith)

variable {regular : Prop} {log : Log} {m : Memory.Store} {d : Database.Store}

/-! ### Keywords -/

/-- The keywords after some were added to a message. -/
theorem insertKeywords_eq (db : Database)
    (exist : Database.requireRelations db [.keywords] = .ok ()) (place : Place) (added : NameSet) :
    ∃ keywords, Database.insertKeywords db place added = .ok { db with keywords } ∧
      ∀ other keyword, (other, keyword) ∈ keywords ↔
        (other, keyword) ∈ db.keywords ∨ other = place ∧ keyword ∈ added := by
  refine ⟨_, by
    unfold Database.insertKeywords
    rw [exist]
    rfl, ?_⟩
  intro other keyword
  rw [List.mem_append]
  simp only [List.mem_map, List.mem_filter, Prod.mk.injEq, Bool.not_eq_true',
    List.contains_eq_mem, decide_eq_false_iff_not]
  constructor
  · rintro (old | ⟨new, ⟨member, -⟩, rfl, rfl⟩)
    · exact .inl old
    · exact .inr ⟨rfl, member⟩
  · rintro (old | ⟨rfl, member⟩)
    · exact .inl old
    · by_cases old : (other, keyword) ∈ db.keywords
      · exact .inl old
      · exact .inr ⟨keyword, ⟨member, old⟩, rfl, rfl⟩

/-! ### Contents -/

/-- The same contents are stored in memory and in the database. -/
theorem contentsWith_mapValues {contents : Table MessageId Octets} {message : Message} :
    contentsWith Database.StoredContent.packed (contents.mapValues fun _ => .packed) message
      = (contentsWith id contents message).mapValues fun _ => .packed := by
  unfold contentsWith
  rw [Table.get?_mapValues]
  cases message.content with
  | none => rfl
  | some content =>
    cases contents.get? message.messageId with
    | some _ => rfl
    | none => exact Table.mapValues_insert.symm

/-- Storing the content of a message in a database. -/
theorem storeContent_eq (db : Database) (complete : db.missing = []) (message : Message) :
    (match message.content with
      | none => pure db
      | some content => do
        Database.requireRelations db [.contents]
        if (db.contents.get? message.messageId).isSome then return db
        return { db with contents := db.contents.insert message.messageId (.packed content) })
      = (.ok { db with contents := contentsWith .packed db.contents message } :
        Except StoreError Database) := by
  unfold contentsWith
  cases message.content with
  | none => rfl
  | some content =>
    simp only [requireRelations_of_complete complete, Outcomes.ok_bind]
    cases db.contents.get? message.messageId <;> rfl

namespace Mirrors

/-- No message has keywords before it is written. -/
theorem no_keywords (mirrors : Mirrors regular log m d) {place : Place}
    (free : m.rows.get? place = none) (keyword : String) :
    (place, keyword) ∉ d.database.keywords := by
  intro listed
  obtain ⟨row, found, -⟩ := (mirrors.keywords _ _).mp listed
  rw [free] at found
  cases found

/-- What writing a row at a free place leaves in the database. The statement that adds keywords is
passed over if it was compiled before and there are none. -/
theorem insertRow_eq (mirrors : Mirrors regular log m d) {message : Message} (row : MessageRow)
    (free : m.rows.get? message.place = none) :
    ∃ keywords, d.insertRow message row = .ok { d.database with
        messages := d.database.messages.insert message.place row
        keywords
        contents := contentsWith .packed d.database.contents message } ∧
      ∀ other keyword, (other, keyword) ∈ keywords ↔
        (other, keyword) ∈ d.database.keywords
          ∨ other = message.place ∧ keyword ∈ message.flags.keywords := by
  have absent : d.database.messages.get? message.place = none := by
    rw [mirrors.get?_messages, free]
    rfl
  unfold Database.Store.insertRow
  simp only [mirrors.requireRelations, absent, Outcomes.ok_bind, Option.isSome_none,
    Bool.false_eq_true, reduceIte]
  by_cases empty : (d.isKeywordCompiled && message.flags.keywords.isEmpty) = true
  · refine ⟨d.database.keywords, ?_, fun other keyword => ?_⟩
    · simp only [empty, reduceIte]
      exact storeContent_eq { d.database with
        messages := d.database.messages.insert message.place row } mirrors.complete message
    · have absent : keyword ∉ message.flags.keywords := by
        rw [← NameSet.mem_toList, List.isEmpty_iff.mp (Bool.and_eq_true_iff.mp empty).2]
        exact List.not_mem_nil
      simp [absent]
  · obtain ⟨keywords, added, listed⟩ := insertKeywords_eq
      { d.database with messages := d.database.messages.insert message.place row }
      (mirrors.requireRelations _) message.place message.flags.keywords
    refine ⟨keywords, ?_, listed⟩
    simp only [empty, added, Outcomes.ok_bind, Bool.false_eq_true, reduceIte]
    exact storeContent_eq { d.database with
      messages := d.database.messages.insert message.place row
      keywords } mirrors.complete message

/-- A row may be written in both stores, with its keywords. -/
theorem setRow (mirrors : Mirrors regular log m d) (place : Place) (row : Message)
    (stored : Stored place row) (plain : regular → row.HasPlainDates)
    {keywords : List (Place × String)}
    (here : ∀ keyword, (place, keyword) ∈ keywords ↔ keyword ∈ row.flags.keywords)
    (elsewhere : ∀ other keyword, other ≠ place →
      ((other, keyword) ∈ keywords ↔ (other, keyword) ∈ d.database.keywords)) :
    Mirrors regular log { m with rows := m.rows.insert place row }
      { d with database := { d.database with
          messages := d.database.messages.insert place (.encode row)
          keywords } } :=
  { mirrors with
    messages := by
      rw [Table.mapValues_insert, mirrors.messages]
    keywords := fun other keyword => by
      rw [Table.get?_insert]
      by_cases same : place = other
      · subst same
        rw [here]
        simp
      · rw [elsewhere other keyword fun h => same h.symm, if_neg same]
        exact mirrors.keywords other keyword
    stored := fun other row' found => by
      rw [Table.get?_insert] at found
      split at found
      · rename_i same
        cases found
        exact same ▸ stored
      · exact mirrors.stored other row' found
    readable := fun proper row' member => by
      obtain ⟨other, found⟩ := Table.mem_values_iff.mp member
      rw [Table.get?_insert] at found
      split at found
      · cases found
        exact plain proper
      · exact mirrors.readable proper row' (Table.mem_values_iff.mpr ⟨other, found⟩) }

/-- A row that is written in both stores is a row of both. -/
theorem inserted (mirrors : Mirrors regular log m d) {message : Message}
    (free : m.rows.get? message.place = none) (uid : message.uid ≤ maxStored)
    (modSeq : message.modSeq ≤ maxStored) (size : message.size ≤ maxStored)
    (seconds : message.HasPlainSeconds) (plain : regular → message.HasPlainDates) {keywords : List (Place × String)}
    (listed : ∀ other keyword, (other, keyword) ∈ keywords ↔
      (other, keyword) ∈ d.database.keywords
        ∨ other = message.place ∧ keyword ∈ message.flags.keywords) :
    Mirrors regular log { m with
        rows := m.rows.insert message.place message.withoutContent
        contents := contentsWith id m.contents message }
      { d with database := { d.database with
          messages := d.database.messages.insert message.place (.encode message)
          keywords
          contents := contentsWith .packed d.database.contents message } } :=
  { mirrors.setRow message.place message.withoutContent
      ⟨rfl, rfl, uid, modSeq, size, seconds⟩ plain
      (fun keyword => by
        rw [listed]
        simp [mirrors.no_keywords free keyword, Message.withoutContent])
      (fun other keyword different => by
        rw [listed]
        simp [different]) with
    contents := by
      rw [mirrors.contents, contentsWith_mapValues] }

theorem insert_memory (mirrors : Mirrors regular log m d) {message : Message}
    (uid : message.uid ≤ maxStored) (modSeq : message.modSeq ≤ maxStored)
    (size : message.size ≤ maxStored) (free : m.rows.get? message.place = none) :
    m.insert message = .ok ((), { m with
      rows := m.rows.insert message.place message.withoutContent
      contents := contentsWith id m.contents message }) := by
  unfold Memory.Store.insert Memory.Store.checkStorable contentsWith
  simp only [if_pos uid, if_pos modSeq, if_pos size, mirrors.ensureAvailable, free,
    Outcomes.ok_bind, Option.isSome_none, Bool.false_eq_true, reduceIte]
  cases message.content <;> cases m.contents.get? message.messageId <;> rfl

/-- Once the numbers of a message were found to fit, it is written in one transaction. -/
theorem insert_database {message : Message} (uid : message.uid ≤ maxStored)
    (modSeq : message.modSeq ≤ maxStored) (size : message.size ≤ maxStored) :
    ∃ compiled, Database.Store.insert message d =
      Database.Store.transaction (fun store => do
        let db ← store.insertRow message (.encode message)
        return ((), db)) { d with isKeywordCompiled := compiled } := by
  have passed : Database.Store.insert message = (do
      Database.Store.compileKeyword fun db => (db.messages.get? message.place).isNone
      Database.Store.transaction fun store => do
        let db ← store.insertRow message (.encode message)
        return ((), db)) := by
    unfold Database.Store.insert
    rw [Database.storable_of_le uid, Step.check_ok_bind, MessageRow.ofMessage_of_le modSeq size,
      Step.check_ok_bind]
  exact ⟨_, (congrFun passed d).trans rfl⟩

theorem insert_agrees (mirrors : Mirrors regular log m d) {message : Message}
    (modSeq : message.modSeq ≤ maxStored) (seconds : message.HasPlainSeconds)
    (plain : regular → message.HasPlainDates) :
    Agrees regular log (Storage.insert message) (Storage.insert message) m d := by
  show Agrees regular log (.write (Memory.Store.insert message)) (Database.Store.insert message) m d
  by_cases uid : message.uid ≤ maxStored
  case neg =>
    have left : m.insert message = .error (.invalidInput (.tooGreat .uid message.uid)) := by
      unfold Memory.Store.insert Memory.Store.checkStorable
      rw [if_neg uid]
      rfl
    refine mirrors.agrees_of_fail left ?_
    unfold Database.Store.insert
    rw [Database.storable_of_gt (Nat.not_le.mp uid), Step.check_error_bind]
  by_cases size : message.size ≤ maxStored
  case neg =>
    have left : m.insert message = .error (.invalidInput (.tooGreat .size message.size)) := by
      unfold Memory.Store.insert Memory.Store.checkStorable
      rw [if_pos uid, if_neg size]
      rfl
    refine mirrors.agrees_of_fail left ?_
    unfold Database.Store.insert
    rw [Database.storable_of_le uid, Step.check_ok_bind,
      MessageRow.ofMessage_of_gt modSeq (Nat.not_le.mp size), Step.check_error_bind]
  obtain ⟨compiled, right⟩ := insert_database (d := d) uid modSeq size
  have compiledMirrors := mirrors.compiled compiled
  refine .of_eq right ?_
  cases free : m.rows.get? message.place with
  | some row =>
    refine compiledMirrors.agrees_of_error
      (e := .alreadyExists (.message message.mailbox message.uid)) ?_ ?_
    · unfold Memory.Store.insert Memory.Store.checkStorable
      rw [if_pos uid, if_pos modSeq, if_pos size, mirrors.ensureAvailable]
      simp only [Outcomes.ok_bind, free]
      rfl
    · have taken : d.database.messages.get? message.place = some (.encode row) := by
        rw [mirrors.get?_messages, free]
        rfl
      unfold Database.Store.insertRow
      simp only [mirrors.requireRelations, taken, Outcomes.ok_bind]
      rfl
  | none =>
    obtain ⟨keywords, done, listed⟩ := compiledMirrors.insertRow_eq (.encode message) free
    refine compiledMirrors.agrees_of_ok (mirrors.insert_memory uid modSeq size free) ?_
      (compiledMirrors.inserted free uid modSeq size seconds plain listed)
    rw [done]
    rfl

/-- A modification sequence that is too great is refused before anything is written. -/
theorem insert_of_great {message : Message} (great : ¬ message.modSeq ≤ maxStored)
    (d : Database.Store) :
    ∃ refusal, Storage.insert message d = (.error (.invalidInput refusal), d) := by
  have refused : Database.storable .modSeq message.modSeq = _ :=
    Database.storable_of_gt (Nat.not_le.mp great)
  show ∃ refusal, Database.Store.insert message d = _
  unfold Database.Store.insert MessageRow.ofMessage
  rw [refused]
  by_cases uid : message.uid ≤ maxStored
  · rw [Database.storable_of_le uid]
    exact ⟨_, rfl⟩
  · rw [Database.storable_of_gt (Nat.not_le.mp uid)]
    exact ⟨_, rfl⟩

/-- A database has no more of a date than its text. -/
theorem insert_asWritten (message : Message) :
    (Storage.insert message.asWritten : Step Database.Store Unit) = Storage.insert message := by
  show Database.Store.insert message.asWritten = Database.Store.insert message
  unfold Database.Store.insert
  rw [MessageRow.ofMessage_asWritten]
  rfl

theorem insert_follows (mirrors : Mirrors False log m d) (message : Message) :
    Follows False log (Storage.insert message.asWritten) (Storage.insert message) m d := by
  rw [← insert_asWritten]
  by_cases modSeq : message.asWritten.modSeq ≤ maxStored
  · exact .inl (mirrors.insert_agrees modSeq message.hasPlainSeconds_asWritten False.elim)
  · obtain ⟨refusal, refused⟩ := insert_of_great modSeq d
    refine .inr ⟨.invalidInput refusal, ?_, ?_⟩
    · rw [refused]
    · rw [refused]
      exact mirrors

end Mirrors

end Mailroom.Mirror
