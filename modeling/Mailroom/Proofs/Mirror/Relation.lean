import Mailroom.Database.File
import Mailroom.Memory.Store
import Mailroom.Proofs.Database.Codec
import Mailroom.Proofs.Database.Writes
import Mailroom.Proofs.Outcomes
import Mailroom.Proofs.Table
/-!
The store in memory as the image of the store in a database.

`Mirrors` relates a store in memory and a database that hold the same rows, contents and counters.
A database can be in two states that have no counterpart in memory: a counter that ran over, and a
row whose date cannot be read back. The relation admits them, unless it is asked to be `regular`:
then the two stores cannot be told apart by calls on messages.

`Agrees` says that two steps give the same answer and leave stores that are related again.
`Follows` admits that the step of the database fails instead, with the rows as they were, and
`AgreesUnless` names what must be in the way for that.
-/

namespace Mailroom

/-- The store of a new database file. -/
def Database.Store.new (path : String) (listBound : Nat) : Database.Store where
  database := .fresh
  path
  listBound := max listBound 1

/-- The keywords of a place are those that are listed for it. -/
theorem Database.mem_keywordsAt {db : Database} {place : Place} {keyword : String} :
    keyword ∈ keywordsAt db place ↔ (place, keyword) ∈ db.keywords := by
  rw [keywordsAt, NameSet.mem_ofList, List.mem_map]
  constructor
  · rintro ⟨⟨_, _⟩, chosen, rfl⟩
    obtain ⟨listed, here⟩ := List.mem_filter.mp chosen
    exact of_decide_eq_true here ▸ listed
  · intro listed
    exact ⟨(place, keyword), List.mem_filter.mpr ⟨listed, decide_eq_true rfl⟩, rfl⟩

namespace Mirror

open Database (MessageRow)

/-- Where a counter of the database stands. A counter that ran over stands at the last number. -/
def StandsAt (regular : Prop) (counter : Database.Counter) (n : Nat) : Prop :=
  counter = .integer n ∧ n ≤ maxStored ∨ ¬ regular ∧ counter = .overflowed ∧ n = maxStored

/-- The greatest number of parameters of a statement. -/
def maxVariables : Nat := 32766

/-- A row that the database can hold, at its place in memory. The database has no more of a date than
its text. -/
structure Stored (place : Place) (row : Message) : Prop where
  place_eq : row.place = place
  content_eq : row.content = none
  uid_le : row.uid ≤ maxStored
  modSeq_le : row.modSeq ≤ maxStored
  size_le : row.size ≤ maxStored
  seconds : row.HasPlainSeconds

/-- The change logs in a database. -/
structure Log where
  heads : Table AccountId Database.HeadsRow
  changes : Table ChangePlace Database.ChangeRow

/-- The change logs of a database. -/
def logOf (db : Database) : Log := ⟨db.heads, db.changes⟩

/-- A store in memory and a database that hold the same messages. The change logs of the database
are named, for no call on messages touches them. -/
structure Mirrors (regular : Prop) (log : Log) (m : Memory.Store) (d : Database.Store) : Prop where
  available : m.available = true
  unlocked : d.lockedOut = false
  complete : d.database.missing = []
  bound : d.listBound = m.listBound
  variableLimit : d.variableLimit = maxVariables
  lastUid : ∀ mailbox, StandsAt regular (d.countersOf mailbox).lastUid
    (m.countersOf mailbox).lastUid
  highestModSeq : ∀ mailbox,
    StandsAt regular (d.countersOf mailbox).highestModSeq (m.countersOf mailbox).highestModSeq
  messages : d.database.messages = m.rows.mapValues fun _ => MessageRow.encode
  keywords : ∀ place keyword, (place, keyword) ∈ d.database.keywords ↔
    ∃ row, m.rows.get? place = some row ∧ keyword ∈ row.flags.keywords
  contents : d.database.contents = m.contents.mapValues fun _ => .packed
  stored : ∀ place row, m.rows.get? place = some row → Stored place row
  readable : regular → ∀ row ∈ m.rows.values, row.HasPlainDates
  changes : regular → m.changes.size = log.changes.size
  logged : logOf d.database = log

/-- Two steps answer alike and leave related stores. -/
structure Agrees {α : Type} (regular : Prop) (log : Log) (left : Step Memory.Store α)
    (right : Step Database.Store α) (m : Memory.Store) (d : Database.Store) : Prop where
  answer : (right d).1 = (left m).1
  mirrors : Mirrors regular log (left m).2 (right d).2

/-- Two steps agree, or that of the database fails and changes no row. -/
def Follows {α : Type} (regular : Prop) (log : Log) (left : Step Memory.Store α)
    (right : Step Database.Store α) (m : Memory.Store) (d : Database.Store) : Prop :=
  Agrees regular log left right m d ∨
    ∃ e, (right d).1 = .error e ∧ Mirrors regular log m (right d).2

/-- A step of the database fails and changes no row. -/
def Refuses {α : Type} (regular : Prop) (log : Log) (right : Step Database.Store α)
    (m : Memory.Store) (d : Database.Store) : Prop :=
  ∃ e, (right d).1 = .error e ∧ Mirrors regular log m (right d).2

/-- Two steps agree unless something is in the way, and that of the database fails then. -/
def AgreesUnless {α : Type} (obstacle : Prop) (regular : Prop) (log : Log)
    (left : Step Memory.Store α) (right : Step Database.Store α) (m : Memory.Store)
    (d : Database.Store) : Prop :=
  Agrees regular log left right m d ∨ obstacle ∧ Refuses regular log right m d

variable {α β : Type} {regular : Prop} {log : Log} {m : Memory.Store} {d : Database.Store}

/-- In a database with every relation, no statement names one that does not exist. -/
theorem requireRelations_of_complete {db : Database} (complete : db.missing = [])
    (relations : List Database.Relation) : Database.requireRelations db relations = .ok () := by
  have none_missing : relations.find? (fun r => db.missing.contains r) = none := by
    rw [List.find?_eq_none, complete]
    simp
  unfold Database.requireRelations
  rw [none_missing]

/-! ### Putting steps together -/

namespace Agrees

theorem pure (mirrors : Mirrors regular log m d) (a : α) :
    Agrees regular log (Pure.pure a) (Pure.pure a) m d := ⟨rfl, mirrors⟩

theorem fail (mirrors : Mirrors regular log m d) (e : StoreError) :
    Agrees (α := α) regular log (.fail e) (.fail e) m d := ⟨rfl, mirrors⟩

/-- Steps that only look agree if they see the same. -/
theorem read (mirrors : Mirrors regular log m d) {f : Memory.Store → Except StoreError α}
    {g : Database.Store → Except StoreError α} (same : g d = f m) :
    Agrees regular log (.read f) (.read g) m d := ⟨same, mirrors⟩

/-- Only what a step does on a store counts. -/
theorem of_eq {left : Step Memory.Store α} {right right' : Step Database.Store α}
    {d' : Database.Store} (same : right d = right' d')
    (agrees : Agrees regular log left right' m d') :
    Agrees regular log left right m d :=
  ⟨by rw [same]; exact agrees.answer, by rw [same]; exact agrees.mirrors⟩

/-- Two computations agree if their first steps do and, after an answer, the others do. -/
theorem bind {first : Step Memory.Store α} {first' : Step Database.Store α}
    {next : α → Step Memory.Store β} {next' : α → Step Database.Store β}
    (firsts : Agrees regular log first first' m d)
    (nexts : ∀ a m' d', first m = (.ok a, m') → first' d = (.ok a, d') → Mirrors regular log m' d' →
      Agrees regular log (next a) (next' a) m' d') :
    Agrees regular log (first >>= next) (first' >>= next') m d := by
  obtain ⟨answer, mirrors⟩ := firsts
  rcases left : first m with ⟨_ | a, m'⟩
  · rename_i e
    rcases right : first' d with ⟨_, d'⟩
    rw [left, right] at answer mirrors
    cases answer
    exact ⟨by rw [Step.bind_of_error left, Step.bind_of_error right],
      by rw [Step.bind_of_error left, Step.bind_of_error right]; exact mirrors⟩
  · rcases right : first' d with ⟨_, d'⟩
    rw [left, right] at answer mirrors
    cases answer
    obtain ⟨answer, after⟩ := nexts a m' d' left right mirrors
    exact ⟨by rw [Step.bind_of_ok left, Step.bind_of_ok right, answer],
      by rw [Step.bind_of_ok left, Step.bind_of_ok right]; exact after⟩

end Agrees

/-- Only what a step does on a store counts. -/
theorem Refuses.of_eq {right right' : Step Database.Store α} {d' : Database.Store}
    (same : right d = right' d') (refuses : Refuses regular log right' m d') :
    Refuses regular log right m d := by
  unfold Refuses
  rwa [same]

namespace AgreesUnless

variable {obstacle : Prop} {left : Step Memory.Store α} {right : Step Database.Store α}

theorem agrees (whenClear : AgreesUnless obstacle regular log left right m d)
    (clear : ¬ obstacle) : Agrees regular log left right m d :=
  whenClear.resolve_right fun blocked => clear blocked.1

theorem follows (whenClear : AgreesUnless obstacle regular log left right m d) :
    Follows regular log left right m d :=
  whenClear.imp id And.right

end AgreesUnless

/-! ### Transactions -/

namespace Mirrors

variable {f : Database.Store → Except StoreError (α × Database)}

theorem transaction_of_ok (mirrors : Mirrors regular log m d) {a : α} {db : Database}
    (done : f d = .ok (a, db)) :
    Database.Store.transaction f d = (.ok a, { d with database := db }) :=
  Database.Store.transaction_of_ok mirrors.unlocked done

theorem transaction_of_error (mirrors : Mirrors regular log m d) {e : StoreError}
    (fails : f d = .error e) : Database.Store.transaction f d = (.error e, d) := by
  unfold Database.Store.transaction
  refine Step.write_of_error ?_
  rw [if_neg (by rw [mirrors.unlocked]; decide), fails]
  rfl

/-- A write in memory agrees with a transaction that does the same. -/
theorem agrees_of_ok (mirrors : Mirrors regular log m d)
    {g : Memory.Store → Except StoreError (α × Memory.Store)} {a : α} {m' : Memory.Store}
    {db : Database} (left : g m = .ok (a, m')) (right : f d = .ok (a, db))
    (after : Mirrors regular log m' { d with database := db }) :
    Agrees regular log (.write g) (Database.Store.transaction f) m d :=
  ⟨by rw [mirrors.transaction_of_ok right, Step.write_of_ok left],
    by rw [mirrors.transaction_of_ok right, Step.write_of_ok left]; exact after⟩

/-- A write in memory agrees with a transaction that fails alike. -/
theorem agrees_of_error (mirrors : Mirrors regular log m d)
    {g : Memory.Store → Except StoreError (α × Memory.Store)} {e : StoreError}
    (left : g m = .error e) (right : f d = .error e) :
    Agrees regular log (.write g) (Database.Store.transaction f) m d :=
  ⟨by rw [mirrors.transaction_of_error right, Step.write_of_error left],
    by rw [mirrors.transaction_of_error right, Step.write_of_error left]; exact mirrors⟩

/-- A transaction that fails changes no row. -/
theorem refuses_of_error (mirrors : Mirrors regular log m d) {e : StoreError}
    (fails : f d = .error e) : Refuses regular log (Database.Store.transaction f) m d := by
  unfold Refuses
  rw [mirrors.transaction_of_error fails]
  exact ⟨e, rfl, mirrors⟩

/-- A write in memory that fails agrees with a step that fails alike. -/
theorem agrees_of_fail (mirrors : Mirrors regular log m d)
    {g : Memory.Store → Except StoreError (α × Memory.Store)} {right : Step Database.Store α}
    {e : StoreError} (left : g m = .error e) (fails : right = .fail e) :
    Agrees regular log (.write g) right m d :=
  ⟨by rw [fails, Step.write_of_error left]; rfl,
    by rw [fails, Step.write_of_error left]; exact mirrors⟩

/-- No row, content or counter depends on which statements are compiled. -/
theorem compiled (mirrors : Mirrors regular log m d) (compiled : Bool) :
    Mirrors regular log m { d with isKeywordCompiled := compiled } :=
  { mirrors with }

/-- No statement names a relation that does not exist. -/
theorem requireRelations (mirrors : Mirrors regular log m d) (relations : List Database.Relation) :
    Database.requireRelations d.database relations = .ok () :=
  requireRelations_of_complete mirrors.complete relations

theorem ensureAvailable (mirrors : Mirrors regular log m d) : m.ensureAvailable = .ok () :=
  if_pos mirrors.available

/-- A row of the database is the image of the row in memory. -/
theorem get?_messages (mirrors : Mirrors regular log m d) (place : Place) :
    d.database.messages.get? place = (m.rows.get? place).map MessageRow.encode := by
  rw [mirrors.messages, Table.get?_mapValues]

theorem get?_contents (mirrors : Mirrors regular log m d) (id : MessageId) :
    d.database.contents.get? id = (m.contents.get? id).map .packed := by
  rw [mirrors.contents, Table.get?_mapValues]

/-- The keywords of a row are those in memory. -/
theorem keywordsAt (mirrors : Mirrors regular log m d) {place : Place} {row : Message}
    (found : m.rows.get? place = some row) :
    Database.keywordsAt d.database place = row.flags.keywords := by
  apply NameSet.ext
  intro keyword
  rw [Database.mem_keywordsAt, mirrors.keywords]
  constructor
  · rintro ⟨row', found', has⟩
    rw [found] at found'
    cases found'
    exact has
  · exact fun has => ⟨row, found, has⟩

end Mirrors

/-! ### The start -/

/-- Empty stores mirror each other. -/
theorem mirrors_new (regular : Prop) (path : String) (listBound : Nat) :
    Mirrors regular ⟨.empty, .empty⟩ (.new listBound) (.new path listBound) where
  available := rfl
  unlocked := rfl
  complete := rfl
  bound := rfl
  variableLimit := rfl
  lastUid _ := .inl ⟨rfl, Nat.zero_le _⟩
  highestModSeq _ := .inl ⟨rfl, Nat.zero_le _⟩
  messages := rfl
  keywords place keyword := by
    constructor
    · intro member
      cases member
    · rintro ⟨row, found, -⟩
      cases found
  contents := rfl
  stored place row found := by cases found
  readable _ row member := by cases member
  changes _ := rfl
  logged := rfl

end Mirror

end Mailroom
