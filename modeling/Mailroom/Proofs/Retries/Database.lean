import Mailroom.Proofs.Database.Reads
import Mailroom.Proofs.Failures.Stores
import Mailroom.Proofs.Mirror.Removals
import Mailroom.Proofs.Retries.Rows
/-!
Batches in the database, number by number (`Database.Store.resetsBatchwise`,
`Database.Store.deletesBatchwise`).

Nothing is asked of the rows but that they can be read (`TakesBatches`): another program may have
written them. A part must be short enough for the statements that name its numbers.
-/

namespace Mailroom

namespace Database

open Mirror.Mirrors (typedRow readRow)

section Rows

variable {db other : Database} {place : Place} {row : MessageRow} {message : Message}
  {modSeq : ModSeq}

/-- What is read of a row without its content. -/
theorem readEntry_metadata : readEntry db .metadata (place, row) =
    row.values >>= fun values => values.read place (keywordsAt db place) none := readEntry_eq

theorem readEntry_congr (same : keywordsAt db place = keywordsAt other place) :
    readEntry db .metadata (place, row) = readEntry other .metadata (place, row) := by
  rw [readEntry_metadata, readEntry_metadata, same]

/-- A row as a reset leaves it. -/
def stampRow (modSeq : ModSeq) (row : MessageRow) : MessageRow :=
  { row with recent := .integer 0, modSeq := .integer modSeq }

theorem MessageRow.values_stampRow (modSeq : ModSeq) {values : MessageValues}
    (typed : row.values = .ok values) :
    (stampRow modSeq row).values = .ok { values with modSeq, recent := false } :=
  values_eq_ok.mpr { values_eq_ok.mp typed with modSeq := rfl, recent := rfl }

theorem MessageValues.read_reset (modSeq : ModSeq) {values : MessageValues} {keywords : NameSet}
    (read : values.read place keywords none = .ok message) :
    { values with modSeq, recent := false }.read place keywords none
      = .ok (Memory.reset modSeq message) := by
  have isRead := of_read_eq_ok read
  have bare : message.content = none := Option.map_eq_none_iff.mp isRead.content_eq.symm
  have changed := read_change read (message.flags.set .recent false) modSeq none
  rw [isRead.flags_eq] at changed
  rw [Memory.reset, isRead.flags_eq, bare]
  exact changed

/-- A row that is read has the number of its place, and columns of the right types. -/
theorem of_readEntry (read : readEntry db .metadata (place, row) = .ok message) :
    message.uid = place.uid ∧ row.messageId = .text message.messageId ∧
      row.modSeq = .integer message.modSeq := by
  rw [readEntry_metadata] at read
  obtain ⟨values, typed, read⟩ := Outcomes.bind_eq_ok.mp read
  have holds := MessageRow.values_eq_ok.mp typed
  have isRead := MessageValues.of_read_eq_ok read
  rw [isRead.messageId_eq, isRead.modSeq_eq]
  exact ⟨congrArg Place.uid isRead.place_eq, Cell.readText_eq_ok.mp holds.messageId,
    Cell.readInteger_eq_ok.mp holds.modSeq⟩

/-- A row that can be read can be read after a reset. -/
theorem readEntry_stampRow (modSeq : ModSeq)
    (read : readEntry db .metadata (place, row) = .ok message) :
    readEntry db .metadata (place, stampRow modSeq row) = .ok (Memory.reset modSeq message) := by
  rw [readEntry_metadata] at read ⊢
  obtain ⟨values, typed, read⟩ := Outcomes.bind_eq_ok.mp read
  rw [MessageRow.values_stampRow modSeq typed]
  exact MessageValues.read_reset modSeq read

end Rows

namespace Store

variable {d : Store} {mailbox : MailboxId} {modSeq : ModSeq} {part : List Uid} {uid : Uid}
  {spare : Nat} {keep : Place → Bool}

/-- A database that takes batches: its statements may have some more parameters than a part has
numbers, and its rows can be read. -/
structure TakesBatches (spare : Nat) (d : Store) : Prop where
  unlocked : d.lockedOut = false
  complete : d.database.missing = []
  room : max d.listBound 1 + spare ≤ d.variableLimit
  uid_le : ∀ place row, d.database.messages.get? place = some row → place.uid ≤ maxStored
  readable : ∀ place row, d.database.messages.get? place = some row →
    ∃ message, readEntry d.database .metadata (place, row) = .ok message

/-- A database that is not locked, has all its relations, and whose rows can be read. -/
structure IsOpen (d : Store) : Prop where
  unlocked : d.lockedOut = false
  complete : d.database.missing = []
  uid_le : ∀ place row, d.database.messages.get? place = some row → place.uid ≤ maxStored
  readable : ∀ place row, d.database.messages.get? place = some row →
    ∃ message, readEntry d.database .metadata (place, row) = .ok message

namespace TakesBatches

theorem isOpen (takes : d.TakesBatches spare) : d.IsOpen :=
  ⟨takes.unlocked, takes.complete, takes.uid_le, takes.readable⟩

theorem of_isOpen (isOpen : d.IsOpen) (room : max d.listBound 1 + spare ≤ d.variableLimit) :
    d.TakesBatches spare :=
  ⟨isOpen.unlocked, isOpen.complete, room, isOpen.uid_le, isOpen.readable⟩

end TakesBatches

/-- What is read of a row, if it can be read. -/
def readAt (db : Database) (place : Place) (row : MessageRow) : Message :=
  (readEntry db .metadata (place, row)).toOption.getD default

theorem readAt_of_ok {db : Database} {place : Place} {row : MessageRow} {message : Message}
    (read : readEntry db .metadata (place, row) = .ok message) : readAt db place row = message := by
  rw [readAt, read]
  rfl

theorem of_sameButCounters {after : Store} (same : SameButCounters d after) :
    ∃ counters isKeywordCompiled, after =
      { d with database := { d.database with counters }, isKeywordCompiled } := ⟨_, _, same⟩

namespace IsOpen

theorem read (isOpen : d.IsOpen) {place : Place} {row : MessageRow}
    (found : d.database.messages.get? place = some row) :
    readEntry d.database .metadata (place, row) = .ok (readAt d.database place row) := by
  obtain ⟨message, read⟩ := isOpen.readable place row found
  rw [readAt_of_ok read, read]

theorem typed (isOpen : d.IsOpen) : Typed d.database.messages := by
  intro place row found
  obtain ⟨message, read⟩ := isOpen.readable place row found
  rw [readEntry_metadata] at read
  obtain ⟨values, typed, -⟩ := Outcomes.bind_eq_ok.mp read
  exact ⟨values, typed⟩

/-- Among no numbers that the database can hold, there is no row. -/
theorem get?_of_no_storedUids (isOpen : d.IsOpen) (nothing : storedUids part = [])
    (member : uid ∈ part) : d.database.messages.get? ⟨mailbox, uid⟩ = none := by
  rw [Option.eq_none_iff_forall_ne_some]
  intro row found
  have stored : uid ∈ storedUids part :=
    Mirror.Mirrors.mem_storedUids.mpr ⟨member, isOpen.uid_le _ _ found⟩
  rw [nothing] at stored
  cases stored

/-- The rows with some numbers are read in the order of the numbers. -/
theorem selectUids_eq (isOpen : d.IsOpen) (ascending : part.Pairwise (· < ·))
    (few : (storedUids part).length + 1 ≤ d.variableLimit) :
    d.selectUids mailbox part .metadata = .ok (part.filterMap fun uid =>
      (d.database.messages.get? ⟨mailbox, uid⟩).map (readAt d.database ⟨mailbox, uid⟩)) := by
  unfold selectUids
  by_cases nothing : storedUids part = []
  · have none_found : (part.filterMap fun uid =>
        (d.database.messages.get? ⟨mailbox, uid⟩).map (readAt d.database ⟨mailbox, uid⟩)) = [] := by
      refine List.filterMap_eq_nil_iff.mpr fun uid member => ?_
      rw [isOpen.get?_of_no_storedUids nothing member]
      rfl
    rw [nothing, none_found]
    rfl
  have entries : (d.database.messages.filter fun place _ =>
      place.mailbox = mailbox && (storedUids part).contains place.uid).entries = _ :=
    Mirror.entries_filter_uids _ ascending fun entry member => by
      have fits := isOpen.uid_le _ _ (Table.get?_eq_some_iff.mpr member)
      rw [Bool.and_eq_true, decide_eq_true_eq, List.contains_iff_mem,
        Mirror.Mirrors.mem_storedUids, and_iff_left fits]
  have reads : ∀ entry ∈ (d.database.messages.filter fun place _ =>
      place.mailbox = mailbox && (storedUids part).contains place.uid).entries,
      readEntry d.database .metadata entry = .ok (readAt d.database entry.1 entry.2) :=
    fun entry member => isOpen.read (Table.get?_eq_some_iff.mpr (List.mem_filter.mp member).1)
  have exist := Mirror.requireRelations_of_complete isOpen.complete (readRelations .metadata)
  rw [if_neg (by rwa [List.isEmpty_iff]), bindVariables_of_le few, Outcomes.ok_bind,
    selectMessages_eq_mapM isOpen.typed exist, cut, Outcomes.mapM_of_forall_ok reads,
    entries, List.map_filterMap]
  refine congrArg (fun f => Except.ok (List.filterMap f part)) (funext fun uid => ?_)
  rw [Option.map_map]
  rfl

end IsOpen

/-! ### Resetting -/

/-- Whether a row has a modification sequence. -/
def isSettled (modSeq : ModSeq) (row : MessageRow) : Bool := decide (row.modSeq = .integer modSeq)

/-- What a reset answers of a row, which has the modification sequence then. -/
def tellReset (db : Database) (modSeq : ModSeq) (place : Place) (row : MessageRow) : Metadata :=
  (Memory.reset modSeq (readAt db place row)).metadata

/-- The database after the rows with some numbers were reset. -/
def stamped (mailbox : MailboxId) (modSeq : ModSeq) (part : List Uid) (d : Store) : Store :=
  { d with database := { d.database with
    messages := resetRows (isSettled modSeq) (stampRow modSeq) mailbox part d.database.messages } }

/-- A reset leaves rows that can be read. -/
theorem IsOpen.after_reset (isOpen : d.IsOpen) : (stamped mailbox modSeq part d).IsOpen where
  unlocked := isOpen.unlocked
  complete := isOpen.complete
  uid_le place row found := by
    obtain ⟨old, here, -⟩ := Option.map_eq_some_iff.mp (Table.get?_mapValues.symm.trans found)
    exact isOpen.uid_le place old here
  readable place row found := by
    obtain ⟨old, here, rfl⟩ := Option.map_eq_some_iff.mp (Table.get?_mapValues.symm.trans found)
    have same (row : MessageRow) : readEntry (stamped mailbox modSeq part d).database .metadata
        (place, row) = readEntry d.database .metadata (place, row) := readEntry_congr rfl
    rw [same]
    split
    · exact isOpen.readable place old here
    · exact ⟨_, readEntry_stampRow modSeq (isOpen.read here)⟩

theorem IsOpen.sortUids_eq (isOpen : d.IsOpen) :
    sortUids d.database mailbox (.integer modSeq) part = .ok
      (part.filter fun uid => (d.database.messages.get? ⟨mailbox, uid⟩).isNone,
        part.filter fun uid => (d.database.messages.get? ⟨mailbox, uid⟩).any (isSettled modSeq),
        unsettled (isSettled modSeq) mailbox d.database.messages part) := by
  induction part with
  | nil => rfl
  | cons uid rest ih =>
    unfold sortUids
    rw [ih]
    cases found : d.database.messages.get? ⟨mailbox, uid⟩ with
    | none =>
      simp only [Outcomes.ok_bind]
      simp [unsettled, found]
      rfl
    | some row =>
      have stamp := (of_readEntry (isOpen.read found)).2.2
      have reads := Cell.readInteger_eq_ok.mpr stamp
      simp only [Outcomes.ok_bind, reads]
      by_cases settled : Cell.integer (readAt d.database ⟨mailbox, uid⟩ row).modSeq
          = .integer modSeq
      · simp [unsettled, found, isSettled, stamp, settled]
        rfl
      · simp [unsettled, found, isSettled, stamp, settled]
        rfl

/-- Stamping the rows with unsettled numbers resets the rows of a part. -/
theorem resetColumns_eq :
    Mirror.resetColumns mailbox modSeq
        (unsettled (isSettled modSeq) mailbox d.database.messages part) d.database
      = (stamped mailbox modSeq part d).database := by
  unfold Mirror.resetColumns stamped
  rw [resetRows_eq fun place row _ => by
    simp only [Bool.and_eq_true, decide_eq_true_eq, List.contains_iff_mem]
    rfl]
  rfl

theorem resetColumns_nil {db : Database} : Mirror.resetColumns mailbox modSeq [] db = db := by
  have same : db.messages.mapValues (fun place row =>
      if place.mailbox = mailbox && ([] : List Uid).contains place.uid then
        { row with recent := .integer 0, modSeq := .integer modSeq }
      else row) = db.messages := by
    refine Table.ext_get? fun place => ?_
    rw [Table.get?_mapValues]
    cases db.messages.get? place <;> simp
  unfold Mirror.resetColumns
  rw [same]

/-- A row that was stamped is read as a message that was reset. -/
theorem IsOpen.read_stamped (isOpen : d.IsOpen)
    (member : uid ∈ unsettled (isSettled modSeq) mailbox d.database.messages part) :
    ((stamped mailbox modSeq part d).database.messages.get? ⟨mailbox, uid⟩).map (fun row =>
        (readAt (stamped mailbox modSeq part d).database ⟨mailbox, uid⟩ row).metadata)
      = (d.database.messages.get? ⟨mailbox, uid⟩).map
        (tellReset d.database modSeq ⟨mailbox, uid⟩) := by
  obtain ⟨named, some_row⟩ := List.mem_filter.mp member
  show (Table.get? (resetRows _ _ _ _ _) _).map _ = _
  rw [resetRows, Table.get?_mapValues]
  cases found : d.database.messages.get? ⟨mailbox, uid⟩ with
  | none => rfl
  | some row =>
    have undone := ((mem_unsettled found).mp member).2
    have changes : (isApart mailbox part ⟨mailbox, uid⟩ || isSettled modSeq row) = false := by
      simp [isApart, named, undone]
    have read := readEntry_stampRow modSeq (isOpen.read found)
    rw [Option.map_some, Option.map_some, Option.map_some, changes, tellReset]
    exact congrArg (fun m : Message => some m.metadata) (readAt_of_ok read)

/-- The statements that reset a part have no more parameters than the engine allows. -/
structure Carries (d : Store) (mailbox : MailboxId) (modSeq : ModSeq) (part : List Uid) : Prop where
  asked : (storedUids part).length + 1 ≤ d.variableLimit
  changed : (unsettled (isSettled modSeq) mailbox d.database.messages part).length + 3
    ≤ d.variableLimit

/-- A part that is carried is reset. -/
theorem IsOpen.resetBatch_eq (isOpen : d.IsOpen) (ascending : part.Pairwise (· < ·))
    (carries : d.Carries mailbox modSeq part) :
    Mirror.resetBatch mailbox part modSeq d = .ok
      (gather (resetOne (isSettled modSeq) (tellReset d.database modSeq) mailbox
        d.database.messages) part, (stamped mailbox modSeq part d).database) := by
  have asked : Mirror.askRows d part = .ok () := by
    unfold Mirror.askRows
    rw [Mirror.requireRelations_of_complete isOpen.complete, bindVariables_of_le carries.asked]
    split <;> rfl
  have after : (stamped mailbox modSeq part d).IsOpen := isOpen.after_reset
  have order : (unsettled (isSettled modSeq) mailbox d.database.messages part).Pairwise (· < ·) :=
    ascending.filter _
  have few : (storedUids (unsettled (isSettled modSeq) mailbox d.database.messages part)).length + 1
      ≤ d.variableLimit := by
    have fewer : (storedUids (unsettled (isSettled modSeq) mailbox d.database.messages
      part)).length ≤ _ := List.length_filter_le _ _
    have changed := carries.changed
    omega
  have back : selectUids { d with database := (stamped mailbox modSeq part d).database } mailbox
      (unsettled (isSettled modSeq) mailbox d.database.messages part) .metadata = _ :=
    after.selectUids_eq order few
  unfold Mirror.resetBatch
  rw [asked, isOpen.sortUids_eq, gather_resetOne]
  simp only [Outcomes.ok_bind, resetColumns_eq, back]
  by_cases idle : unsettled (isSettled modSeq) mailbox d.database.messages part = []
  · have unchanged : (stamped mailbox modSeq part d).database = d.database := by
      rw [← resetColumns_eq, idle, resetColumns_nil]
    rw [idle, unchanged]
    rfl
  · have told := List.filterMap_congr fun uid
        (member : uid ∈ unsettled (isSettled modSeq) mailbox d.database.messages part) =>
      isOpen.read_stamped member
    rw [if_neg (by rwa [List.isEmpty_iff]), bindVariables_of_le carries.changed, Outcomes.ok_bind,
      List.map_filterMap]
    simp only [Option.map_map, Function.comp_def, told]
    rfl

/-- A part is carried that is short enough. -/
theorem TakesBatches.carries (takes : d.TakesBatches 3) (short : part.length ≤ max d.listBound 1) :
    d.Carries mailbox modSeq part := by
  have room := takes.room
  have fewer : (storedUids part).length ≤ part.length := List.length_filter_le _ _
  have changed : (unsettled (isSettled modSeq) mailbox d.database.messages part).length
      ≤ part.length := List.length_filter_le _ _
  exact ⟨by omega, by omega⟩

theorem IsOpen.of_sameButCounters {after : Store} (same : SameButCounters d after)
    (isOpen : d.IsOpen) : after.IsOpen := by
  obtain ⟨_, _, rfl⟩ := Store.of_sameButCounters same
  exact ⟨isOpen.unlocked, isOpen.complete, isOpen.uid_le, isOpen.readable⟩

/-- What a database takes depends on nothing but its rows and what it may bind. -/
theorem TakesBatches.of_sameButCounters {after : Store} (same : SameButCounters d after)
    (takes : d.TakesBatches spare) : after.TakesBatches spare := by
  refine .of_isOpen (takes.isOpen.of_sameButCounters same) ?_
  obtain ⟨_, _, rfl⟩ := Store.of_sameButCounters same
  exact takes.room

/-- Resets in the database go number by number. -/
def resetsBatchwise (mailbox : MailboxId) (fits : modSeq ≤ maxStored) :
    Batchwise (TakesBatches 3) fun part =>
      (Storage.resetRecent mailbox part modSeq : Step Store RecentReset) where
  one d := resetOne (isSettled modSeq) (tellReset d.database modSeq) mailbox d.database.messages
  effect := stamped mailbox modSeq
  runs {d part} takes ascending short := by
    show resetRecent mailbox part modSeq d = _
    by_cases nothing : part = []
    · subst nothing
      rw [stamped, resetRows_nil]
      rfl
    · rw [Mirror.resetRecent_eq mailbox nothing fits]
      exact transaction_of_ok takes.unlocked
        (takes.isOpen.resetBatch_eq ascending (takes.carries short))
  effect_nil d := by rw [stamped, resetRows_nil]
  effect_effect d part more := by
    have done : ∀ row, isSettled modSeq (stampRow modSeq row) = true := fun _ => decide_eq_true rfl
    rw [stamped, stamped, resetRows_resetRows done]
    rfl
  effect_congr same := by
    unfold stamped resetRows
    rw [isApart_congr same]
  one_effect {d part uid} apart := by
    unfold resetOne stamped
    rw [get?_resetRows_of_not_mem apart]
    rfl
  fit_effect takes := .of_isOpen takes.isOpen.after_reset takes.room
  bound_effect _ _ := rfl
  fit_same same takes := takes.of_sameButCounters same
  one_same same := by
    obtain ⟨_, _, rfl⟩ := of_sameButCounters same
    rfl
  bound_same same := by
    obtain ⟨_, _, rfl⟩ := of_sameButCounters same
    rfl
  effect_same same := by
    obtain ⟨_, _, rfl⟩ := of_sameButCounters same
    rfl

/-! ### Removing -/

/-- The row that a removal answers with. -/
def removedAt (d : Store) (mailbox : MailboxId) (uid : Uid) : Option Metadata :=
  (d.database.messages.get? ⟨mailbox, uid⟩).map fun row =>
    (readAt d.database ⟨mailbox, uid⟩ row).metadata

/-- Whether a row is one of a message. -/
def isOf (row : MessageRow) (id : MessageId) : Bool := row.messageId = .text id

/-- The database with the rows at some places only. Keywords without a row stay. -/
def kept (keep : Place → Bool) (d : Store) : Store :=
  { d with database := { d.database with
    messages := keptRows keep d.database.messages
    keywords := d.database.keywords.filter fun keyword =>
      keep keyword.1 || (d.database.messages.get? keyword.1).isNone
    contents := keptContents isOf keep d.database.messages d.database.contents } }

/-- The keywords of a row that is kept are kept. -/
theorem keywordsAt_kept {place : Place} (stays : keep place = true) :
    keywordsAt (kept keep d).database place = keywordsAt d.database place := by
  unfold keywordsAt kept
  dsimp only
  rw [List.filter_filter]
  refine congrArg (fun keywords => NameSet.ofList (List.map _ keywords)) ?_
  refine List.filter_congr fun keyword _ => ?_
  by_cases here : keyword.1 = place
  · simp [here, stays]
  · simp [here]

theorem kept_all (all : ∀ entry ∈ d.database.messages.entries, keep entry.1 = true) :
    kept keep d = d := by
  have keywords : (d.database.keywords.filter fun keyword =>
      keep keyword.1 || (d.database.messages.get? keyword.1).isNone) = d.database.keywords := by
    refine List.filter_eq_self.mpr fun keyword _ => ?_
    cases found : d.database.messages.get? keyword.1 with
    | none => exact Bool.or_true _
    | some row => rw [all _ (Table.get?_eq_some_iff.mp found), Bool.true_or]
  rw [kept, keptRows_all all, keptContents_all all, keywords]

theorem kept_kept {other : Place → Bool} :
    kept other (kept keep d) = kept (fun place => keep place && other place) d := by
  have keywords : ((d.database.keywords.filter fun keyword =>
        keep keyword.1 || (d.database.messages.get? keyword.1).isNone).filter fun keyword =>
        other keyword.1 || ((keptRows keep d.database.messages).get? keyword.1).isNone)
      = d.database.keywords.filter fun keyword =>
        (keep keyword.1 && other keyword.1) || (d.database.messages.get? keyword.1).isNone := by
    rw [List.filter_filter]
    refine List.filter_congr fun keyword _ => ?_
    rw [keptRows, Table.get?_filter]
    cases d.database.messages.get? keyword.1 <;> cases keep keyword.1 <;>
      cases other keyword.1 <;> simp_all
  rw [kept, kept]
  dsimp only
  rw [keptRows_keptRows, keptContents_keptContents, keywords]
  rfl

theorem IsOpen.after_removal (isOpen : d.IsOpen) : (kept keep d).IsOpen := by
  have before {place : Place} {row : MessageRow}
      (found : (kept keep d).database.messages.get? place = some row) :
      d.database.messages.get? place = some row ∧ keep place = true :=
    Option.filter_eq_some_iff.mp (Table.get?_filter.symm.trans found)
  refine ⟨isOpen.unlocked, isOpen.complete, fun place row found => ?_, fun place row found => ?_⟩
  · exact isOpen.uid_le place row (before found).1
  · rw [readEntry_congr (keywordsAt_kept (before found).2)]
    exact isOpen.readable place row (before found).1

theorem TakesBatches.after_removal (takes : d.TakesBatches spare) :
    (kept keep d).TakesBatches spare := .of_isOpen takes.isOpen.after_removal takes.room

/-- Removing the rows at some places keeps those at the others, with their keywords. -/
theorem removeMessages_eq {remove : Place → MessageRow → Bool}
    (opposite : ∀ entry ∈ d.database.messages.entries, remove entry.1 entry.2 = !keep entry.1) :
    removeMessages d.database remove
      = { (kept keep d).database with contents := d.database.contents } := by
  have messages : (d.database.messages.filter fun place row => !remove place row)
      = keptRows keep d.database.messages :=
    Table.filter_congr fun entry member => by rw [opposite entry member, Bool.not_not]
  have keywords : (d.database.keywords.filter fun keyword =>
        !((d.database.messages.filter remove).entries.map (·.1)).contains keyword.1)
      = d.database.keywords.filter fun keyword =>
        keep keyword.1 || (d.database.messages.get? keyword.1).isNone := by
    refine List.filter_congr fun keyword _ => ?_
    rw [Bool.eq_iff_iff, Bool.not_eq_true', List.contains_eq_mem, decide_eq_false_iff_not,
      List.mem_map, Bool.or_eq_true, Option.isNone_iff_eq_none]
    constructor
    · intro untouched
      cases found : d.database.messages.get? keyword.1 with
      | none => exact .inr rfl
      | some row =>
        have member := Table.get?_eq_some_iff.mp found
        refine .inl ?_
        cases stays : keep keyword.1 with
        | true => rfl
        | false =>
          have removed : remove keyword.1 row = true := by
            rw [opposite _ member, stays, Bool.not_false]
          exact absurd ⟨_, List.mem_filter.mpr ⟨member, removed⟩, rfl⟩ untouched
    · rintro stays ⟨entry, chosen, same⟩
      obtain ⟨member, removed⟩ := List.mem_filter.mp chosen
      rw [opposite entry member, Bool.not_eq_true'] at removed
      rcases stays with stays | missing
      · rw [← same, removed] at stays
        cases stays
      · rw [← same, Table.get?_eq_some_iff.mpr member] at missing
        cases missing
  unfold removeMessages kept
  dsimp only
  rw [messages, keywords]

/-- Once rows were removed, the contents go that no row has any more. -/
theorem collectContents_eq (complete : d.database.missing = []) {ids : NameSet}
    (few : ids.size ≤ d.variableLimit)
    (gone : ∀ id, id ∈ ids ↔ ∃ entry ∈ d.database.messages.entries,
      keep entry.1 = false ∧ entry.2.messageId = .text id) :
    d.collectContents { (kept keep d).database with contents := d.database.contents } ids
      = .ok (kept keep d).database := by
  have dropped (id : MessageId) : ids.toList.contains id =
      (d.database.messages.filter fun place _ => !keep place).values.any (isOf · id) := by
    rw [Bool.eq_iff_iff, List.contains_iff_mem, NameSet.mem_toList, gone, any_filter]
    simp only [isOf, decide_eq_true_eq, Bool.not_eq_true']
  have contents : d.database.contents.filter (fun id _ => !ids.toList.contains id ||
        (keptRows keep d.database.messages).values.any (isOf · id))
      = keptContents isOf keep d.database.messages d.database.contents :=
    Table.filter_congr fun entry _ => by rw [dropped]
  unfold collectContents
  by_cases nothing : ids.isEmpty = true
  · have all : d.database.contents.filter (fun id _ => !ids.toList.contains id ||
        (keptRows keep d.database.messages).values.any (isOf · id)) = d.database.contents :=
      Table.filter_eq_self fun entry _ => by
        rw [List.isEmpty_iff.mp nothing]
        rfl
    rw [if_pos nothing]
    rw [all] at contents
    unfold kept
    rw [← contents]
    rfl
  · have complete : { (kept keep d).database with
        contents := d.database.contents }.missing = [] := complete
    rw [if_neg nothing, Mirror.requireRelations_of_complete complete, bindVariables_of_le few]
    exact congrArg (fun contents => Except.ok { (kept keep d).database with contents }) contents

/-- The identifiers of the rows that are read are those of the rows that go. -/
theorem IsOpen.mem_removed (isOpen : d.IsOpen) {id : MessageId} :
    id ∈ NameSet.ofList ((part.filterMap fun uid => (d.database.messages.get? ⟨mailbox, uid⟩).map
        (readAt d.database ⟨mailbox, uid⟩)).map Message.messageId) ↔
      ∃ entry ∈ d.database.messages.entries,
        isApart mailbox part entry.1 = false ∧ entry.2.messageId = .text id := by
  have names {place : Place} {row : MessageRow}
      (found : d.database.messages.get? place = some row) :
      row.messageId = .text (readAt d.database place row).messageId :=
    (of_readEntry (isOpen.read found)).2.1
  rw [NameSet.mem_ofList, List.map_filterMap, List.mem_filterMap]
  constructor
  · rintro ⟨uid, named, read⟩
    rw [Option.map_map] at read
    obtain ⟨row, found, rfl⟩ := Option.map_eq_some_iff.mp read
    exact ⟨_, Table.get?_eq_some_iff.mp found, by simp [isApart, named], names found⟩
  · rintro ⟨⟨⟨inMailbox, uid⟩, row⟩, member, removed, isOf⟩
    obtain ⟨rfl, named⟩ : inMailbox = mailbox ∧ uid ∈ part := by simpa [isApart] using removed
    have found := Table.get?_eq_some_iff.mpr member
    have same := (names found).symm.trans isOf
    refine ⟨uid, named, ?_⟩
    rw [found, Option.map_some, Option.map_some, Cell.text.inj same]

/-- No more rows are found than there are numbers that the database can hold. -/
theorem IsOpen.length_found_le (isOpen : d.IsOpen) (mailbox : MailboxId) (part : List Uid)
    {β : Type} (tell : Uid → MessageRow → β) :
    (part.filterMap fun uid => (d.database.messages.get? ⟨mailbox, uid⟩).map (tell uid)).length
      ≤ (storedUids part).length := by
  refine Nat.le_trans (Nat.le_of_eq (congrArg List.length ?_)) (List.length_filterMap_le
    (fun uid => (d.database.messages.get? ⟨mailbox, uid⟩).map (tell uid)) (storedUids part))
  rw [storedUids, List.filterMap_filter]
  refine List.filterMap_congr fun uid _ => ?_
  split
  · rfl
  · rename_i great
    cases found : d.database.messages.get? ⟨mailbox, uid⟩ with
    | none => rfl
    | some row => exact absurd (isOpen.uid_le _ _ found) (by simpa using great)

/-- A part that a statement can carry is removed. -/
theorem IsOpen.deleteBatch_eq (isOpen : d.IsOpen) (ascending : part.Pairwise (· < ·))
    (few : (storedUids part).length + 1 ≤ d.variableLimit) :
    deleteBatch mailbox part d = (.ok (gather (fun uid => (d.removedAt mailbox uid).toList) part),
      kept (isApart mailbox part) d) := by
  have contained {entry : Place × MessageRow} (member : entry ∈ d.database.messages.entries) :
      (storedUids part).contains entry.1.uid = part.contains entry.1.uid := by
    have fits := isOpen.uid_le _ _ (Table.get?_eq_some_iff.mpr member)
    rw [Bool.eq_iff_iff, List.contains_iff_mem, List.contains_iff_mem,
      Mirror.Mirrors.mem_storedUids, and_iff_left fits]
  have read : d.selectUids mailbox part .metadata = _ := isOpen.selectUids_eq ascending few
  rw [gather_toList]
  unfold deleteBatch
  by_cases nothing : storedUids part = []
  · have none_read : (part.filterMap (d.removedAt mailbox)) = [] := by
      refine List.filterMap_eq_nil_iff.mpr fun uid member => ?_
      rw [removedAt, isOpen.get?_of_no_storedUids nothing member]
      rfl
    have all : ∀ entry ∈ d.database.messages.entries, isApart mailbox part entry.1 = true := by
      intro entry member
      rw [isApart, ← contained member, nothing]
      simp
    rw [none_read, kept_all all, nothing]
    rfl
  have opposite : ∀ entry ∈ d.database.messages.entries,
      (decide (entry.1.mailbox = mailbox) && (storedUids part).contains entry.1.uid)
        = !isApart mailbox part entry.1 := fun entry member => by
    rw [isApart, contained member, Bool.not_not]
  have size := NameSet.size_ofList_le ((part.filterMap fun uid =>
    (d.database.messages.get? ⟨mailbox, uid⟩).map
      (readAt d.database ⟨mailbox, uid⟩)).map Message.messageId)
  have fewer := isOpen.length_found_le mailbox part fun uid => readAt d.database ⟨mailbox, uid⟩
  rw [List.length_map] at size
  have collected := collectContents_eq isOpen.complete
    (Nat.le_trans size (Nat.le_trans fewer (Nat.le_of_succ_le few))) fun id => isOpen.mem_removed
  simp only [if_neg (show ¬ (storedUids part).isEmpty = true by rwa [List.isEmpty_iff])]
  refine transaction_of_ok isOpen.unlocked ?_
  rw [read, Outcomes.ok_bind, removeMessages_eq opposite, collected, Outcomes.ok_bind,
    List.map_filterMap]
  simp only [Option.map_map]
  rfl

/-- A statement carries each part of a database that takes batches. -/
theorem TakesBatches.few (takes : d.TakesBatches 1) (short : part.length ≤ max d.listBound 1) :
    (storedUids part).length + 1 ≤ d.variableLimit := by
  have stored : (storedUids part).length ≤ part.length := List.length_filter_le _ _
  have room := takes.room
  omega

/-- Removals from the database go number by number. -/
def deletesBatchwise (mailbox : MailboxId) :
    Batchwise (TakesBatches 1) fun part =>
      (Storage.deleteBatch mailbox part : Step Store (List Metadata)) where
  one d uid := (d.removedAt mailbox uid).toList
  effect part := kept (isApart mailbox part)
  runs takes ascending short := takes.isOpen.deleteBatch_eq ascending (takes.few short)
  effect_nil d := kept_all fun _ _ => isApart_nil
  effect_effect d part more := by
    rw [kept_kept]
    simp only [← isApart_append]
  effect_congr same := by rw [isApart_congr same]
  one_effect {d part uid} apart := by
    have same (row : MessageRow) :
        readAt (kept (isApart mailbox part) d).database ⟨mailbox, uid⟩ row
          = readAt d.database ⟨mailbox, uid⟩ row := by
      rw [readAt, readEntry_congr (keywordsAt_kept (isApart_of_not_mem apart)), readAt]
    unfold removedAt
    simp only [same]
    exact congrArg (fun row => (Option.map _ row).toList) (get?_keptRows_of_not_mem apart)
  fit_effect takes := takes.after_removal
  bound_effect _ _ := rfl
  fit_same same takes := takes.of_sameButCounters same
  one_same same := by
    obtain ⟨_, _, rfl⟩ := of_sameButCounters same
    rfl
  bound_same same := by
    obtain ⟨_, _, rfl⟩ := of_sameButCounters same
    rfl
  effect_same same := by
    obtain ⟨_, _, rfl⟩ := of_sameButCounters same
    rfl

/-! ### Counting up -/

/-- The modification sequence of a mailbox can be counted up a number of times. -/
def CanCount (d : Store) (times : Nat) (mailbox : MailboxId) : Prop :=
  ∃ value : Int, (d.countersOf mailbox).highestModSeq = .integer value ∧ -1 ≤ value ∧
    value + times ≤ maxStored

/-- What counting up answers and leaves. -/
theorem IsOpen.nextModSeq_eq (isOpen : d.IsOpen) (mailbox : MailboxId) :
    Storage.nextModSeq mailbox d
      = ((readCounter .modSeq (d.countersOf mailbox).highestModSeq.bump).mapError
          (.sequenceAllocation mailbox .modSeq),
        { d with database := { d.database with
            counters := d.database.counters.insert mailbox { d.countersOf mailbox with
              highestModSeq := (d.countersOf mailbox).highestModSeq.bump } } }) := by
  show nextModSeq mailbox d = _
  exact allocate_eq isOpen.unlocked (Mirror.requireRelations_of_complete isOpen.complete _)

/-- A modification sequence that counts up is an integer before the last one. -/
theorem IsOpen.of_nextModSeq (isOpen : d.IsOpen) {n : ModSeq} {after : Store}
    (counted : Storage.nextModSeq mailbox d = (.ok n, after)) :
    ∃ value : Int, (d.countersOf mailbox).highestModSeq = .integer value ∧ value < maxStored ∧
      value + 1 = n ∧ (after.countersOf mailbox).highestModSeq = .integer n := by
  rw [isOpen.nextModSeq_eq] at counted
  obtain ⟨answer, rfl⟩ := Prod.mk.inj counted
  rw [countersOf_insert, if_pos rfl]
  cases stands : (d.countersOf mailbox).highestModSeq with
  | overflowed =>
    rw [stands] at answer
    cases answer
  | integer value =>
    rw [stands, Counter.bump] at answer
    rw [Counter.bump]
    split at answer
    case isFalse => cases answer
    case isTrue fits =>
      rw [if_pos fits]
      obtain ⟨m, next⟩ : ∃ m, value + 1 = m := ⟨_, rfl⟩
      rw [next] at answer ⊢
      cases m with
      | negSucc _ => cases answer
      | ofNat m =>
        cases answer
        exact ⟨value, rfl, fits, next, rfl⟩

/-- The modification sequence of a mailbox counts up if and only if it can be counted up. -/
theorem IsOpen.nextModSeq_iff (isOpen : d.IsOpen) :
    (∃ n after, Storage.nextModSeq mailbox d = (.ok n, after)) ↔ d.CanCount 1 mailbox := by
  constructor
  · rintro ⟨n, after, counted⟩
    obtain ⟨value, stands, fits, next, -⟩ := isOpen.of_nextModSeq counted
    exact ⟨value, stands, by omega, by omega⟩
  · rintro ⟨value, stands, notNegative, fits⟩
    obtain ⟨n, next⟩ : ∃ n : Nat, value + 1 = n := ⟨(value + 1).toNat, by omega⟩
    have bumped : (d.countersOf mailbox).highestModSeq.bump = .integer n := by
      rw [stands, Counter.bump, if_pos (by omega), next]
    have counted := isOpen.nextModSeq_eq mailbox
    rw [bumped] at counted
    exact ⟨n, _, counted⟩

/-- Once a modification sequence has counted up, it can do so one time less. -/
theorem IsOpen.canCount_next (isOpen : d.IsOpen) {n : ModSeq} {after : Store} {times : Nat}
    (counted : Storage.nextModSeq mailbox d = (.ok n, after)) :
    after.CanCount times mailbox ↔ d.CanCount (times + 1) mailbox := by
  obtain ⟨value, stands, fits, next, later⟩ := isOpen.of_nextModSeq counted
  constructor
  · rintro ⟨value', stands', -, fits'⟩
    obtain rfl : (n : Int) = value' := Counter.integer.inj (later.symm.trans stands')
    exact ⟨value, stands, by omega, by push_cast; omega⟩
  · rintro ⟨value', stands', -, fits'⟩
    obtain rfl : value = value' := Counter.integer.inj (stands.symm.trans stands')
    exact ⟨n, later, by omega, by push_cast at fits'; omega⟩

/-- A modification sequence that cannot be counted up is refused. -/
theorem IsOpen.nextModSeq_fails (isOpen : d.IsOpen) (stuck : ¬ d.CanCount 1 mailbox) :
    ∃ e after, Storage.nextModSeq mailbox d = (.error (.sequenceAllocation mailbox .modSeq e), after)
      ∧ SameButCounters d after := by
  have counted := isOpen.nextModSeq_eq mailbox
  cases read : readCounter .modSeq (d.countersOf mailbox).highestModSeq.bump with
  | ok n =>
    rw [read] at counted
    exact absurd (isOpen.nextModSeq_iff.mp ⟨n, _, counted⟩) stuck
  | error e =>
    rw [read] at counted
    exact ⟨e, _, counted, rfl⟩

end Store

end Database

end Mailroom
