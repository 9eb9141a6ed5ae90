import Mailroom.Proofs.Contents.Runs
import Mailroom.Proofs.Mirror.Views
/-!
The contents of the two stores.

In memory each removal collects what it has unlinked (`Memory.Store.stock_keepRows`). A database has
the stock of the store in memory that it mirrors (`Mirrors.stock_eq`), so its steps change the stock
as those in memory do (`relates_of_follows`). From new stores, whatever calls are made, content is
stored for exactly the messages that are linked, and it is that of the first append
(`contents_liveWhileLinked`).
-/

namespace Mailroom

open Database (StoredContent)

/-! ### In memory -/

namespace Memory.Store

variable {m after : Store} {place : Place} {row : Message}

/-- The links of the rows, and the contents. -/
def stock (m : Store) : Stock where
  linkAt place := (m.rows.get? place).map Message.link
  contentOf id := (m.contents.get? id).map .packed

theorem isLinked_iff {id : MessageId} :
    m.stock.IsLinked id ↔ ∃ place row, m.rows.get? place = some row ∧ row.messageId = id := by
  constructor
  · rintro ⟨place, link, found, same⟩
    obtain ⟨row, stored, rfl⟩ := Option.map_eq_some_iff.mp found
    exact ⟨place, row, stored, same⟩
  · rintro ⟨place, row, stored, same⟩
    exact ⟨place, row.link, Option.map_eq_some_iff.mpr ⟨row, stored, rfl⟩, same⟩

/-! #### Writing -/

/-- A row that takes the place of one with the same link changes no link. -/
theorem stock_insert_row {changed : Message} (found : m.rows.get? place = some row)
    (same : changed.link = row.link) :
    { m with rows := m.rows.insert place changed }.stock = m.stock := by
  refine Stock.ext (funext fun other => ?_) rfl
  show ((m.rows.insert place changed).get? other).map _ = (m.rows.get? other).map _
  rw [Table.get?_insert]
  split
  · rename_i here
    rw [← here, found, Option.map_some, Option.map_some, same]
  · rfl

theorem stock_mapValues {f : Place → Message → Message}
    (same : ∀ place row, (f place row).link = row.link) :
    { m with rows := m.rows.mapValues f }.stock = m.stock := by
  refine Stock.ext (funext fun other => ?_) rfl
  show ((m.rows.mapValues f).get? other).map _ = (m.rows.get? other).map _
  rw [Table.get?_mapValues, Option.map_map]
  exact congrArg (Option.map · _) (funext fun row => same other row)

theorem edited_link (edit : FlagEdit) (modSeq : ModSeq) (row : Message) :
    (edited edit modSeq row).link = row.link := rfl

/-- A message that is inserted is linked at its place. -/
theorem stock_insert {message : Message} {content : Octets}
    (given : message.content = some content) :
    { m with
      rows := m.rows.insert message.place message.withoutContent
      contents := contentsWith id m.contents message }.stock
      = m.stock.put message.place message.link content := by
  refine Stock.ext (funext fun other => ?_) (funext fun other => ?_)
  · exact Table.map_get?_insert
  · show ((contentsWith id m.contents message).get? other).map _
      = if other = message.messageId then some (((m.contents.get? other).map _).getD _) else _
    unfold contentsWith
    rw [given]
    cases stored : m.contents.get? message.messageId with
    | none =>
      show ((m.contents.insert _ _).get? other).map _ = _
      rw [Table.map_get?_insert]
      split
      · rename_i here
        rw [here, stored]
        rfl
      · rfl
    | some earlier =>
      show (m.contents.get? other).map _ = _
      split
      · rename_i here
        rw [here, stored]
        rfl
      · rfl

/-! #### Removing -/

/-- A content is kept unless its message is unlinked. -/
theorem get?_contents_keepRows {keep : Place → Message → Bool} {id : MessageId} :
    (m.keepRows keep).contents.get? id = (m.contents.get? id).filter fun _ =>
      !((m.rows.filter fun place row => !keep place row).values.any
        fun row => row.messageId = id) ||
          (m.rows.filter keep).values.any fun row => row.messageId = id :=
  Table.get?_filter

/-- Some row of a table is that of a message. -/
theorem any_values_iff {rows : Table Place Message} {id : MessageId} :
    (rows.values.any fun row => row.messageId = id) = true ↔
      ∃ place row, rows.get? place = some row ∧ row.messageId = id := by
  rw [List.any_eq_true]
  constructor
  · rintro ⟨row, member, same⟩
    obtain ⟨place, found⟩ := Table.mem_values_iff.mp member
    exact ⟨place, row, found, of_decide_eq_true same⟩
  · rintro ⟨place, row, found, same⟩
    exact ⟨row, Table.mem_values_iff.mpr ⟨place, found⟩, decide_eq_true same⟩

/-- Rows that are not kept are dropped, and with the last row of a message its content. -/
theorem stock_keepRows (keep : Place → Message → Bool) :
    m.stock.Drops (m.keepRows keep).stock := by
  refine .of_contents (fun place => ?_) (fun id linked => ?_) (fun id linked unlinked => ?_)
    fun id absent => ?_
  · exact (Table.get?_filter_or keep place).imp (congrArg (Option.map _)) (congrArg (Option.map _))
  · have isKept : ((m.rows.filter keep).values.any fun row => row.messageId = id) = true :=
      any_values_iff.mpr (isLinked_iff.mp linked)
    show ((m.keepRows keep).contents.get? id).map _ = (m.contents.get? id).map _
    rw [get?_contents_keepRows, isKept]
    cases m.contents.get? id <;> simp
  · have notKept : ((m.rows.filter keep).values.any fun row => row.messageId = id) = false :=
      Bool.eq_false_iff.mpr fun isKept => unlinked (isLinked_iff.mpr (any_values_iff.mp isKept))
    have isDropped : ((m.rows.filter fun place row => !keep place row).values.any
        fun row => row.messageId = id) = true := by
      obtain ⟨place, row, found, same⟩ := isLinked_iff.mp linked
      refine any_values_iff.mpr ⟨place, row, ?_, same⟩
      rw [Table.get?_filter, found, Option.filter_some, if_pos]
      rw [Bool.not_eq_true']
      refine Bool.eq_false_iff.mpr fun isKept => unlinked (isLinked_iff.mpr ⟨place, row, ?_, same⟩)
      show (m.rows.filter keep).get? place = some row
      rw [Table.get?_filter, found, Option.filter_some, if_pos isKept]
    show ((m.keepRows keep).contents.get? id).map _ = none
    rw [get?_contents_keepRows, isDropped, notKept]
    cases m.contents.get? id <;> simp
  · show ((m.keepRows keep).contents.get? id).map _ = none
    rw [get?_contents_keepRows, Option.map_eq_none_iff.mp absent]
    rfl

/-- Removing a message everywhere drops its rows and its content. -/
theorem stock_deleteMessage (id : MessageId) :
    m.stock.Drops { m.keepRows (fun _ row => row.messageId ≠ id) with
      contents := (m.keepRows fun _ row => row.messageId ≠ id).contents.erase id }.stock := by
  refine (m.stock_keepRows fun _ row => row.messageId ≠ id).trans
    (.of_contents (fun _ => .inl rfl) (fun other linked => ?_)
      (fun other linked unlinked => absurd linked unlinked) fun other absent => ?_)
  · have different : other ≠ id := by
      rintro rfl
      obtain ⟨place, row, found, same⟩ := isLinked_iff.mp linked
      have found : (m.rows.filter _).get? place = some row := found
      rw [Table.get?_filter, Option.filter_eq_some_iff] at found
      exact of_decide_eq_true found.2 same
    show ((Table.erase _ id).get? other).map _ = _
    rw [Table.get?_erase, if_neg different]
    rfl
  · show ((Table.erase _ id).get? other).map _ = _
    rw [Table.get?_erase]
    split
    · rfl
    · exact absent

/-! #### Reading -/

/-- A row that is read in full shows its content. -/
theorem present_shows (found : m.rows.get? place = some row) :
    m.stock.Shows (m.present .full row) :=
  ⟨isLinked_iff.mpr ⟨place, row, found, rfl⟩, rfl⟩

/-- Rows of a mailbox that are read in full show their contents. -/
theorem mailboxRows_shows {mailbox : MailboxId} (member : row ∈ m.mailboxRows mailbox) :
    m.stock.Shows (m.present .full row) := by
  obtain ⟨place, found⟩ := Table.mem_values_iff.mp member
  rw [Table.get?_filter, Option.filter_eq_some_iff] at found
  exact present_shows found.1

theorem find_shows {mailbox : MailboxId} {uid : Uid}
    (done : m.find mailbox uid .full = .ok (some row)) :
    m.stock.Shows row := by
  obtain ⟨_, -, done⟩ := Outcomes.bind_eq_ok.mp done
  injection done with answered
  obtain ⟨stored, found, rfl⟩ := Option.map_eq_some_iff.mp answered
  exact present_shows found

theorem fetchBatch_shows {mailbox : MailboxId} {uids : List Uid} {rows : List Message}
    (done : m.fetchBatch mailbox uids .full = .ok rows) : ∀ row ∈ rows, m.stock.Shows row := by
  obtain ⟨_, -, done⟩ := Outcomes.bind_eq_ok.mp done
  cases done
  intro row member
  obtain ⟨stored, listed, rfl⟩ := List.mem_map.mp member
  exact mailboxRows_shows (List.mem_filter.mp listed).1

theorem fetchPage_shows {request : PageRequest} {rows : List Message}
    (done : m.fetchPage request .full = .ok rows) : ∀ row ∈ rows, m.stock.Shows row := by
  obtain ⟨_, -, done⟩ := Outcomes.bind_eq_ok.mp done
  cases done
  intro row member
  obtain ⟨stored, listed, rfl⟩ := List.mem_map.mp member
  exact mailboxRows_shows (List.mem_filter.mp (List.mem_of_mem_take listed)).1

/-! #### The instance -/

/-- A write changes the stock as it does when it succeeds. -/
theorem relates_write {α : Type} {R : Stock → Stock → Prop} (refl : ∀ s, R s s)
    {f : Store → Except StoreError (α × Store)}
    (writes : ∀ {m a after}, f m = .ok (a, after) → m.IsSound →
      after.IsSound ∧ R m.stock after.stock) : (Step.write f).Within (Relates stock R) := by
  intro m sound
  cases done : f m with
  | error e =>
    rw [Step.write_of_error done]
    exact ⟨sound, refl _⟩
  | ok outcome =>
    rw [Step.write_of_ok done]
    exact writes done sound

/-- An insert that succeeds has found its place free. -/
theorem insert_inserts (sound : m.IsSound) {message : Message} {content : Octets}
    (given : message.content = some content) :
    Inserts stock message content m (Storage.insert message m).1 (Storage.insert message m).2 := by
  cases done : m.insert message with
  | error e =>
    rw [show Storage.insert message m = _ from Step.write_of_error done]
    exact ⟨sound, fun _ _ => rfl, nofun, nofun⟩
  | ok outcome =>
    obtain ⟨_, after⟩ := outcome
    obtain ⟨-, free, rfl⟩ := insert_ok done
    rw [show Storage.insert message m = _ from Step.write_of_ok done]
    exact {
      isSound := sound.withRows _ _ _
      refused := nofun
      free := fun _ => congrArg (Option.map Message.link) free
      put := fun _ => stock_insert given }

instance : Stocked Store where
  stock := stock
  nextUid mailbox := relates_write .refl fun done sound => by
    obtain ⟨-, rfl⟩ := allocate_ok done
    exact ⟨sound.withRows _ _ _, rfl⟩
  nextModSeq mailbox := relates_write .refl fun done sound => by
    obtain ⟨-, rfl⟩ := allocate_ok done
    exact ⟨sound.withRows _ _ _, rfl⟩
  insert message content given m sound := insert_inserts sound given
  updateFlags mailbox uid edit modSeq expected := relates_write .refl fun done sound => by
    obtain ⟨-, row, found, -, -, rfl⟩ := updateFlags_ok done
    exact ⟨sound.withRows _ _ _, (stock_insert_row found (edited_link edit modSeq row)).symm⟩
  resetRecent mailbox uids modSeq fits ascending := relates_write .refl fun done sound => by
    obtain ⟨-, rfl⟩ := resetRecent_ok (ascending.imp fun before => Nat.ne_of_lt before) done
    refine ⟨sound.withRows _ _ _, (stock_mapValues fun place row => ?_).symm⟩
    unfold resetAt
    split <;> rfl
  deleteBatch mailbox uids _ := relates_write .refl fun done sound => by
    rw [deleteBatch_ok done]
    exact ⟨sound.withRows _ _ _, stock_keepRows _⟩
  deleteMailbox mailbox := relates_write .refl fun done sound => by
    rw [deleteMailbox_ok done]
    exact ⟨sound.withRows _ _ _, stock_keepRows _⟩
  deleteMessage id := relates_write .refl fun done sound => by
    rw [deleteMessage_ok done]
    exact ⟨sound.withRows _ _ _, stock_deleteMessage id⟩
  appendChange draft expiresAt := relates_write .refl fun done sound => by
    obtain ⟨rfl, rfl⟩ := appendChange_ok done
    exact ⟨sound.recorded draft expiresAt, rfl⟩
  purgeExpired now := relates_write .refl fun done sound => by
    rw [purgeExpired_ok done]
    exact ⟨sound.dropped _, rfl⟩
  find {m} sound _ place link found := by
    obtain ⟨row, stored, rfl⟩ := Option.map_eq_some_iff.mp found
    refine ⟨m.present .full row, ?_, rfl⟩
    show m.find place.mailbox place.uid .full = _
    unfold find
    rw [ensureAvailable_ok.mpr sound.available, stored]
    rfl
  find_shows _ _ := find_shows
  fetchBatch_shows _ _ := fetchBatch_shows
  fetchPage_shows _ _ := fetchPage_shows

end Memory.Store

/-! ### In the database -/

namespace Database

/-- A row as a link: its message, and whether its dates can be read. -/
def MessageRow.link (row : MessageRow) (place : Place) : Option Link :=
  row.values.toOption.map fun values =>
    ⟨values.messageId, (values.read place .empty none).toOption.isSome⟩

/-- The links of the rows, and the contents. -/
def Store.stock (d : Store) : Stock where
  linkAt place := (d.database.messages.get? place).bind (·.link place)
  contentOf := d.database.contents.get?

/-- A row that was written is read as a link of its message. -/
theorem MessageRow.link_encode (row : Message) (place : Place) :
    (MessageRow.encode row).link place = some row.link := by
  unfold link
  rw [values_encode]
  refine congrArg (fun isPlain => some (Link.mk row.messageId isPlain)) ?_
  by_cases plain : row.HasPlainDates
  · rw [show none = (none : Option Octets).map StoredContent.packed from rfl, read_of_plain plain,
      decide_eq_true plain]
    rfl
  · obtain ⟨text, fails⟩ := read_of_not_plain plain place .empty none
    rw [show none = (none : Option Octets).map StoredContent.packed from rfl, fails,
      decide_eq_false plain]
    rfl

/-- A row that was written links its message. -/
theorem Store.isLinked_of_encode {d : Store} {place : Place} {message : Message}
    (found : d.database.messages.get? place = some (.encode message)) :
    d.stock.IsLinked message.messageId := by
  refine ⟨place, message.link, ?_, rfl⟩
  show (d.database.messages.get? place).bind _ = _
  rw [found]
  exact MessageRow.link_encode message place

end Database

namespace Mirror

open Database (MessageRow)

variable {α : Type} {regular : Prop} {log : Log} {m : Memory.Store} {d : Database.Store}

namespace Mirrors

/-- A database has the stock of the store that it mirrors. -/
theorem stock_eq (mirrors : Mirrors regular log m d) : d.stock = m.stock := by
  refine Stock.ext (funext fun place => ?_) (funext fun id => ?_)
  · show (d.database.messages.get? place).bind _ = (m.rows.get? place).map _
    rw [mirrors.get?_messages]
    cases m.rows.get? place with
    | none => rfl
    | some row => exact MessageRow.link_encode row place
  · exact mirrors.get?_contents id

/-- Where the stock is plain, so are the dates of the rows. -/
theorem readable_of_isPlain (mirrors : Mirrors regular log m d) (plain : d.stock.IsPlain) :
    ∀ row ∈ m.rows.values, row.HasPlainDates := by
  rw [mirrors.stock_eq] at plain
  intro row member
  obtain ⟨place, found⟩ := Table.mem_values_iff.mp member
  exact of_decide_eq_true (plain place row.link (congrArg (Option.map Message.link) found))

end Mirrors

theorem KeepsRows.stock_eq {after : Database.Store} (keeps : KeepsRows d after) :
    after.IsSound ∧ d.stock = after.stock := by
  obtain ⟨m, log, log', sound, mirrors, after, written⟩ := keeps
  exact ⟨after.isSound sound written, mirrors.stock_eq.trans after.stock_eq.symm⟩

/-- A step of the database changes its stock as one in memory does, if it follows that step. -/
theorem relates_of_follows {R : Stock → Stock → Prop} (refl : ∀ s, R s s)
    {left : Step Memory.Store α} {right : Step Database.Store α}
    (relates : left.Within (Relates Memory.Store.stock R))
    (follows : ∀ {log m d}, Mirrors False log m d → Follows False log left right m d) :
    right.Within (Relates Database.Store.stock R) := fun _ =>
  sound_of_follows (fun s _ => R s) (fun mirrors => mirrors.stock_eq) (fun s _ => refl s) relates
    follows

/-- An insert into the database is one into the store that it mirrors, or is refused. -/
theorem insert_inserts (sound : d.IsSound) {message : Message} {content : Octets}
    (given : message.content = some content) :
    Inserts Database.Store.stock message content d (Storage.insert message d).1
      (Storage.insert message d).2 := by
  obtain ⟨m, sound, mirrors, written⟩ := sound
  have given : message.asWritten.content = some content := given
  have inserts := Memory.Store.insert_inserts sound given
  rcases mirrors.insert_follows message with ⟨answer, after⟩ | ⟨e, fails, after⟩
  · rw [answer]
    exact {
      isSound := after.isSound inserts.isSound written
      refused := fun e failed =>
        after.stock_eq.trans ((inserts.refused e failed).trans mirrors.stock_eq.symm)
      free := fun done => mirrors.stock_eq ▸ inserts.free done
      put := fun done => by
        rw [after.stock_eq, mirrors.stock_eq, inserts.put done, message.link_asWritten]
        rfl }
  · rw [fails]
    exact ⟨after.isSound sound written,
      fun _ _ => after.stock_eq.trans mirrors.stock_eq.symm, nofun, nofun⟩

open Stocked in
instance : Stocked Database.Store where
  stock := Database.Store.stock
  nextUid mailbox := relates_of_follows .refl (nextUid mailbox)
    fun mirrors => mirrors.nextUid_follows mailbox
  nextModSeq mailbox := relates_of_follows .refl (nextModSeq mailbox)
    fun mirrors => mirrors.nextModSeq_follows mailbox
  insert message content given _ sound := insert_inserts sound given
  updateFlags mailbox uid edit modSeq expected := relates_of_follows .refl
    (updateFlags mailbox uid edit modSeq expected)
    fun mirrors => mirrors.updateFlags_follows mailbox uid edit modSeq expected
  resetRecent mailbox uids modSeq fits ascending := relates_of_follows .refl
    (resetRecent mailbox uids modSeq fits ascending)
    fun mirrors => mirrors.resetRecent_follows mailbox fits ascending
  deleteBatch mailbox uids ascending := relates_of_follows .refl
    (deleteBatch mailbox uids ascending)
    fun mirrors => mirrors.deleteBatch_follows mailbox ascending
  deleteMailbox mailbox := relates_of_follows .refl (deleteMailbox mailbox)
    fun mirrors => mirrors.deleteMailbox_follows mailbox
  deleteMessage id := relates_of_follows .refl (deleteMessage id)
    fun mirrors => .inl (mirrors.deleteMessage_agrees id)
  appendChange draft expiresAt _ sound := (appendChange_keepsRows sound draft expiresAt).stock_eq
  purgeExpired now _ sound := (purgeExpired_keepsRows sound now).stock_eq
  find := by
    rintro d ⟨m, sound, mirrors, written⟩ plain place link found
    show ∃ row, d.find place.mailbox place.uid .full = _ ∧ _
    rw [mirrors.find_eq (mirrors.readable_of_isPlain plain)]
    rw [mirrors.stock_eq] at plain found
    exact Stocked.find (σ := Memory.Store) sound plain found
  find_shows := by
    rintro d ⟨m, sound, mirrors, written⟩ plain mailbox uid row answered
    have same := mirrors.find_eq (mirrors.readable_of_isPlain plain) mailbox uid .full
    rw [mirrors.stock_eq]
    exact Memory.Store.find_shows (same.symm.trans answered)
  fetchBatch_shows := by
    rintro d ⟨m, sound, mirrors, written⟩ plain mailbox uids rows answered
    rw [mirrors.stock_eq]
    exact Memory.Store.fetchBatch_shows
      (mirrors.fetchBatch_of_ok (mirrors.readable_of_isPlain plain) answered)
  fetchPage_shows := by
    rintro d ⟨m, sound, mirrors, written⟩ plain request rows answered
    have same := mirrors.fetchPage_eq (mirrors.readable_of_isPlain plain) request .full
    rw [mirrors.stock_eq]
    exact Memory.Store.fetchPage_shows (same.symm.trans answered)

end Mirror

/-! ### The two stores -/

namespace Service

/-- A new store in memory is empty. -/
theorem holdsNothing_inMemory (listBound : Nat) : HoldsNothing (Memory.Store.new listBound) :=
  ⟨Memory.Store.new_isSound listBound, fun _ => rfl, fun _ => rfl⟩

/-- A new database is empty. -/
theorem holdsNothing_inDatabase (path : String) (listBound : Nat) :
    HoldsNothing (Database.Store.new path listBound) :=
  ⟨Mirror.new_isSound path listBound, fun _ => rfl, fun _ => rfl⟩

/-- In memory and in the database, after any calls that add rows with years of four digits, content
is stored for a message if and only if it is linked. Every row can be read in full, and every read
in full answers the content given to the first append of the message that succeeded since the
message was last linked nowhere. -/
theorem contents_liveWhileLinked (policy : Policy) (path : String) (listBound : Nat)
    {calls : List Call} (plain : ∀ call ∈ calls, call.HasPlainDates) :
    KeepsContents policy (Memory.Store.new listBound) calls ∧
      KeepsContents policy (Database.Store.new path listBound) calls :=
  ⟨keepsContents ⟨Memory.Store.new_isSound listBound, fun _ => rfl, fun _ => rfl⟩ plain,
    keepsContents ⟨Mirror.new_isSound path listBound, fun _ => rfl, fun _ => rfl⟩ plain⟩

/-- A run in which a message is linked three times, unlinked everywhere by three calls, and linked
once more. -/
def relinkedMessageRun : List Call :=
  [.append "inbox" { id := "m1", content := [1] } .epoch,
    .append "inbox" { id := "m1", content := [2] } .epoch,
    .append "archive" { id := "m1", internalDate := some .epoch, content := [3] } .epoch,
    .deleteByUids "inbox" [1],
    .deleteMailbox "archive",
    .deleteMessage "m1",
    .append "archive" { id := "m1", content := [4] } .epoch]

/-- The content of that message after so many calls of that run. -/
def relinkedContent {σ : Type} [Storage σ] [Sound σ] [Stocked σ] (start : σ) (count : Nat) :
    Option StoredContent :=
  (stock (storeAfter ⟨1, none⟩ start relinkedMessageRun count)).contentOf "m1"

theorem contents_liveWhileLinked_relinkedMessageRun :
    ((∀ call ∈ relinkedMessageRun, call.HasPlainDates) ∧
      KeepsContents ⟨1, none⟩ (Memory.Store.new 2) relinkedMessageRun ∧
      KeepsContents ⟨1, none⟩ (Database.Store.new "mail" 2) relinkedMessageRun) ∧
    ((List.range 8).map (relinkedContent (Memory.Store.new 2)) =
        [none, some (.packed [1]), some (.packed [1]), some (.packed [1]), some (.packed [1]),
          some (.packed [1]), none, some (.packed [4])] ∧
      (List.range 8).map (relinkedContent (Database.Store.new "mail" 2)) =
        [none, some (.packed [1]), some (.packed [1]), some (.packed [1]), some (.packed [1]),
          some (.packed [1]), none, some (.packed [4])]) := by
  have plain : ∀ call ∈ relinkedMessageRun, call.HasPlainDates := by
    have epoch : Instant.epoch.HasPlainYear := by decide
    simp [relinkedMessageRun, Call.HasPlainDates, epoch]
  refine ⟨⟨plain, contents_liveWhileLinked ⟨1, none⟩ "mail" 2 plain⟩, ?_, ?_⟩
  · decide +kernel
  · decide +kernel

end Service

end Mailroom
