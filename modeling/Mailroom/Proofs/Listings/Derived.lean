import Mailroom.Proofs.Listings.Reached
/-!
Reads that are derived from rows.

Counts, the first number that is not seen, keywords and the mailboxes of a message are each read by
a statement of their own. `DerivedReadsAgree` compares what they answer with what listings and scans
deliver. They agree on any store that is read from one table, if its rows can be told and have
numbers that were given out (`ReadsFrom.derivedReadsAgree`): a row with the number 0 would be
counted, and a read of all numbers would pass it over. Calls lead to no other stores
(`derivedReads_agree`).
-/

namespace Mailroom

open Service

variable {σ ρ : Type}

namespace Service

variable [Storage σ]

/-- A listing delivers numbers. -/
def Lists (policy : Policy) (store : σ) (request : ScanRequest) (uids : List Uid) : Prop :=
  ∃ pages, ((Call.scanUids request).run policy store).1 = .ok ⟨uids.map .ok, pages⟩

/-- A scan delivers rows. -/
def Scans (policy : Policy) (store : σ) (request : ScanRequest) (fetch : Fetch)
    (rows : List Message) : Prop :=
  ∃ pages, ((Call.scan request fetch).run policy store).1 = .ok ⟨rows.map .ok, pages⟩

theorem map_ok_injective {α : Type} {xs ys : List α}
    (same : xs.map (Except.ok (ε := StoreError)) = ys.map .ok) : xs = ys :=
  List.map_injective_iff.mpr (fun _ _ => Except.ok.inj) same

theorem Lists.unique {policy : Policy} {store : σ} {request : ScanRequest} {uids others : List Uid}
    (lists : Lists policy store request uids) (lists' : Lists policy store request others) :
    uids = others := by
  obtain ⟨pages, answered⟩ := lists
  obtain ⟨pages', answered'⟩ := lists'
  injection answered.symm.trans answered' with same
  injection same with rows
  exact map_ok_injective rows

theorem Scans.unique {policy : Policy} {store : σ} {request : ScanRequest} {fetch : Fetch}
    {rows others : List Message} (scans : Scans policy store request fetch rows)
    (scans' : Scans policy store request fetch others) : rows = others := by
  obtain ⟨pages, answered⟩ := scans
  obtain ⟨pages', answered'⟩ := scans'
  injection answered.symm.trans answered' with same
  injection same with rows
  exact map_ok_injective rows

/-- What is derived from the rows of a store is what listings and scans of all of them deliver. -/
structure DerivedReadsAgree (policy : Policy) (store : σ) : Prop where
  /-- Listings and scans deliver all that they ask for. -/
  lists : ∀ request, ∃ uids, Lists policy store request uids
  scans : ∀ request fetch, ∃ rows, Scans policy store request fetch rows
  counts : ∀ {mailbox all unseen}, Lists policy store { mailbox } all →
    Lists policy store { mailbox, filter := .unseen } unseen →
    ((Call.counts mailbox).run policy store).1 = .ok ⟨all.length, unseen.length⟩
  /-- A row is either deleted or not. -/
  partition : ∀ {mailbox all deleted others}, Lists policy store { mailbox } all →
    Lists policy store { mailbox, filter := .deleted } deleted →
    Lists policy store { mailbox, filter := .notDeleted } others →
    (deleted ++ others).Perm all ∧ ∀ uid ∈ deleted, uid ∉ others
  firstUnseen : ∀ {mailbox unseen}, Lists policy store { mailbox, filter := .unseen } unseen →
    ((Call.firstUnseen mailbox).run policy store).1 = .ok unseen.head?
  keywords : ∀ {mailbox fetch rows}, Scans policy store { mailbox } fetch rows →
    ((Call.keywords mailbox).run policy store).1
      = .ok (rows.foldl (fun set row => set.union row.flags.keywords) .empty)
  /-- A message is found in the mailboxes that hold it: each of them once, and sorted. -/
  findMailboxes : ∀ id, ∃ mailboxes : List MailboxId,
    ((Call.findMailboxes id).run policy store).1 = .ok mailboxes ∧
    mailboxes.Pairwise (· < ·) ∧ ∀ {mailbox fetch rows}, Scans policy store { mailbox } fetch rows →
      (mailbox ∈ mailboxes ↔ ∃ row ∈ rows, row.messageId = id)

end Service

/-! ### Stores that are read from a table -/

/-- A number is that of one row of a mailbox only. -/
theorem Table.inMailbox_uid_unique {t : Table Place ρ} {mailbox : MailboxId}
    {entry other : Place × ρ} (here : entry ∈ (t.inMailbox mailbox).entries)
    (here' : other ∈ (t.inMailbox mailbox).entries) (same : entry.1.uid = other.1.uid) :
    entry = other := by
  obtain ⟨⟨_, uid⟩, row⟩ := entry
  obtain ⟨⟨_, _⟩, row'⟩ := other
  obtain ⟨stored, rfl⟩ := mem_inMailbox.mp here
  obtain ⟨stored', rfl⟩ := mem_inMailbox.mp here'
  cases same
  have found := Table.get?_eq_some_iff.mpr stored
  rw [Table.get?_eq_some_iff.mpr stored'] at found
  cases found
  rfl

namespace ReadsFrom

variable [Storage σ] {store : σ} {t : Table Place ρ} {reader : Reader ρ} {policy : Policy}
  {mailbox : MailboxId}

/-- A listing delivers the numbers of the rows that it asks for. -/
theorem lists (reads : ReadsFrom store t reader) (request : ScanRequest) :
    Lists policy store request (cut request.limit ((reader.asked t request).map (·.1.uid))) :=
  ⟨_, congrArg (fun rows => Except.ok (Scanned.mk rows _)) (reads.scanUids_eq policy.batch request)⟩

/-- A scan delivers the rows that are picked from the shelf. -/
theorem scans (reads : ReadsFrom store t reader) (tells : reader.Tells t) (request : ScanRequest)
    (fetch : Fetch) :
    Scans policy store request fetch
      (cut request.limit ((request.picked (reader.shelf t)).map fetch.shown)) :=
  ⟨_, congrArg (fun rows => Except.ok (Scanned.mk rows _))
    ((reads.agree tells).scan policy.batch request fetch).1⟩

variable (numbered : ∀ entry ∈ t.entries, 1 ≤ entry.1.uid)

include numbered

/-- A read of all numbers of a mailbox asks for all of its rows that pass the filter. -/
theorem asked_all (filter : Filter) :
    reader.asked t { mailbox, filter }
      = ((t.inMailbox mailbox).filter fun _ => reader.passes filter).entries := by
  rw [Reader.asked, Table.onPage]
  refine congrArg Table.entries (Table.filter_congr fun entry member => ?_)
  have given := numbered entry (Table.mem_inMailbox.mp member).1
  show ((decide (1 ≤ entry.1.uid) && true) && true && reader.passes filter entry.2) = _
  rw [decide_eq_true given]
  rfl

/-- The listing of all numbers of a mailbox whose rows pass a filter. -/
theorem listed_eq (reads : ReadsFrom store t reader) {filter : Filter} {uids : List Uid}
    (lists : Lists policy store { mailbox, filter } uids) :
    uids = ((t.inMailbox mailbox).filter fun _ => reader.passes filter).entries.map (·.1.uid) := by
  rw [lists.unique (reads.lists _), asked_all numbered]
  rfl

omit numbered in
/-- The flags of a row of a mailbox tell which filters it passes. -/
theorem passes_inMailbox (tells : reader.Tells t) (filter : Filter) {entry : Place × ρ}
    (member : entry ∈ (t.inMailbox mailbox).entries) :
    reader.passes filter entry.2 = filter.admits (reader.told entry).flags :=
  (tells.of_mem (Table.mem_inMailbox.mp member).1).2 filter

omit numbered in
theorem inMailbox_any (tells : reader.Tells t) :
    (t.inMailbox mailbox).filter (fun _ => reader.passes .any) = t.inMailbox mailbox :=
  Table.filter_eq_self fun _ member => passes_inMailbox tells .any member

/-- A scan of all numbers of a mailbox delivers all of its rows. -/
theorem scanned_eq (reads : ReadsFrom store t reader) (tells : reader.Tells t) {fetch : Fetch}
    {rows : List Message} (scans : Scans policy store { mailbox } fetch rows) :
    rows = (t.inMailbox mailbox).entries.map fun entry => fetch.shown (reader.told entry) := by
  rw [scans.unique (reads.scans tells _ _), cut, ← reads.asked_told tells, asked_all numbered,
    inMailbox_any tells, List.map_map]
  rfl

/-- Deleted rows and the others are all rows of a mailbox, and no row is both. -/
theorem partition_eq (reads : ReadsFrom store t reader) (tells : reader.Tells t)
    {all deleted others : List Uid} (listsAll : Lists policy store { mailbox } all)
    (listsDeleted : Lists policy store { mailbox, filter := .deleted } deleted)
    (listsOthers : Lists policy store { mailbox, filter := .notDeleted } others) :
    (deleted ++ others).Perm all ∧ ∀ uid ∈ deleted, uid ∉ others := by
  have rest : ((t.inMailbox mailbox).filter fun _ => reader.passes .notDeleted).entries
      = (t.inMailbox mailbox).entries.filter fun entry => !reader.passes .deleted entry.2 := by
    rw [Table.entries_filter]
    refine List.filter_congr fun entry member => ?_
    rw [passes_inMailbox tells .notDeleted member, passes_inMailbox tells .deleted member]
    rfl
  rw [reads.listed_eq numbered listsAll, reads.listed_eq numbered listsDeleted,
    reads.listed_eq numbered listsOthers, inMailbox_any tells, rest]
  constructor
  · rw [← List.map_append]
    exact (List.filter_append_perm _ _).map _
  · intro uid listed listed'
    obtain ⟨entry, chosen, rfl⟩ := List.mem_map.mp listed
    obtain ⟨other, chosen', same⟩ := List.mem_map.mp listed'
    obtain ⟨here, isDeleted⟩ := List.mem_filter.mp chosen
    obtain ⟨here', isKept⟩ := List.mem_filter.mp chosen'
    rw [Table.inMailbox_uid_unique here' here same] at isKept
    simp [isDeleted] at isKept

/-- The keywords of the rows that a scan delivers are those that the rows are told to have. -/
theorem keywords_eq (reads : ReadsFrom store t reader) (tells : reader.Tells t) {fetch : Fetch}
    {rows : List Message} (scans : Scans policy store { mailbox } fetch rows) {set : NameSet}
    (keywords : ∀ keyword, keyword ∈ set ↔
      ∃ entry ∈ (t.inMailbox mailbox).entries, keyword ∈ (reader.told entry).flags.keywords) :
    set = rows.foldl (fun set row => set.union row.flags.keywords) .empty := by
  have flags (row : Message) : (fetch.shown row).flags = row.flags := by cases fetch <;> rfl
  ext keyword
  rw [Mirror.Mirrors.mem_foldl_union, keywords, reads.scanned_eq numbered tells scans]
  simp [flags]

/-- A message is found in a mailbox if the scan of that mailbox delivers a row of it. -/
theorem mem_mailboxes_iff (reads : ReadsFrom store t reader) (tells : reader.Tells t)
    {id : MessageId} {fetch : Fetch} {rows : List Message}
    (isOf : ∀ entry ∈ t.entries,
      reader.isOf id entry.2 = decide ((reader.told entry).messageId = id))
    (scans : Scans policy store { mailbox } fetch rows) :
    mailbox ∈ NameSet.ofList ((t.filter fun _ => reader.isOf id).entries.map (·.1.mailbox)) ↔
      ∃ row ∈ rows, row.messageId = id := by
  have sameId (row : Message) : (fetch.shown row).messageId = row.messageId := by
    cases fetch <;> rfl
  rw [NameSet.mem_ofList, reads.scanned_eq numbered tells scans, List.mem_map]
  constructor
  · rintro ⟨entry, chosen, here⟩
    obtain ⟨member, isOne⟩ := List.mem_filter.mp chosen
    have isOne := of_decide_eq_true ((isOf entry member).symm.trans isOne)
    exact ⟨_, List.mem_map_of_mem (Table.mem_inMailbox.mpr ⟨member, here⟩), (sameId _).trans isOne⟩
  · rintro ⟨row, listed, isOne⟩
    obtain ⟨entry, inMailbox, rfl⟩ := List.mem_map.mp listed
    obtain ⟨member, here⟩ := Table.mem_inMailbox.mp inMailbox
    have isOne := decide_eq_true ((sameId (reader.told entry)).symm.trans isOne)
    exact ⟨entry, List.mem_filter.mpr ⟨member, (isOf entry member).trans isOne⟩, here⟩

/-- On a store that is read from one table, whose rows can be told and have numbers that were given
out, what is derived agrees with what is listed. -/
theorem derivedReadsAgree (reads : ReadsFrom store t reader) (tells : reader.Tells t)
    (isOf : ∀ id, ∀ entry ∈ t.entries,
      reader.isOf id entry.2 = decide ((reader.told entry).messageId = id))
    (keywords : ∀ mailbox, ∃ set, Storage.keywords mailbox store = (.ok set, store) ∧
      ∀ keyword, keyword ∈ set ↔ ∃ entry ∈ (t.inMailbox mailbox).entries,
        keyword ∈ (reader.told entry).flags.keywords) :
    DerivedReadsAgree policy store where
  lists request := ⟨_, reads.lists request⟩
  scans request fetch := ⟨_, reads.scans tells request fetch⟩
  counts {mailbox all unseen} listsAll listsUnseen := by
    show (Storage.counts mailbox store).1 = _
    rw [reads.counts, reads.listed_eq numbered listsAll, reads.listed_eq numbered listsUnseen,
      inMailbox_any tells, List.length_map, List.length_map]
    rfl
  partition := reads.partition_eq numbered tells
  firstUnseen {mailbox unseen} lists := by
    show (Storage.firstUnseen mailbox store).1 = _
    rw [reads.firstUnseen, reads.listed_eq numbered lists, List.head?_map]
    rfl
  keywords {mailbox fetch rows} scans := by
    show (Storage.keywords mailbox store).1 = _
    obtain ⟨set, answered, members⟩ := keywords mailbox
    rw [answered, reads.keywords_eq numbered tells scans members]
    rfl
  findMailboxes id := by
    refine ⟨_, congrArg Prod.fst (reads.findMailboxes id), NameSet.ascending _, ?_⟩
    exact fun scans => reads.mem_mailboxes_iff numbered tells (isOf id) scans

end ReadsFrom

/-! ### The two stores -/

namespace Memory.Store

variable {m : Store}

/-- The keywords in memory are those of the rows of a mailbox. -/
theorem IsLegible.keywords_told (legible : m.IsLegible) (mailbox : MailboxId) :
    ∃ set, Storage.keywords mailbox m = (.ok set, m) ∧ ∀ keyword, keyword ∈ set ↔
      ∃ entry ∈ (m.rows.inMailbox mailbox).entries,
        keyword ∈ (m.reader.told entry).flags.keywords := by
  refine ⟨(m.mailboxRows mailbox).foldl (fun set row => set.union row.flags.keywords) .empty,
    Prod.ext ?_ rfl, fun keyword => ?_⟩
  · show m.keywords mailbox = _
    unfold keywords
    rw [ensureAvailable_ok.mpr legible.available]
    rfl
  · rw [Mirror.Mirrors.mem_foldl_union]
    constructor
    · rintro (nowhere | ⟨row, member, has⟩)
      · exact absurd nowhere NameSet.not_mem_empty
      · obtain ⟨entry, inMailbox, rfl⟩ := List.mem_map.mp member
        exact ⟨entry, inMailbox, has⟩
    · rintro ⟨entry, inMailbox, has⟩
      exact .inr ⟨entry.2, List.mem_map_of_mem inMailbox, has⟩

end Memory.Store

namespace Database.Store

variable {d : Store}

/-- A row of a legible database is told as it is read in full. -/
theorem IsLegible.read_told (legible : d.IsLegible) {entry : Place × MessageRow}
    (member : entry ∈ d.database.messages.entries) :
    ∃ message, entry.2 = .encode message ∧
      readEntry d.database .full (entry.1, .encode message) = .ok (d.reader.told entry) := by
  obtain ⟨-, message, -, same⟩ := legible.written _ _ (Table.get?_eq_some_iff.mpr member)
  exact ⟨message, same, same ▸ (legible.tells.of_mem member).1 .full⟩

/-- The statement on a message chooses the rows that are told to be of that message. -/
theorem IsLegible.isOf_told (legible : d.IsLegible) (id : MessageId) :
    ∀ entry ∈ d.database.messages.entries,
      d.reader.isOf id entry.2 = decide ((d.reader.told entry).messageId = id) := by
  intro entry member
  obtain ⟨message, same, read⟩ := legible.read_told member
  rw [(origin_of_readEntry_eq_ok read).1, same]
  exact decide_eq_decide.mpr ⟨Cell.text.inj, congrArg Cell.text⟩

/-- The statement on keywords answers those of the rows of a mailbox. -/
theorem IsLegible.keywords_told (legible : d.IsLegible)
    (keyworded : ∀ {place keyword}, (place, keyword) ∈ d.database.keywords →
      ∃ row, d.database.messages.get? place = some row) (mailbox : MailboxId) :
    ∃ set, Storage.keywords mailbox d = (.ok set, d) ∧ ∀ keyword, keyword ∈ set ↔
      ∃ entry ∈ (d.database.messages.inMailbox mailbox).entries,
        keyword ∈ (d.reader.told entry).flags.keywords := by
  have flags {entry : Place × MessageRow} (member : entry ∈ d.database.messages.entries) :
      (d.reader.told entry).flags.keywords = keywordsAt d.database entry.1 := by
    obtain ⟨message, -, read⟩ := legible.read_told member
    exact congrArg Flags.keywords (of_readEntry_eq_ok read).2
  refine ⟨.ofList ((d.database.keywords.filter fun k => k.1.mailbox = mailbox).map (·.2)),
    Prod.ext ?_ rfl, fun keyword => ?_⟩
  · show d.keywords mailbox = _
    unfold keywords
    rw [Mirror.requireRelations_of_complete legible.complete]
    rfl
  · rw [mem_keywordsOf]
    constructor
    · rintro ⟨place, here, has⟩
      obtain ⟨row, found⟩ := keyworded (mem_keywordsAt.mp has)
      have member := Table.get?_eq_some_iff.mp found
      exact ⟨(place, row), Table.mem_inMailbox.mpr ⟨member, here⟩, flags member ▸ has⟩
    · rintro ⟨⟨place, row⟩, inMailbox, has⟩
      obtain ⟨member, here⟩ := Table.mem_inMailbox.mp inMailbox
      exact ⟨place, here, flags member ▸ has⟩

end Database.Store

namespace Service

/-- In memory and in the database, after any calls that add rows with years of four digits, what is
derived from the rows agrees with what listings and scans of them deliver. -/
theorem derivedReads_agree (policy : Policy) (path : String) (listBound : Nat) {calls : List Call}
    (plain : ∀ call ∈ calls, call.HasPlainDates) :
    DerivedReadsAgree policy (Call.runAll policy calls (Memory.Store.new listBound)).2 ∧
      DerivedReadsAgree policy
        (Call.runAll policy calls (Database.Store.new path listBound)).2 := by
  constructor
  · have legible := Memory.Store.runAll_isLegible policy calls listBound
    exact (Memory.Store.runAll_readsFrom policy calls listBound).derivedReadsAgree
      (Memory.Store.runAll_uid_pos policy calls listBound) legible.tells (fun _ _ _ => rfl)
      legible.keywords_told
  · have legible := Database.Store.runAll_isLegible policy calls path listBound plain
    have sound := Database.Store.runAll_isSound policy calls path listBound
    exact (Database.Store.runAll_readsFrom policy calls path listBound).derivedReadsAgree
      (Database.Store.runAll_uid_pos policy calls path listBound) legible.tells legible.isOf_told
      (legible.keywords_told sound.keyworded)

/-- A run in which messages are linked, flagged, reset and removed. -/
def flaggedMessagesRun : List Call :=
  [.append "inbox" { id := "m1", flags := { recent := true, keywords := .ofList ["work"] } } .epoch,
    .append "inbox" { id := "m2", flags := { seen := true } } .epoch,
    .append "inbox" { id := "m3", flags := { keywords := .ofList ["later"] } } .epoch,
    .append "archive" { id := "m3" } .epoch,
    .applyFlags "inbox" 2 ⟨{ deleted := true, keywords := .ofList ["old"] }, .add⟩ none,
    .resetRecent "inbox" [1, 7] 9,
    .deleteByUids "inbox" [3],
    .append "inbox" { id := "m3" } .epoch]

/-- What is derived from the rows after that run. -/
def derivedAfterRun {σ : Type} [Storage σ] (start : σ) :
    Option MailboxCounts × Option (Option Uid) × Option (List String) × Option (List MailboxId) :=
  let store := (Call.runAll ⟨1, none⟩ flaggedMessagesRun start).2
  ((Storage.counts "inbox" store).1.toOption, (Storage.firstUnseen "inbox" store).1.toOption,
    (Storage.keywords "inbox" store).1.toOption.map NameSet.toList,
    (Storage.findMailboxes "m3" store).1.toOption)

theorem derivedReads_agree_flaggedMessagesRun :
    ((∀ call ∈ flaggedMessagesRun, call.HasPlainDates) ∧
      DerivedReadsAgree ⟨1, none⟩
        (Call.runAll ⟨1, none⟩ flaggedMessagesRun (Memory.Store.new 2)).2 ∧
      DerivedReadsAgree ⟨1, none⟩
        (Call.runAll ⟨1, none⟩ flaggedMessagesRun (Database.Store.new "mail" 2)).2) ∧
    derivedAfterRun (Memory.Store.new 2)
        = (some ⟨3, 2⟩, some (some 1), some ["old", "work"], some ["archive", "inbox"]) ∧
      derivedAfterRun (Database.Store.new "mail" 2)
        = (some ⟨3, 2⟩, some (some 1), some ["old", "work"], some ["archive", "inbox"]) := by
  have plain : ∀ call ∈ flaggedMessagesRun, call.HasPlainDates := by
    have epoch : Instant.epoch.HasPlainYear := by decide
    simp [flaggedMessagesRun, Call.HasPlainDates, epoch]
  refine ⟨⟨plain, derivedReads_agree ⟨1, none⟩ "mail" 2 plain⟩, ?_, ?_⟩
  · decide +kernel
  · decide +kernel

end Service

end Mailroom
