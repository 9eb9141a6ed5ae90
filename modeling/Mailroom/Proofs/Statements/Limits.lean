import Mailroom.Proofs.Statements.Bounds
/-!
Lists and the limit of the engine.

The engine refuses a statement with more parameters than its limit. `Store.unlimited` says that no
operation on a partition comes near the limit, if there is room for the greatest partition.

`lists_bounded_iff` puts this and the length of the lists together for calls. `largeCalls_refused`
is what goes wrong beyond that: a removal that sends more than it should, and a database whose
greatest partition is too great.
-/

namespace Mailroom.Database

open Service

variable {α : Type} {bound : Nat}

namespace Store

/-- A database under another limit on the parameters of a statement. -/
def withLimit (d : Store) (limit : Nat) : Store := { d with variableLimit := limit }

/-- Two databases that differ in their limits only. The limit of the first has room for a list of as
many numbers as are taken in one call, and for the other parameters of its statement. -/
def DifferInLimit (bound limit : Nat) (d d' : Store) : Prop :=
  d' = d.withLimit limit ∧ max d.listBound 1 = bound ∧ bound + 3 ≤ d.variableLimit

variable {limit : Nat} {d : Store} {mailbox : MailboxId} {uids : List Uid}

theorem bindVariables_withLimit {count : Nat} (few : count ≤ d.variableLimit)
    (few' : count ≤ limit) : (d.withLimit limit).bindVariables count = d.bindVariables count := by
  have room : count ≤ (d.withLimit limit).variableLimit := few'
  rw [bindVariables_of_le few, bindVariables_of_le room]

theorem selectUids_withLimit (few : uids.length + 3 ≤ d.variableLimit)
    (few' : uids.length + 3 ≤ limit) (db : Database) (fetch : Fetch) :
    selectUids { d.withLimit limit with database := db } mailbox uids fetch
      = selectUids { d with database := db } mailbox uids fetch := by
  have fewer : (storedUids uids).length ≤ uids.length := length_storedUids_le
  unfold selectUids
  simp only
  split
  · rfl
  · have bound : (storedUids uids).length + 1 ≤ d.variableLimit := by omega
    have bound' : (storedUids uids).length + 1 ≤ limit := by omega
    have same := bindVariables_withLimit (d := { d with database := db }) bound bound'
    exact congrArg (· >>= _) same

theorem collectContents_withLimit {ids : NameSet} (few : ids.size ≤ d.variableLimit)
    (few' : ids.size ≤ limit) (db : Database) :
    (d.withLimit limit).collectContents db ids = d.collectContents db ids := by
  unfold collectContents
  rw [bindVariables_withLimit few few']

theorem resetBatch_withLimit (few : uids.length + 3 ≤ d.variableLimit)
    (few' : uids.length + 3 ≤ limit) (modSeq : ModSeq) :
    Mirror.resetBatch mailbox uids modSeq (d.withLimit limit)
      = Mirror.resetBatch mailbox uids modSeq d := by
  have asks : Mirror.askRows (d.withLimit limit) uids = Mirror.askRows d uids := by
    have fewer : (storedUids uids).length ≤ uids.length := length_storedUids_le
    unfold Mirror.askRows
    rw [bindVariables_withLimit (by omega) (by omega)]
    rfl
  unfold Mirror.resetBatch
  rw [asks]
  refine congrArg (Mirror.askRows d uids >>= ·) (funext fun _ => ?_)
  show (sortUids d.database mailbox (.integer modSeq) uids >>= _) = _
  cases sorted : sortUids d.database mailbox (.integer modSeq) uids with
  | error e => rfl
  | ok found =>
    obtain ⟨missing, applied, changing⟩ := found
    have fewer := (sublist_of_sortUids sorted).length_le
    simp only [Outcomes.ok_bind]
    split
    · rfl
    rw [bindVariables_withLimit (by omega) (by omega),
      selectUids_withLimit (by omega) (by omega)]
    rfl

theorem query_unlimited {f : Store → Except StoreError α}
    (same : ∀ d, DifferInLimit bound limit d (d.withLimit limit) → f (d.withLimit limit) = f d) :
    Step.Alike (DifferInLimit bound limit) (query f) (query f) := by
  rintro d _ ⟨rfl, isBound, room⟩
  exact ⟨(same d ⟨rfl, isBound, room⟩).symm, rfl, isBound, room⟩

theorem transaction_withLimit {f : Store → Except StoreError (α × Database)}
    (same : d.lockedOut = false → f (d.withLimit limit) = f d) :
    transaction f (d.withLimit limit)
      = ((transaction f d).1, (transaction f d).2.withLimit limit) := by
  by_cases unlocked : d.IsUnlocked
  · have same := same unlocked
    have unlocked' : (d.withLimit limit).lockedOut = false := unlocked
    cases done : f d with
    | error e =>
      rw [done] at same
      rw [transaction_of_error unlocked done, transaction_of_error unlocked' same]
    | ok outcome =>
      obtain ⟨a, db⟩ := outcome
      rw [done] at same
      rw [transaction_of_ok unlocked done, transaction_of_ok unlocked' same]
      rfl
  · have shut : ¬ (d.withLimit limit).IsUnlocked := unlocked
    rw [transaction_locked unlocked, transaction_locked shut]

theorem transaction_unlimited {f : Store → Except StoreError (α × Database)}
    (same : ∀ d, DifferInLimit bound limit d (d.withLimit limit) → f (d.withLimit limit) = f d) :
    Step.Alike (DifferInLimit bound limit) (transaction f) (transaction f) := by
  rintro d _ ⟨rfl, isBound, room⟩
  have kept : (transaction f d).2.listBound = d.listBound ∧
      (transaction f d).2.variableLimit = d.variableLimit := by
    rcases done : transaction f d with ⟨e | a, after⟩
    · cases transaction_error done
      exact ⟨rfl, rfl⟩
    · obtain ⟨db, -, rfl⟩ := transaction_ok done
      exact ⟨rfl, rfl⟩
  rw [transaction_withLimit fun _ => same d ⟨rfl, isBound, room⟩]
  exact ⟨rfl, rfl, kept.1 ▸ isBound, kept.2 ▸ room⟩

theorem compileKeyword_unlimited (reached : Database → Bool) :
    Step.Alike (DifferInLimit bound limit) (compileKeyword reached) (compileKeyword reached) := by
  rintro d _ ⟨rfl, isBound, room⟩
  exact ⟨rfl, rfl, isBound, room⟩

theorem allocate_unlimited (mailbox : MailboxId) (sequence : Sequence)
    (bump : CounterRow → Counter × CounterRow) :
    Step.Alike (DifferInLimit bound limit) (allocate mailbox sequence bump)
      (allocate mailbox sequence bump) := by
  refine .mapError _ <| .bind (query_unlimited fun _ _ => rfl) fun _ => ?_
  refine .bind (.of_check _) fun _ => ?_
  exact .bind (transaction_unlimited fun _ _ => rfl) fun _ => .of_check _

theorem nextUid_unlimited (mailbox : MailboxId) :
    Step.Alike (DifferInLimit bound limit) (nextUid mailbox) (nextUid mailbox) :=
  allocate_unlimited mailbox .uid _

theorem nextModSeq_unlimited (mailbox : MailboxId) :
    Step.Alike (DifferInLimit bound limit) (nextModSeq mailbox) (nextModSeq mailbox) :=
  allocate_unlimited mailbox .modSeq _

theorem updateFlags_unlimited (positive : 1 ≤ bound) (space : bound + 3 ≤ limit)
    (mailbox : MailboxId) (uid : Uid) (edit : FlagEdit) (modSeq : ModSeq)
    (expected : Option ModSeq) :
    Step.Alike (DifferInLimit bound limit) (updateFlags mailbox uid edit modSeq expected)
      (updateFlags mailbox uid edit modSeq expected) := by
  refine .bind (.of_check _) fun target => ?_
  split
  · exact .fail _
  refine .bind (compileKeyword_unlimited _) fun _ => transaction_unlimited fun d differ => ?_
  have room := differ.2.2
  have one : [uid].length + 3 ≤ d.variableLimit := by
    rw [List.length_singleton]
    omega
  have one' : [uid].length + 3 ≤ limit := by
    rw [List.length_singleton]
    omega
  have same (db : Database) :
      selectUids { d.withLimit limit with database := db } mailbox [uid] .metadata
        = selectUids { d with database := db } mailbox [uid] .metadata :=
    selectUids_withLimit one one' db .metadata
  simp only [same]
  rfl

theorem resetRecent_unlimited (space : bound + 3 ≤ limit) (few : uids.length ≤ bound)
    (mailbox : MailboxId) (modSeq : ModSeq) :
    Step.Alike (DifferInLimit bound limit) (resetRecent mailbox uids modSeq)
      (resetRecent mailbox uids modSeq) := by
  by_cases nothing : uids = []
  · subst nothing
    exact .pure _
  by_cases fits : modSeq ≤ maxStored
  · rw [Mirror.resetRecent_eq mailbox nothing fits]
    refine transaction_unlimited fun d differ => ?_
    have room := differ.2.2
    exact resetBatch_withLimit (by omega) (by omega) modSeq
  · unfold resetRecent
    rw [if_neg (by rwa [List.isEmpty_iff]), storable_of_gt (Nat.not_le.mp fits)]
    exact .fail _

theorem deleteBatch_unlimited (space : bound + 3 ≤ limit) (few : uids.length ≤ bound)
    (mailbox : MailboxId) :
    Step.Alike (DifferInLimit bound limit) (deleteBatch mailbox uids)
      (deleteBatch mailbox uids) := by
  unfold deleteBatch
  simp only
  split
  · exact .pure _
  refine transaction_unlimited fun d differ => ?_
  have room := differ.2.2
  have reads : (d.withLimit limit).selectUids mailbox uids .metadata
      = d.selectUids mailbox uids .metadata :=
    selectUids_withLimit (by omega) (by omega) d.database .metadata
  rw [reads]
  cases done : d.selectUids mailbox uids .metadata with
  | error e => rfl
  | ok removed =>
    have sized := NameSet.size_ofList_le (removed.map Message.messageId)
    rw [List.length_map] at sized
    have fewer := length_selectUids_le done
    have shorter : (storedUids uids).length ≤ uids.length := length_storedUids_le
    simp only [Outcomes.ok_bind]
    rw [collectContents_withLimit (by omega) (by omega)]
    rfl

/-- Every operation on a partition that is short answers the same under both limits. -/
theorem unlimited (positive : 1 ≤ bound) (space : bound + 3 ≤ limit) :
    Simulation (fun uids => uids.length ≤ bound) (DifferInLimit bound limit) where
  nextUid := nextUid_unlimited
  nextModSeq := nextModSeq_unlimited
  highestModSeq _ := query_unlimited fun _ _ => rfl
  insert message := by
    refine .bind (.of_check _) fun _ => .bind (.of_check _) fun row => ?_
    exact .bind (compileKeyword_unlimited _) fun _ => transaction_unlimited fun _ _ => rfl
  find _ _ _ := query_unlimited fun _ _ => rfl
  fetchPage _ _ := query_unlimited fun _ _ => rfl
  fetchUidPage _ := query_unlimited fun _ _ => rfl
  fetchBatch _ _ fetch few := query_unlimited fun d differ => by
    have room := differ.2.2
    exact selectUids_withLimit (by omega) (by omega) d.database fetch
  updateFlags := updateFlags_unlimited positive space
  resetRecent mailbox _ modSeq few := resetRecent_unlimited space few mailbox modSeq
  deleteBatch mailbox _ few := deleteBatch_unlimited space few mailbox
  deleteMessage id := transaction_unlimited fun d differ => by
    have room := differ.2.2
    have one : (NameSet.ofList [id]).size ≤ 1 := NameSet.size_ofList_le [id]
    have same (db : Database) : (d.withLimit limit).collectContents db (.ofList [id])
        = d.collectContents db (.ofList [id]) :=
      collectContents_withLimit (by omega) (by omega) db
    simp only [same]
    rfl
  findMailboxes _ := query_unlimited fun _ _ => rfl
  counts _ := query_unlimited fun _ _ => rfl
  firstUnseen _ := query_unlimited fun _ _ => rfl
  keywords _ := query_unlimited fun _ _ => rfl
  listBound := by rintro d _ ⟨rfl, -⟩; rfl
  partition := by rintro d _ ⟨rfl, rfl, -⟩ uids short; exact short
  appendChange _ _ := by
    refine .bind (transaction_unlimited fun _ _ => rfl) fun _ => ?_
    exact .bind (.of_check _) fun _ => .pure _
  changesPage _ := query_unlimited fun _ _ => rfl
  heads _ := query_unlimited fun _ _ => rfl
  purgeExpired _ := .bind (query_unlimited fun _ _ => rfl) fun _ =>
    transaction_unlimited fun _ _ => rfl
  extent := by rintro d _ ⟨rfl, -⟩; rfl

/-- The removal of a mailbox answers the same under both limits if its list fits them. -/
theorem deleteMailbox_withLimit (few : (d.askedIds mailbox).size ≤ d.variableLimit)
    (few' : (d.askedIds mailbox).size ≤ limit) :
    deleteMailbox mailbox (d.withLimit limit)
      = ((deleteMailbox mailbox d).1, (deleteMailbox mailbox d).2.withLimit limit) := by
  rw [deleteMailbox_eq]
  refine transaction_withLimit fun unlocked => ?_
  show (Sending.mailboxIds mailbox d.database >>= _) = _
  cases found : Sending.mailboxIds mailbox d.database with
  | error e => rfl
  | ok ids =>
    simp only [askedIds, unlocked, found, Bool.false_eq_true, if_false] at few few'
    have same (db : Database) : (d.withLimit limit).collectContents db (.ofList ids)
        = d.collectContents db (.ofList ids) := collectContents_withLimit few few' db
    simp only [Outcomes.ok_bind, dropMailbox, same]
    rfl

/-- The removal of a mailbox is refused if its list is longer than the limit. -/
theorem deleteMailbox_refused (complete : d.database.missing = [])
    (many : d.variableLimit < (d.askedIds mailbox).size) :
    deleteMailbox mailbox d = (.error EngineError.tooManyVariables.toStoreError, d) := by
  unfold askedIds at many
  split at many
  · exact absurd many (Nat.not_lt_zero _)
  rename_i unlocked
  rw [Bool.not_eq_true] at unlocked
  cases found : Sending.mailboxIds mailbox d.database with
  | error e =>
    simp only [found] at many
    exact absurd many (Nat.not_lt_zero _)
  | ok ids =>
    simp only [found] at many
    rw [deleteMailbox_eq]
    refine transaction_of_error unlocked ?_
    have some : ¬ (NameSet.ofList ids).isEmpty = true := by
      intro nothing
      have none : (NameSet.ofList ids).toList = [] := List.isEmpty_iff.mp nothing
      simp [NameSet.size, none] at many
    have refused : d.bindVariables (NameSet.ofList ids).size
        = .error EngineError.tooManyVariables.toStoreError := bindVariables_of_gt many
    have exist (relations : List Relation) : requireRelations
        (removeMessages d.database fun place _ => place.mailbox = mailbox) relations = .ok () :=
      Mirror.requireRelations_of_complete complete relations
    simp only [found, Outcomes.ok_bind, dropMailbox, collectContents, if_neg some, exist, refused]
    rfl

end Store

/-! ### Calls -/

/-- The lists that the statements of a call are sent with. -/
def Store.sentLists (policy : Policy) (call : Call) (d : Store) : List SentList :=
  (call.run policy (Recorded.mk d [])).2.sent

section Calls

variable (policy : Policy) {call : Call} {d : Store} (positive : 1 ≤ d.listBound)
  (other : ∀ mailbox, call ≠ .deleteMailbox mailbox)

include positive other

/-- Every call but the removal of a mailbox answers as without the record, and sends short lists. -/
theorem run_recorded : (call.run policy (Recorded.mk d [])).1 = (call.run policy d).1 ∧
    (call.run policy (Recorded.mk d [])).2.store = (call.run policy d).2 ∧
    ∀ list ∈ d.sentLists policy call, list.length ≤ d.listBound := by
  have removals (mailbox : MailboxId) (same : call = .deleteMailbox mailbox) :
      Step.Alike (Recorded.IsKept d.listBound) (Storage.deleteMailbox mailbox)
        (Storage.deleteMailbox mailbox) := absurd same (other mailbox)
  have nothing : Recorded.IsKept d.listBound ⟨d, []⟩ d := ⟨rfl, Nat.max_eq_left positive, nofun⟩
  obtain ⟨same, left, -, short⟩ :=
    Call.run_alike (Recorded.simulation positive) policy call removals _ _ nothing
  exact ⟨same, left.symm, short⟩

/-- Every call but the removal of a mailbox answers the same under both limits. -/
theorem run_withLimit {limit : Nat} (room : d.listBound + 3 ≤ d.variableLimit)
    (space : d.listBound + 3 ≤ limit) : call.run policy (d.withLimit limit)
      = ((call.run policy d).1, (call.run policy d).2.withLimit limit) := by
  have removals (mailbox : MailboxId) (same : call = .deleteMailbox mailbox) :
      Step.Alike (Store.DifferInLimit d.listBound limit) (Storage.deleteMailbox mailbox)
        (Storage.deleteMailbox mailbox) := absurd same (other mailbox)
  have differ : Store.DifferInLimit d.listBound limit d (d.withLimit limit) :=
    ⟨rfl, Nat.max_eq_left positive, room⟩
  obtain ⟨same, left, -⟩ :=
    Call.run_alike (Store.unlimited positive space) policy call removals _ _ differ
  exact Prod.ext same.symm left

end Calls

/-- No statement is sent with a list of more elements than are taken in one call, but one: the
removal of a mailbox asks for the contents of all its messages at once.

So, as long as the engine has room for a list of that many elements, its limit does not matter to
any call, however many rows there are and however many numbers are asked for. The removal of a
mailbox is refused if it has more messages than the limit. -/
theorem lists_bounded_iff (policy : Policy) (call : Call) (d : Store) (positive : 1 ≤ d.listBound) :
    ((call.run policy (Recorded.mk d [])).1 = (call.run policy d).1 ∧
        (call.run policy (Recorded.mk d [])).2.store = (call.run policy d).2) ∧
      ((∀ list ∈ d.sentLists policy call, list.length ≤ d.listBound) ↔
        ∀ mailbox, call = .deleteMailbox mailbox → (d.askedIds mailbox).size ≤ d.listBound) ∧
      (∀ limit, d.listBound + 3 ≤ d.variableLimit → d.listBound + 3 ≤ limit →
        (∀ mailbox, call = .deleteMailbox mailbox →
          (d.askedIds mailbox).size ≤ min d.variableLimit limit) →
        call.run policy (d.withLimit limit)
          = ((call.run policy d).1, (call.run policy d).2.withLimit limit)) ∧
      ∀ mailbox, d.database.missing = [] → d.variableLimit < (d.askedIds mailbox).size →
        (Call.deleteMailbox mailbox).run policy d
          = (.error EngineError.tooManyVariables.toStoreError, d) := by
  refine ⟨?_, ?_, fun limit room space fits => ?_, fun mailbox complete many =>
    Store.deleteMailbox_refused complete many⟩
  all_goals
    by_cases removal : ∃ mailbox, call = .deleteMailbox mailbox
  · obtain ⟨mailbox, rfl⟩ := removal
    have removed := Recorded.deleteMailbox_eq mailbox d []
    exact ⟨congrArg Prod.fst removed, congrArg (·.2.store) removed⟩
  · have other : ∀ mailbox, call ≠ .deleteMailbox mailbox := not_exists.mp removal
    obtain ⟨same, left, -⟩ := run_recorded policy positive other
    exact ⟨same, left⟩
  · obtain ⟨mailbox, rfl⟩ := removal
    have lists : d.sentLists policy (.deleteMailbox mailbox)
        = askedLists (d.askedIds mailbox) :=
      congrArg (·.2.sent) (Recorded.deleteMailbox_eq mailbox d [])
    rw [lists, askedLists_short_iff]
    refine ⟨fun few other same => ?_, fun few => few mailbox rfl⟩
    cases same
    exact few
  · have other : ∀ mailbox, call ≠ .deleteMailbox mailbox := not_exists.mp removal
    obtain ⟨-, -, short⟩ := run_recorded policy positive other
    exact iff_of_true short fun mailbox same => absurd same (other mailbox)
  · obtain ⟨mailbox, rfl⟩ := removal
    have few := fits mailbox rfl
    exact Store.deleteMailbox_withLimit (Nat.le_trans few (Nat.min_le_left _ _))
      (Nat.le_trans few (Nat.min_le_right _ _))
  · exact run_withLimit policy positive (not_exists.mp removal) room space

/-- A new database takes five numbers in short lists. -/
theorem lists_bounded_new :
    1 ≤ (Store.new "mail" 2).listBound ∧
      ∀ list ∈ (Store.new "mail" 2).sentLists ⟨1, none⟩ (.deleteByUids "inbox" [1, 2, 3, 4, 5]),
        list.length ≤ 2 := by
  have positive : 1 ≤ (Store.new "mail" 2).listBound := by decide
  obtain ⟨-, short, -⟩ := lists_bounded_iff ⟨1, none⟩ (.deleteByUids "inbox" [1, 2, 3, 4, 5])
    (Store.new "mail" 2) positive
  exact ⟨positive, short.mpr nofun⟩

/-- A database that takes one number in one call, after two messages were appended to it. -/
def twoMessages (policy : Policy) : Store :=
  let calls : List Call := [.append "inbox" { id := "m1" } .epoch,
    .append "inbox" { id := "m2" } .epoch]
  (Call.runAll policy calls (Store.new "mail" 1)).2

/-- A request that is not cut, because the database takes as many numbers in one call, is refused if
the engine does not take them in one statement. -/
theorem findByUids_refused {policy : Policy} {d : Store} {uids : List Uid} {mailbox : MailboxId}
    {fetch : Fetch} (ascending : uids.Pairwise (· < ·)) (stored : ∀ uid ∈ uids, uid ≤ maxStored)
    (few : uids.length ≤ d.listBound) (many : d.variableLimit ≤ uids.length) (some : uids ≠ []) :
    (Call.findByUids mailbox uids fetch).run policy d
      = (.error EngineError.tooManyVariables.toStoreError, d) := by
  have all : Store.storedUids uids = uids :=
    List.filter_eq_self.mpr fun uid member => decide_eq_true (stored uid member)
  have nonempty : ¬ uids.isEmpty = true := by rwa [List.isEmpty_iff]
  have refused : d.bindVariables (uids.length + 1)
      = .error EngineError.tooManyVariables.toStoreError :=
    Store.bindVariables_of_gt (Nat.lt_succ_of_le many)
  have asked : d.selectUids mailbox uids fetch
      = .error EngineError.tooManyVariables.toStoreError := by
    simp only [Store.selectUids, all, if_neg nonempty, refused]
    rfl
  have whole : uids.length ≤ max (Storage.listBound d) 1 := Nat.le_trans few (Nat.le_max_left _ _)
  simp only [Call.run, findByUids, partitioned, sortedUids_of_ascending ascending]
  exact (runPartitioned_single some whole d).trans (Step.read_of_error asked)

/-- The removal of a mailbox of two messages sends a list of both, although the database was opened
to send no list of more than one. And a database that was opened to send longer lists than the
engine takes refuses a request for no other reason than that it is large. -/
theorem largeCalls_refused :
    ((twoMessages ⟨1, none⟩).listBound = 1 ∧
        (twoMessages ⟨1, none⟩).sentLists ⟨1, none⟩ (.deleteMailbox "inbox")
          = [.messages ["m1", "m2"]] ∧
        ¬ ∀ list ∈ (twoMessages ⟨1, none⟩).sentLists ⟨1, none⟩ (.deleteMailbox "inbox"),
          list.length ≤ (twoMessages ⟨1, none⟩).listBound) ∧
      (Call.findByUids "inbox" (List.range' 1 40000) .full).run ⟨1, none⟩ (Store.new "mail" 100000)
        = (.error EngineError.tooManyVariables.toStoreError, Store.new "mail" 100000) := by
  have bound : (twoMessages ⟨1, none⟩).listBound = 1 := by decide +kernel
  have lists : (twoMessages ⟨1, none⟩).sentLists ⟨1, none⟩ (.deleteMailbox "inbox")
      = [.messages ["m1", "m2"]] := by decide +kernel
  refine ⟨⟨bound, lists, fun short => ?_⟩, ?_⟩
  · rw [lists, bound] at short
    exact absurd (short _ (List.mem_singleton.mpr rfl)) (by decide)
  · have length : (List.range' 1 40000).length = 40000 := List.length_range'
    have few : (List.range' 1 40000).length ≤ (Store.new "mail" 100000).listBound := by
      rw [length]
      decide
    have many : (Store.new "mail" 100000).variableLimit ≤ (List.range' 1 40000).length := by
      rw [length]
      decide
    have stored (uid : Uid) (member : uid ∈ List.range' 1 40000) : uid ≤ maxStored := by
      have below : uid < 1 + 40000 := (List.mem_range'_1.mp member).2
      exact Nat.le_trans (Nat.le_of_lt below) (by decide)
    have some : List.range' 1 40000 ≠ [] := by
      rw [Ne, ← List.length_eq_zero_iff, length]
      decide
    exact findByUids_refused (List.pairwise_lt_range' ..) stored few many some

end Mailroom.Database
