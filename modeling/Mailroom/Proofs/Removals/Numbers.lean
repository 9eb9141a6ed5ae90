import Mailroom.Proofs.Removals.Counting
import Mailroom.Proofs.Retries.Resets
import Mailroom.Proofs.Statements.Limits
/-!
Reading and removing rows by their numbers.

A list of numbers stands for the set of them: numbers may be repeated, in any order, without a row
or too great for one. Whatever the parts that the list is cut into, a read answers the rows with
these numbers (`FindsExactly`), and a removal answers with them as they were, removes them and
nothing else, and counts up once (`DeletesExactly`). In the database this goes for parts that a
statement can carry, and a removal is refused where the modification sequence has no next number
(`numbers_actAsSets`).
-/

namespace Mailroom

open Service Revised

variable {σ ρ : Type}

/-! ### What is read and removed -/

/-- A read of rows by numbers answers the rows with these numbers, ascending, each of them once as
it is looked up. -/
structure FindsExactly [Storage σ] (mailbox : MailboxId) (uids : List Uid) (fetch : Fetch)
    (store : σ) (rows : List Message) : Prop where
  answers : findByUids mailbox uids fetch store = (.ok rows, store)
  ascending : rows.Pairwise fun row next => row.uid < next.uid
  mem_iff : ∀ row, row ∈ rows ↔
    row.uid ∈ uids ∧ lookUp fetch store ⟨mailbox, row.uid⟩ = .ok (some row)

/-- A removal of rows by numbers answers with the rows with these numbers, ascending, each of them
once as it was looked up before. Afterwards nothing is found at these numbers, and every other row
is as it was. The modification sequence of the mailbox has advanced by one, unless no number was
given and nothing was done. -/
structure DeletesExactly [Storage σ] [Kept σ] [Sound σ] [Revised σ] (mailbox : MailboxId)
    (uids : List Uid) (store : σ) (removed : List Metadata) (after : σ) : Prop where
  answers : deleteByUids mailbox uids store = (.ok removed, after)
  ascending : removed.Pairwise fun row next => row.uid < next.uid
  mem_iff : ∀ metadata, metadata ∈ removed ↔ metadata.uid ∈ uids ∧ ∃ row,
    lookUp .metadata store ⟨mailbox, metadata.uid⟩ = .ok (some row) ∧ row.metadata = metadata
  gone : ∀ uid ∈ uids, ∀ fetch, lookUp fetch after ⟨mailbox, uid⟩ = .ok none
  others : LeavesOthers (fun place => place.mailbox = mailbox ∧ place.uid ∈ uids) store after
  counters : CountsUp (if uids = [] then [] else [mailbox]) store after
  idle : uids = [] → after = store

/-- The rows that are found at some numbers, in their order. -/
def rowsAt (found : Uid → Option Message) (uids : List Uid) : List Message :=
  (sortedUids uids).filterMap found

section RowsAt

variable {found : Uid → Option Message} {uids : List Uid}
  (placed : ∀ uid row, found uid = some row → row.uid = uid)

include placed

theorem rowsAt_ascending : (rowsAt found uids).Pairwise fun row next => row.uid < next.uid := by
  refine List.pairwise_filterMap.mpr ((sortedUids_ascending uids).imp ?_)
  intro uid next before row here other there
  rwa [placed uid row here, placed next other there]

theorem mem_rowsAt {row : Message} :
    row ∈ rowsAt found uids ↔ row.uid ∈ uids ∧ found row.uid = some row := by
  rw [rowsAt, List.mem_filterMap]
  constructor
  · rintro ⟨uid, named, here⟩
    have same := placed uid row here
    subst same
    exact ⟨mem_sortedUids.mp named, here⟩
  · rintro ⟨named, here⟩
    exact ⟨row.uid, mem_sortedUids.mpr named, here⟩

end RowsAt

/-! ### Reading in parts -/

/-- A read of numbers at each of which a row is found or none goes number by number. -/
def looksBatchwise [Storage σ] [Kept σ] (bound_same : ∀ {store after : σ},
      SameButCounters store after → Storage.listBound after = Storage.listBound store)
    (found : Uid → Option Message) :
    Batchwise (fun _ : σ => True) fun part =>
      (pure (part.filterMap found) : Step σ (List Message)) where
  one _ uid := (found uid).toList
  effect _ store := store
  runs _ _ _ := Prod.ext (congrArg Except.ok (gather_lists rfl fun _ _ => rfl).symm) rfl
  effect_nil _ := rfl
  effect_effect _ _ _ := rfl
  effect_congr _ := rfl
  one_effect _ := rfl
  fit_effect _ := trivial
  bound_effect _ _ := rfl
  fit_same _ _ := trivial
  one_same _ := rfl
  bound_same := bound_same
  effect_same same := same

/-- The error with which a part is not taken. -/
def Reader.refusal (reader : Reader ρ) (part : List Uid) : Option StoreError :=
  match reader.takes part with
  | .ok _ => none
  | .error e => some e

theorem Reader.refusal_eq_none {reader : Reader ρ} {part : List Uid} :
    reader.refusal part = none ↔ reader.takes part = .ok () := by
  unfold refusal
  cases reader.takes part <;> simp

namespace ReadsFrom

variable [Storage σ] {store : σ} {t : Table Place ρ} {reader : Reader ρ}
  (reads : ReadsFrom store t reader) {fetch : Fetch} {found : Uid → Option Message}
  {mailbox : MailboxId} (looksUp : ∀ uid, lookUp fetch store ⟨mailbox, uid⟩ = .ok (found uid))

include reads looksUp

theorem decode_found (uid : Uid) : ((t.get? ⟨mailbox, uid⟩).mapM fun row =>
    reader.decode fetch (⟨mailbox, uid⟩, row)) = .ok (found uid) :=
  (congrArg Prod.fst (reads.find mailbox uid fetch)).symm.trans (looksUp uid)

/-- What is found at a number lies there. -/
theorem uid_of_found (uid : Uid) (row : Message) (here : found uid = some row) : row.uid = uid := by
  have decoded := reads.decode_found looksUp uid
  rw [here] at decoded
  cases stored : t.get? ⟨mailbox, uid⟩ with
  | none =>
    rw [stored] at decoded
    cases decoded
  | some kept =>
    rw [stored] at decoded
    have decoded : some <$> reader.decode fetch (⟨mailbox, uid⟩, kept) = .ok (some row) := decoded
    cases read : reader.decode fetch (⟨mailbox, uid⟩, kept) with
    | error e =>
      rw [read] at decoded
      cases decoded
    | ok message =>
      rw [read] at decoded
      cases decoded
      exact congrArg Place.uid (reads.place_eq fetch _ (Table.get?_eq_some_iff.mp stored) _ read)

/-- A part is read as its rows are looked up, if it is taken. -/
theorem fetchBatch_found {part : List Uid} (ascending : part.Pairwise (· < ·)) :
    Storage.fetchBatch mailbox part fetch store
      = ((fun _ => part.filterMap found) <$> reader.takes part, store) := by
  have entries : (t.withUids mailbox part).entries = part.filterMap fun uid =>
      (t.get? ⟨mailbox, uid⟩).map (Place.mk mailbox uid, ·) := by
    rw [Table.withUids, Table.inMailbox, Table.filter_filter]
    exact Mirror.entries_filter_uids _ ascending fun entry _ => by simp
  rw [reads.fetchBatch, entries, Outcomes.mapM_filterMap fun uid => ?_]
  · cases reader.takes part <;> rfl
  · rw [← reads.decode_found looksUp uid]
    cases t.get? ⟨mailbox, uid⟩ <;> rfl

variable [Kept σ] (bound_same : ∀ {store after : σ}, SameButCounters store after →
  Storage.listBound after = Storage.listBound store)

/-- A read of numbers refuses the parts that are not taken. -/
theorem fetchBatch_refusing :
    Refusing (looksBatchwise bound_same found) (· = store) (fun _ => reader.refusal)
      fun part => (Storage.fetchBatch mailbox part fetch : Step σ (List Message)) where
  does {other part} here ascending _ := by
    subst here
    rw [reads.fetchBatch_found looksUp ascending]
    cases taken : reader.takes part with
    | error e =>
      rw [interrupt_of_some (by rw [Reader.refusal, taken])]
      rfl
    | ok _ =>
      rw [interrupt_of_none (Reader.refusal_eq_none.mpr taken)]
      exact Prod.ext (congrArg Except.ok (gather_lists rfl fun _ _ => rfl).symm) rfl
  open_effect here := here
  refusal_effect _ := rfl

include bound_same

/-- A read of numbers answers the rows with these numbers if all of its parts are taken, and fails
otherwise. -/
theorem findsExactly_iff (uids : List Uid) :
    (∃ rows, FindsExactly mailbox uids fetch store rows) ↔
      ∀ part ∈ chunks (max (Storage.listBound store) 1) (sortedUids uids),
        reader.takes part = .ok () := by
  have refusing := reads.fetchBatch_refusing looksUp bound_same
  have ascending := sortedUids_ascending uids
  constructor
  · rintro ⟨rows, exactly⟩ part member
    exact Reader.refusal_eq_none.mp (refusing.taken_of_ran rfl ascending exactly.answers part member)
  · intro taken
    have placed := reads.uid_of_found looksUp
    have ran := refusing.runPartitioned_ok rfl ascending fun part member =>
      Reader.refusal_eq_none.mpr (taken part member)
    refine ⟨rowsAt found uids, ?_, rowsAt_ascending placed, fun row => ?_⟩
    · refine ran.trans (Prod.ext (congrArg Except.ok ?_) rfl)
      exact gather_lists rfl fun _ _ => rfl
    · rw [mem_rowsAt placed, looksUp, Except.ok.injEq]

end ReadsFrom

/-! ### Removing in parts -/

section Removes

variable [Storage σ] [Kept σ] [Sound σ] [Revised σ] {store middle after : σ} {mailbox : MailboxId}
  {uids : List Uid}

omit [Kept σ] in
/-- A removal of some numbers succeeds only if the modification sequence has a next number. -/
theorem hasNext_of_deleteByUids [Counts σ] {removed : List Metadata} (sound : isSound store)
    (nonempty : uids ≠ []) (done : deleteByUids mailbox uids store = (.ok removed, after)) :
    Counts.hasNext σ ((view store).highestModSeq mailbox) :=
  (Counts.nextModSeq_iff mailbox sound).mp (counted_of_deleteByUids nonempty done)

/-- A removal of no number does nothing. -/
theorem deletesExactly_nil (mailbox : MailboxId) (store : σ) :
    DeletesExactly mailbox [] store [] store where
  answers := rfl
  ascending := .nil
  mem_iff _ := by simp
  gone _ named := absurd named List.not_mem_nil
  others := (leavesOthers_chains _).refl store
  counters := .refl store
  idle _ := rfl

omit [Kept σ] [Sound σ] [Revised σ] in
/-- What each part of a removal does, the removal does. -/
theorem parts_within (mailbox : MailboxId) (uids : List Uid) {R : σ → σ → Prop} (chains : Chains R)
    (removes : ∀ part : List Uid, part ⊆ uids → part.Pairwise (· < ·) →
      (Storage.deleteBatch mailbox part : Step σ (List Metadata)).Within R) :
    (partitioned (Storage.deleteBatch mailbox) (sortedUids uids) :
      Step σ (List Metadata)).Within R := fun store =>
  runPartitioned_within chains (fun part within =>
    removes part (fun _ member => mem_sortedUids.mp (within.subset member))
      ((sortedUids_ascending uids).sublist within)) store

variable [Stocked σ] [Displayed σ] [Confines σ] [RollsBack σ] {found : Uid → Option Message}

/-- A removal is exact that has counted up and then removed all of its parts. -/
theorem deletesExactly_of_ran (kept : IsWellKept store)
    (looksUp : ∀ uid, lookUp .metadata store ⟨mailbox, uid⟩ = .ok (found uid))
    (placed : ∀ uid row, found uid = some row → row.uid = uid) (nonempty : uids ≠ [])
    {modSeq : ModSeq} (counted : Storage.nextModSeq mailbox store = (.ok modSeq, middle))
    (ran : partitioned (Storage.deleteBatch mailbox) (sortedUids uids) middle
      = (.ok ((sortedUids uids).filterMap fun uid => (found uid).map Message.metadata), after))
    (gone : ∀ uid ∈ uids, (stock after).linkAt ⟨mailbox, uid⟩ = none) :
    ∃ removed, DeletesExactly mailbox uids store removed after := by
  have onlyCounted := RollsBack.nextModSeq mailbox store
  obtain ⟨sound, same⟩ := Stocked.nextModSeq mailbox store kept.sound
  rw [counted] at onlyCounted sound same
  have viewChains : Chains fun store after : σ =>
      isSound store → isSound after ∧ (view store).Drops (view after) :=
    ⟨fun _ sound => ⟨sound, .refl _⟩, fun first second sound =>
      ⟨(second (first sound).1).1, (first sound).2.trans (second (first sound).1).2⟩⟩
  have confined := parts_within mailbox uids (confined_chains _)
    (fun part within _ store => (Confines.deleteBatch mailbox part store).mono
      fun place named => And.imp_right (@within _) named) middle
  obtain ⟨sound', rows⟩ := parts_within mailbox uids viewChains
    (fun part _ => Revised.deleteBatch mailbox part) middle sound
  obtain ⟨-, links⟩ := parts_within mailbox uids drops_chains
    (fun part _ => Stocked.deleteBatch mailbox part) middle sound
  rw [ran] at confined sound' rows links
  have removed : (sortedUids uids).filterMap (fun uid => (found uid).map Message.metadata)
      = (rowsAt found uids).map Message.metadata := List.map_filterMap.symm
  rw [removed] at ran
  refine ⟨(rowsAt found uids).map Message.metadata, ?answers, ?ascending, fun metadata => ?mem_iff,
    ?gone, ?others, ?counters, ?idle⟩
  case answers => exact (deleteByUids_of_counted nonempty counted).trans ran
  case ascending => exact List.pairwise_map.mpr (rowsAt_ascending placed)
  case mem_iff =>
    rw [List.mem_map]
    constructor
    · rintro ⟨row, member, rfl⟩
      obtain ⟨named, here⟩ := (mem_rowsAt placed).mp member
      exact ⟨named, row, (looksUp row.uid).trans (congrArg Except.ok here), rfl⟩
    · rintro ⟨named, row, here, rfl⟩
      exact ⟨row, (mem_rowsAt placed).mpr ⟨named, Except.ok.inj ((looksUp _).symm.trans here)⟩, rfl⟩
  case gone => exact fun uid named => Displayed.lookUp_none sound' (gone uid named)
  case others =>
    refine (leavesOthers_chains _).trans (.of_counted onlyCounted.kept)
      (.of_drops sound sound' (same ▸ kept.tidy) confined.rows links)
  case counters =>
    rw [if_neg nonempty]
    exact (CountsUp.of_nextModSeq kept.sound counted).removed confined rows
  case idle => exact fun empty => absurd empty nonempty

end Removes

/-! ### In memory -/

namespace Memory.Store

variable {m : Store}

theorem findsExactly (kept : IsWellKept m) (mailbox : MailboxId) (uids : List Uid)
    (fetch : Fetch) : ∃ rows, FindsExactly mailbox uids fetch m rows :=
  ((readsFrom kept.sound.available kept.orderly).findsExactly_iff
    (fun _ => lookUp_eq kept.sound.available) (deletesBatchwise mailbox).bound_same uids).mpr
    fun _ _ => rfl

theorem deletesExactly (kept : IsWellKept m) (mailbox : MailboxId) (uids : List Uid) :
    ∃ removed after, DeletesExactly mailbox uids m removed after := by
  by_cases nothing : uids = []
  · exact ⟨[], m, nothing ▸ deletesExactly_nil mailbox m⟩
  have on := kept.sound.available
  have looksUp (uid : Uid) : lookUp .metadata m ⟨mailbox, uid⟩ = .ok _ := lookUp_eq on
  obtain ⟨modSeq, middle, counted, on'⟩ := nextModSeq_of_available on mailbox
  have ran := (deletesBatchwise mailbox).runPartitioned_eq on' (sortedUids_ascending uids)
  rw [(deletesBatchwise mailbox).one_same (sameButCounters_of_nextModSeq counted)] at ran
  have told : gather ((deletesBatchwise mailbox).one m) (sortedUids uids)
      = (sortedUids uids).filterMap fun uid =>
        ((m.rows.get? ⟨mailbox, uid⟩).map (m.present .metadata)).map Message.metadata := by
    refine gather_toList.trans ?_
    simp only [Option.map_map]
    rfl
  rw [told] at ran
  obtain ⟨removed, exactly⟩ := deletesExactly_of_ran kept looksUp
    ((readsFrom on kept.orderly).uid_of_found looksUp) nothing counted ran fun uid named =>
      congrArg (Option.map Message.link) (get?_keptRows_of_mem (mem_sortedUids.mpr named))
  exact ⟨removed, _, exactly⟩

end Memory.Store

/-! ### In the database -/

namespace Database.Store

variable {d : Store} {mailbox : MailboxId} {uids : List Uid}

/-- The statements that name the numbers of each part have no more parameters than the engine
allows. -/
def CarriesNumbers (d : Store) (uids : List Uid) : Prop :=
  ∀ part ∈ chunks (max d.listBound 1) (sortedUids uids),
    (storedUids part).length + 1 ≤ d.variableLimit

/-- A database that was opened to take shorter parts carries all numbers. -/
theorem carriesNumbers_of_short (short : max d.listBound 1 + 1 ≤ d.variableLimit)
    (uids : List Uid) : d.CarriesNumbers uids := fun _ member =>
  Nat.le_trans (Nat.succ_le_succ (Nat.le_trans (List.length_filter_le _ _)
    (length_of_mem_chunks member))) short

/-- Numbers that are not cut are not carried if there are as many of them as parameters. -/
theorem not_carriesNumbers (ascending : uids.Pairwise (· < ·))
    (stored : ∀ uid ∈ uids, uid ≤ maxStored) (single : uids.length ≤ d.listBound)
    (many : d.variableLimit ≤ uids.length) (some_uids : uids ≠ []) : ¬ d.CarriesNumbers uids := by
  intro carried
  have all : storedUids uids = uids :=
    List.filter_eq_self.mpr fun uid member => decide_eq_true (stored uid member)
  have whole : uids.length ≤ max d.listBound 1 := Nat.le_trans single (Nat.le_max_left _ _)
  have part : uids ∈ chunks (max d.listBound 1) (sortedUids uids) := by
    rw [sortedUids_of_ascending ascending, chunks_single some_uids whole]
    exact List.mem_singleton_self _
  have few := carried uids part
  rw [all] at few
  exact Nat.not_le.mpr (Nat.lt_succ_of_le many) few

/-- If the rows can be read, they can be read with their contents. -/
theorem IsSound.looksUp (sound : d.IsSound) (readable : IsReadable d) (fetch : Fetch)
    (place : Place) : ∃ row, lookUp fetch d place = .ok row := by
  show ∃ row, d.find place.mailbox place.uid fetch = .ok row
  rw [find_eq_decode sound.complete sound.encoded]
  cases found : d.database.messages.get? place with
  | none => exact ⟨none, rfl⟩
  | some row =>
    have read := (sound.isOpen readable).read found
    rw [readEntry_metadata] at read
    obtain ⟨values, typed, read⟩ := Outcomes.bind_eq_ok.mp read
    suffices decodes : ∃ message, readEntry d.database fetch (place, row) = .ok message by
      obtain ⟨message, decodes⟩ := decodes
      exact ⟨some message, congrArg (some <$> ·) decodes⟩
    rw [readEntry_eq, typed, Outcomes.ok_bind]
    cases fetch with
    | metadata => exact ⟨_, read⟩
    | full =>
      rw [MessageValues.read_content read]
      cases stored : d.database.contents.get? values.messageId with
      | none => exact ⟨_, rfl⟩
      | some stored =>
        obtain ⟨content, rfl⟩ := sound.packed ‹_›
        exact ⟨_, rfl⟩

theorem linkAt_of_no_row {place : Place} (nothing : d.database.messages.get? place = none) :
    d.stock.linkAt place = none := by
  show (d.database.messages.get? place).bind _ = none
  rw [nothing]
  rfl

/-- What a read of a row answers is what it is found as. -/
theorem lookUp_foundAt (readable : IsReadable d) (place : Place) :
    lookUp .metadata d place = .ok (foundAt d place) := by
  obtain ⟨row, read⟩ := readable place
  rw [foundAt, read]
  exact read

theorem findsExactly_iff (sound : d.IsSound) (readable : IsReadable d) (mailbox : MailboxId)
    (uids : List Uid) (fetch : Fetch) :
    (∃ rows, FindsExactly mailbox uids fetch d rows) ↔ d.CarriesNumbers uids := by
  have roomy : 1 ≤ d.variableLimit := sound.carries (by decide)
  choose found looksUp using fun uid => sound.looksUp readable fetch ⟨mailbox, uid⟩
  rw [(readsFrom sound.complete sound.encoded).findsExactly_iff looksUp
    (deletesBatchwise mailbox).bound_same uids]
  refine forall₂_congr fun part _ => ?_
  show (if _ then _ else d.bindVariables _) = _ ↔ _
  by_cases nothing : storedUids part = []
  · rw [nothing]
    exact iff_of_true rfl roomy
  · rw [if_neg (by rwa [List.isEmpty_iff])]
    constructor
    · intro taken
      by_contra many
      rw [bindVariables_of_gt (Nat.not_le.mp many)] at taken
      cases taken
    · exact bindVariables_of_le

/-- A part is refused that a statement does not carry. -/
def numbersRefusal (d : Store) (part : List Uid) : Option StoreError :=
  if (storedUids part).length + 1 ≤ d.variableLimit then none
  else some EngineError.tooManyVariables.toStoreError

theorem numbersRefusal_eq_none {part : List Uid} :
    d.numbersRefusal part = none ↔ (storedUids part).length + 1 ≤ d.variableLimit := by
  simp [numbersRefusal]

/-- The database refuses to remove parts that a statement does not carry. -/
theorem deleteBatch_refusing (mailbox : MailboxId) :
    Refusing (deletesBatchwise mailbox) (fun d => d.IsOpen ∧ 1 ≤ d.variableLimit) numbersRefusal
      (fun part => (Storage.deleteBatch mailbox part : Step Store (List Metadata))) where
  does {d part} opened ascending _ := by
    obtain ⟨isOpen, roomy⟩ := opened
    show deleteBatch mailbox part d = _
    by_cases few : (storedUids part).length + 1 ≤ d.variableLimit
    · rw [interrupt_of_none (if_pos few)]
      exact isOpen.deleteBatch_eq ascending few
    · have some_stored : ¬ (storedUids part).isEmpty = true := by
        rw [List.isEmpty_iff]
        intro nothing
        rw [nothing] at few
        exact few roomy
      rw [interrupt_of_some (if_neg few)]
      unfold deleteBatch
      simp only [if_neg some_stored]
      refine transaction_of_error isOpen.unlocked ?_
      rw [selectUids, if_neg some_stored, bindVariables_of_gt (Nat.not_le.mp few)]
      rfl
  open_effect opened := ⟨opened.1.after_removal, opened.2⟩
  refusal_effect _ := rfl

theorem deletesExactly_iff (kept : IsWellKept d) (readable : IsReadable d) (mailbox : MailboxId)
    (uids : List Uid) :
    (∃ removed after, DeletesExactly mailbox uids d removed after) ↔
      d.CarriesNumbers uids ∧ (uids = [] ∨ (Revised.view d).highestModSeq mailbox < maxStored) := by
  by_cases nothing : uids = []
  · subst nothing
    exact iff_of_true ⟨[], d, deletesExactly_nil mailbox d⟩ ⟨nofun, .inl rfl⟩
  rw [or_iff_right nothing]
  have sound : d.IsSound := kept.sound
  have isOpen := sound.isOpen readable
  by_cases hasNext : (Revised.view d).highestModSeq mailbox < maxStored
  case neg =>
    refine iff_of_false ?_ fun both => hasNext both.2
    rintro ⟨removed, after, exactly⟩
    exact hasNext (hasNext_of_deleteByUids kept.sound nothing exactly.answers)
  rw [and_iff_left hasNext]
  obtain ⟨modSeq, middle, counted⟩ := (Counts.nextModSeq_iff mailbox kept.sound).mpr hasNext
  have same := sameButCounters_of_nextModSeq counted
  have opened := isOpen.of_sameButCounters same
  obtain ⟨carries, roomy⟩ : (d.CarriesNumbers uids ↔ middle.CarriesNumbers uids) ∧
      1 ≤ middle.variableLimit := by
    obtain ⟨_, _, rfl⟩ := of_sameButCounters same
    exact ⟨Iff.rfl, sound.carries (by decide)⟩
  rw [carries]
  constructor
  · rintro ⟨removed, after, exactly⟩ part member
    have taken := (deleteBatch_refusing mailbox).taken_of_ran ⟨opened, roomy⟩
      (sortedUids_ascending uids)
      ((deleteByUids_of_counted nothing counted).symm.trans exactly.answers)
    exact numbersRefusal_eq_none.mp (taken part member)
  intro carried
  have ran := (deleteBatch_refusing mailbox).runPartitioned_ok ⟨opened, roomy⟩
    (sortedUids_ascending uids) fun part member => if_pos (carried part member)
  rw [(deletesBatchwise mailbox).one_same same] at ran
  have looksUp (uid : Uid) := lookUp_foundAt readable ⟨mailbox, uid⟩
  have told : gather ((deletesBatchwise mailbox).one d) (sortedUids uids)
      = (sortedUids uids).filterMap fun uid =>
        (foundAt d ⟨mailbox, uid⟩).map Message.metadata := by
    refine gather_toList.trans ?_
    simp only [foundAt_eq sound isOpen, Option.map_map]
    rfl
  rw [told] at ran
  obtain ⟨removed, exactly⟩ := deletesExactly_of_ran kept looksUp
    ((readsFrom sound.complete sound.encoded).uid_of_found looksUp) nothing counted ran
    fun uid named => linkAt_of_no_row (get?_keptRows_of_mem (mem_sortedUids.mpr named))
  exact ⟨removed, _, exactly⟩

end Database.Store

/-! ### After runs -/

/-- After calls under policies of their own, a list of numbers stands for the set of them, whatever
the parts that it is cut into. In memory a read answers the rows with these numbers, and a removal
removes them and nothing else. In a database whose rows can be read this is so if and only if the
engine carries the numbers of each part and, unless nothing is to be removed, the modification
sequence of the mailbox has not reached the last number that the database keeps. -/
theorem numbers_actAsSets (steps : List (Policy × Call)) (mailbox : MailboxId) (uids : List Uid) :
    (∀ bound,
      let m := Call.runUnder steps (Memory.Store.new bound)
      (∀ fetch, ∃ rows, FindsExactly mailbox uids fetch m rows) ∧
        ∃ removed after, DeletesExactly mailbox uids m removed after) ∧
    ∀ path bound,
      let d := Call.runUnder steps (Database.Store.new path bound)
      IsReadable d →
      (∀ fetch, (∃ rows, FindsExactly mailbox uids fetch d rows) ↔ d.CarriesNumbers uids) ∧
        ((∃ removed after, DeletesExactly mailbox uids d removed after) ↔
          d.CarriesNumbers uids ∧ (uids = [] ∨ (view d).highestModSeq mailbox < maxStored)) := by
  refine ⟨fun bound => ?_, fun path bound readable => ?_⟩
  · have kept := Memory.Store.runUnder_isWellKept steps bound
    exact ⟨Memory.Store.findsExactly kept mailbox uids,
      Memory.Store.deletesExactly kept mailbox uids⟩
  · have kept := Database.Store.runUnder_isWellKept steps path bound
    exact ⟨Database.Store.findsExactly_iff kept.sound readable mailbox uids,
      Database.Store.deletesExactly_iff kept readable mailbox uids⟩

/-- With parts of one number: 9 and 9223372036854775808 are no numbers of messages, and 2 is listed
twice. -/
theorem numbers_actAsSets_twoMessages :
    let calls : List Call := [.append "inbox" { id := "m1" } .epoch,
      .append "inbox" { id := "m2" } .epoch]
    let d := Call.runUnder (calls.map (Prod.mk ⟨1, none⟩)) (Database.Store.new "mail" 1)
    let uids := [9, 2, 1, 2, maxStored + 1]
    IsReadable d ∧ (∀ fetch, ∃ rows, FindsExactly "inbox" uids fetch d rows) ∧
      ∃ removed after, DeletesExactly "inbox" uids d removed after := by
  intro calls d uids
  have plain : ∀ call ∈ calls, call.HasPlainDates := by
    have epoch : Instant.epoch.HasPlainYear := by decide
    simp [calls, Call.HasPlainDates, epoch]
  have readable : IsReadable d := by
    show IsReadable (Call.runUnder (calls.map (Prod.mk ⟨1, none⟩)) (Database.Store.new "mail" 1))
    rw [Call.runUnder_map]
    exact (Database.Store.runAll_isLegible ⟨1, none⟩ calls "mail" 1 plain).isReadable
  have carried : d.CarriesNumbers uids :=
    Database.Store.carriesNumbers_of_short (by decide +kernel) uids
  have hasNext : (view d).highestModSeq "inbox" < maxStored := by decide +kernel
  obtain ⟨finds, deletes⟩ := (numbers_actAsSets (calls.map (Prod.mk ⟨1, none⟩)) "inbox" uids).2
    "mail" 1 readable
  exact ⟨readable, fun fetch => (finds fetch).mpr carried, deletes.mpr ⟨carried, .inr hasNext⟩⟩

/-- A new database that was opened to take 100000 numbers at once neither reads nor removes 40000
numbers. And where the modification sequence stands at the last number, nothing is removed. -/
theorem numbers_refused :
    let large := Call.runUnder [] (Database.Store.new "mail" 100000)
    let last := Call.runUnder (List.replicate maxStored (⟨1, none⟩, .nextModSeq "inbox"))
      (Database.Store.new "mail" 1)
    (IsReadable large ∧
        findByUids "inbox" (List.range' 1 40000) .full large
          = (.error Database.EngineError.tooManyVariables.toStoreError, large) ∧
        ¬ ∃ removed after, DeletesExactly "inbox" (List.range' 1 40000) large removed after) ∧
      IsReadable last ∧
        ¬ ∃ removed after, deleteByUids "inbox" [1] last = (.ok removed, after) := by
  intro large last
  constructor
  · have readable : IsReadable large := (Database.Store.runAll_isLegible ⟨1, none⟩ [] "mail" 100000
      (List.forall_mem_nil _)).isReadable
    have length : (List.range' 1 40000).length = 40000 := List.length_range'
    have ascending : (List.range' 1 40000).Pairwise (· < ·) := List.pairwise_lt_range' ..
    have stored (uid : Uid) (member : uid ∈ List.range' 1 40000) : uid ≤ maxStored := by
      have below : uid < 1 + 40000 := (List.mem_range'_1.mp member).2
      exact Nat.le_trans (Nat.le_of_lt below) (by decide)
    have single : (List.range' 1 40000).length ≤ large.listBound := by
      rw [length]
      decide
    have many : large.variableLimit ≤ (List.range' 1 40000).length := by
      rw [length]
      decide
    have some_uids : List.range' 1 40000 ≠ [] := by
      rw [Ne, ← List.length_eq_zero_iff, length]
      decide
    refine ⟨readable, ?_, fun deletes => ?_⟩
    · have refused :
          (Call.findByUids "inbox" (List.range' 1 40000) .full).run ⟨1, none⟩ large = _ :=
        Database.findByUids_refused ascending stored single many some_uids
      exact refused
    · have carried := ((Database.Store.deletesExactly_iff
        (Database.Store.runUnder_isWellKept [] "mail" 100000) readable _ _).mp deletes).1
      exact Database.Store.not_carriesNumbers ascending stored single many some_uids carried
  · have plain : ∀ call ∈ List.replicate maxStored (Call.nextModSeq "inbox"),
        call.HasPlainDates := fun call member => by
      rw [List.eq_of_mem_replicate member]
      trivial
    have readable : IsReadable last := by
      show IsReadable (Call.runUnder _ _)
      rw [← List.map_replicate, Call.runUnder_map]
      exact (Database.Store.runAll_isLegible ⟨1, none⟩ _ "mail" 1 plain).isReadable
    have start : (Database.Store.new "mail" 1).view.highestModSeq "inbox" = 0 := rfl
    have reached : (view last).highestModSeq "inbox" = 0 + maxStored := by
      refine (Database.Store.runUnder_counting ⟨1, none⟩
        (Mirror.new_isSound "mail" 1) ?_).1.trans ?_
      · exact Nat.le_of_eq (by rw [start, Nat.zero_add])
      · rw [start]
    refine ⟨readable, ?_⟩
    rintro ⟨removed, after, done⟩
    have sound := (Database.Store.runUnder_isWellKept
      (List.replicate maxStored (⟨1, none⟩, .nextModSeq "inbox")) "mail" 1).sound
    have hasNext : (view last).highestModSeq "inbox" < maxStored :=
      hasNext_of_deleteByUids sound (List.cons_ne_nil _ _) done
    rw [reached, Nat.zero_add] at hasNext
    exact Nat.lt_irrefl _ hasNext

end Mailroom
