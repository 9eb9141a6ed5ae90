import Mailroom.Proofs.Contents.Stock
/-!
Contents over a run.

A message that is linked was linked first by some append, and has been linked ever since
(`IsFirst`). Whatever calls follow, the content that this append was given is the one that is stored
(`Holds.concat`), and so the one that every read in full answers (`keepsContents`). Reads answer in
several parts, and each row in one of them (`forall_mem_runPartitioned`, `forall_mem_rest`).
-/

namespace Mailroom

open Database (StoredContent)

variable {σ κ τ : Type}

/-! ### Rows that reads answer -/

section Answers

variable {store : σ}

/-- The rows of a batch are those of its partitions. -/
theorem forall_mem_runChunks {P : Message → Prop} {call : List Uid → Step σ (List Message)}
    (looks : ∀ part, (call part store).2 = store)
    (calls : ∀ part rows, (call part store).1 = .ok rows → ∀ row ∈ rows, P row)
    (parts : List (List Uid)) (progress : BatchProgress (List Message))
    (earlier : ∀ row ∈ progress.outcome, P row) :
    ∀ row ∈ (runChunks call parts progress store).1.outcome, P row := by
  induction parts generalizing progress with
  | nil => exact earlier
  | cons part rest ih =>
    have same := looks part
    have answers := calls part
    unfold runChunks
    split
    · rename_i rows after done
      rw [done] at same answers
      cases same
      refine ih _ fun row member => ?_
      rcases List.mem_append.mp member with old | new
      · exact earlier row old
      · exact answers rows rfl row new
    · rename_i e after done
      rw [done] at same
      cases same
      exact ih _ earlier

/-- The rows that a batch answers are those of its partitions. -/
theorem forall_mem_runPartitioned {P : Message → Prop} {call : List Uid → Step σ (List Message)}
    (looks : ∀ part, (call part store).2 = store)
    (calls : ∀ part rows, (call part store).1 = .ok rows → ∀ row ∈ rows, P row)
    {bound : Nat} {uids : List Uid} {rows : List Message}
    (answered : (runPartitioned bound call uids store).1 = .ok rows) : ∀ row ∈ rows, P row := by
  unfold runPartitioned at answered
  split at answered
  · cases answered
    exact fun _ member => absurd member List.not_mem_nil
  · split at answered
    · exact calls uids rows answered
    · have each := forall_mem_runChunks looks calls (chunks (max bound 1) uids)
        { outcome := BatchOutcome.empty } fun _ member => absurd member List.not_mem_nil
      simp only [BatchProgress.result] at answered
      split at answered
      · cases answered
        exact each
      · cases answered

variable {P : τ → Prop} {source : Source σ κ τ}
  (looks : ∀ after limit, (source.fetch after limit store).2 = store)
  (fetches : ∀ after limit rows, (source.fetch after limit store).1 = .ok rows →
    ∀ row ∈ rows, P row)

include looks fetches

theorem forall_mem_nextPage {paging next : Paging κ τ} {rows : List τ} {after : σ}
    (done : paging.nextPage source store = (some (.ok rows), next, after)) :
    after = store ∧ ∀ row ∈ rows, P row := by
  have same := looks paging.cursor paging.pageSize
  have page := fetches paging.cursor paging.pageSize
  unfold Paging.nextPage at done
  split at done
  · cases done
  · split at done <;> rename_i fetched
    · cases done
    · rw [fetched] at same page
      cases done
      exact ⟨same, fun row member => page _ rfl row (List.mem_of_mem_take member)⟩

/-- The rows that a read delivers are those that it holds and those of its pages. -/
theorem forall_mem_rest (pages : Nat) (paging : Paging κ τ) (held : ∀ row ∈ paging.buffer, P row)
    {row : τ} (member : .ok row ∈ (paging.rest source pages store).1) : P row := by
  have buffered {paging : Paging κ τ} (held : ∀ row ∈ paging.buffer, P row)
      (member : Except.ok (ε := StoreError) row ∈ paging.buffer.map .ok) : P row := by
    obtain ⟨other, inBuffer, same⟩ := List.mem_map.mp member
    injection same with same
    exact same ▸ held other inBuffer
  induction pages generalizing paging with
  | zero => exact buffered held member
  | succ pages ih =>
    unfold Paging.rest at member
    simp only at member
    split at member <;> rename_i done
    · exact buffered held member
    · rcases List.mem_append.mp member with old | new
      · exact buffered held old
      · cases List.mem_singleton.mp new
    · obtain ⟨same, page⟩ := forall_mem_nextPage looks fetches done
      subst same
      rcases List.mem_append.mp member with old | new
      · exact buffered held old
      · exact ih _ page new

end Answers

namespace Service

variable [Storage σ]

/-- A row that some read in full answers. -/
inductive IsReadInFull (policy : Policy) (store : σ) (row : Message) : Prop where
  | find {mailbox : MailboxId} {uid : Uid}
    (answered : ((Call.find mailbox uid .full).run policy store).1 = .ok (some row))
  | findByUids {mailbox : MailboxId} {uids : List Uid} {rows : List Message}
    (answered : ((Call.findByUids mailbox uids .full).run policy store).1 = .ok rows)
    (member : row ∈ rows)
  | scan {request : ScanRequest} {scanned : Scanned Message}
    (answered : ((Call.scan request .full).run policy store).1 = .ok scanned)
    (member : .ok row ∈ scanned.rows)

/-- What holds of the rows that each operation answers in full holds of those that are read. -/
theorem IsReadInFull.of_operations [PureReads σ] {policy : Policy} {store : σ} {P : Message → Prop}
    (find : ∀ {mailbox uid row}, (Storage.find mailbox uid .full store).1 = .ok (some row) → P row)
    (fetchBatch : ∀ {mailbox uids rows},
      (Storage.fetchBatch mailbox uids .full store).1 = .ok rows → ∀ row ∈ rows, P row)
    (fetchPage : ∀ {request rows}, (Storage.fetchPage request .full store).1 = .ok rows →
      ∀ row ∈ rows, P row) {row : Message} (isRead : IsReadInFull policy store row) : P row := by
  cases isRead with
  | find answered => exact find answered
  | findByUids answered member =>
    exact forall_mem_runPartitioned (fun part => PureReads.fetchBatch _ part _ store)
      (fun part rows => fetchBatch) answered _ member
  | scan answered member =>
    cases answered
    exact forall_mem_rest (fun after limit => PureReads.fetchPage _ _ store)
      (fun after limit rows => fetchPage) _ _
      (fun _ member => absurd member List.not_mem_nil) member

/-- The dates of a row that a call adds have years of four digits. -/
def Call.HasPlainDates : Call → Prop
  | append _ new now => now.HasPlainYear ∧ ∀ date ∈ new.internalDate, date.HasPlainYear
  | _ => True

theorem NewMessage.link_plain {new : NewMessage} {mailbox : MailboxId} {now : Instant}
    (plain : (Call.append mailbox new now).HasPlainDates) :
    (new.link now).hasPlainDates = true := by
  obtain ⟨nowPlain, given⟩ := plain
  refine decide_eq_true ⟨?_, nowPlain⟩
  cases date : new.internalDate with
  | none => exact nowPlain
  | some date' => exact given date' date

/-- The store after the first calls of a run. -/
def storeAfter (policy : Policy) (start : σ) (calls : List Call) (count : Nat) : σ :=
  (Call.runAll policy (calls.take count) start).2

variable [Sound σ] [Stocked σ] [PureReads σ] {policy : Policy} {start store : σ}
  {calls : List Call} {call : Call} {id : MessageId} {content : Octets} {position : Nat}

/-- Rows that are read in full show the content that is stored. -/
theorem IsReadInFull.shows (sound : isSound store) (plain : (stock store).IsPlain) {row : Message}
    (isRead : IsReadInFull policy store row) : (stock store).Shows row :=
  isRead.of_operations (Stocked.find_shows sound plain) (Stocked.fetchBatch_shows sound plain)
    (Stocked.fetchPage_shows sound plain)

/-! ### First appends -/

/-- The call at some position is the first append of a message that succeeded since the message was
last linked nowhere, and was given that content: there it was linked, and it has been linked ever
since. -/
structure IsFirst (policy : Policy) (start : σ) (calls : List Call) (id : MessageId)
    (content : Octets) (position : Nat) : Prop where
  appends : ∃ mailbox new now metadata, calls[position]? = some (.append mailbox new now) ∧
    new.id = id ∧ new.content = content ∧
    ((Call.append mailbox new now).run policy (storeAfter policy start calls position)).1
      = .ok metadata
  unlinked : ¬ (stock (storeAfter policy start calls position)).IsLinked id
  linked : ∀ count, position < count → count ≤ calls.length →
    (stock (storeAfter policy start calls count)).IsLinked id

omit [Sound σ] [Stocked σ] [PureReads σ] in
theorem storeAfter_concat {count : Nat} (early : count ≤ calls.length) :
    storeAfter policy start (calls ++ [call]) count = storeAfter policy start calls count := by
  unfold storeAfter
  rw [List.take_append_of_le_length early]

omit [Sound σ] [Stocked σ] [PureReads σ] in
/-- The store after all of the calls. -/
theorem storeAfter_length :
    storeAfter policy start calls calls.length = (Call.runAll policy calls start).2 := by
  unfold storeAfter
  rw [List.take_length]

namespace IsFirst

omit [PureReads σ] in
theorem position_lt (first : IsFirst policy start calls id content position) :
    position < calls.length := by
  obtain ⟨mailbox, new, now, metadata, present, -⟩ := first.appends
  exact (List.getElem?_eq_some_iff.mp present).1

omit [PureReads σ] in
/-- One append is the first of a message that is linked. -/
theorem unique {content' : Octets} {position' : Nat}
    (first : IsFirst policy start calls id content position)
    (first' : IsFirst policy start calls id content' position') :
    position = position' ∧ content = content' := by
  -- The later of two would find the message linked.
  have apart {content content' : Octets} {position position' : Nat}
      (first : IsFirst policy start calls id content position)
      (first' : IsFirst policy start calls id content' position') : ¬ position < position' :=
    fun earlier => first'.unlinked (first.linked _ earlier (Nat.le_of_lt first'.position_lt))
  obtain rfl : position = position' :=
    Nat.le_antisymm (Nat.not_lt.mp (apart first' first)) (Nat.not_lt.mp (apart first first'))
  obtain ⟨_, _, _, _, present, -, rfl, -⟩ := first.appends
  obtain ⟨_, _, _, _, present', -, rfl, -⟩ := first'.appends
  rw [present] at present'
  cases present'
  exact ⟨rfl, rfl⟩

omit [PureReads σ] in
/-- An append stays the first one for as long as the message is linked. -/
theorem concat (first : IsFirst policy start calls id content position)
    (linked : (stock (Call.runAll policy (calls ++ [call]) start).2).IsLinked id) :
    IsFirst policy start (calls ++ [call]) id content position where
  appends := by
    rw [List.getElem?_append_left first.position_lt,
      storeAfter_concat (Nat.le_of_lt first.position_lt)]
    exact first.appends
  unlinked := by
    rw [storeAfter_concat (Nat.le_of_lt first.position_lt)]
    exact first.unlinked
  linked count later within := by
    rw [List.length_append, List.length_singleton] at within
    rcases Nat.lt_or_eq_of_le within with early | last
    · rw [storeAfter_concat (Nat.le_of_lt_succ early)]
      exact first.linked count later (Nat.le_of_lt_succ early)
    · have all : count = (calls ++ [call]).length := by
        rw [last, List.length_append, List.length_singleton]
      rw [all, storeAfter_length]
      exact linked

omit [PureReads σ] in
/-- An append of a message that was linked nowhere is the first one. -/
theorem of_links {mailbox : MailboxId} {new : NewMessage} {now : Instant} {metadata : Metadata}
    (unlinked : ¬ (stock (Call.runAll policy calls start).2).IsLinked new.id)
    (answered : ((Call.append mailbox new now).run policy (Call.runAll policy calls start).2).1
      = .ok metadata)
    (linked : (stock (Call.runAll policy (calls ++ [.append mailbox new now]) start).2).IsLinked
      new.id) :
    IsFirst policy start (calls ++ [.append mailbox new now]) new.id new.content calls.length where
  appends := by
    rw [List.getElem?_concat_length, storeAfter_concat (Nat.le_refl _), storeAfter_length]
    exact ⟨mailbox, new, now, metadata, rfl, rfl, rfl, answered⟩
  unlinked := by
    rw [storeAfter_concat (Nat.le_refl _), storeAfter_length]
    exact unlinked
  linked count later within := by
    have all : count = (calls ++ [Call.append mailbox new now]).length := by
      rw [List.length_append, List.length_singleton] at within ⊢
      omega
    rw [all, storeAfter_length]
    exact linked

end IsFirst

/-! ### The step and the run -/

/-- After some calls, contents are stored for the messages that are linked, each that which the
first append of its message was given. -/
structure Recalls (policy : Policy) (start : σ) (calls : List Call) : Prop where
  isSound : isSound (Call.runAll policy calls start).2
  isTidy : (stock (Call.runAll policy calls start).2).IsTidy
  first : ∀ id, (stock (Call.runAll policy calls start).2).IsLinked id →
    ∃ content position, IsFirst policy start calls id content position ∧
      (stock (Call.runAll policy calls start).2).contentOf id = some (.packed content)

omit [PureReads σ] in
/-- A row that shows the content that is stored has that which the first append was given. -/
theorem Recalls.first_of_shows (recalls : Recalls policy start calls) {row : Message}
    (shows : (stock (Call.runAll policy calls start).2).Shows row) :
    ∃ content position, IsFirst policy start calls row.messageId content position ∧
      row.content = some content := by
  obtain ⟨linked, shown⟩ := shows
  obtain ⟨content, position, first, stored⟩ := recalls.first row.messageId linked
  refine ⟨content, position, first, ?_⟩
  rw [stored] at shown
  cases same : row.content with
  | none =>
    rw [same] at shown
    cases shown
  | some other =>
    rw [same] at shown
    cases shown
    rfl

omit [Sound σ] [Stocked σ] [PureReads σ] in
/-- The store after one more call. -/
theorem runAll_concat (policy : Policy) (start : σ) (calls : List Call) (call : Call) :
    (Call.runAll policy (calls ++ [call]) start).2
      = (call.run policy (Call.runAll policy calls start).2).2 := by
  rw [Call.runAll_append]
  rfl

/-- One more call drops the contents of the messages that it unlinks and no other, and stores the
content of a message that was linked nowhere. -/
theorem Recalls.concat (recalls : Recalls policy start calls) (call : Call) :
    Recalls policy start (calls ++ [call]) := by
  obtain ⟨sound, drops | ⟨mailbox, new, now, metadata, links⟩⟩ :=
    call.run_stock policy recalls.isSound
  · rw [← runAll_concat] at sound drops
    refine ⟨sound, drops.isTidy recalls.isTidy, fun id linked => ?_⟩
    obtain ⟨content, position, first, stored⟩ := recalls.first id (drops.isLinked linked)
    refine ⟨content, position, first.concat linked, ?_⟩
    rw [drops.contentOf recalls.isTidy id linked, stored]
  · have put := links.put
    rw [← runAll_concat] at sound put
    obtain rfl := links.isAppend
    refine ⟨sound, put ▸ recalls.isTidy.put links.free, fun id linked => ?_⟩
    by_cases before : (stock (Call.runAll policy calls start).2).IsLinked id
    · obtain ⟨content, position, first, stored⟩ := recalls.first id before
      refine ⟨content, position, first.concat linked, ?_⟩
      rw [put, Stock.contentOf_put, stored, Option.getD_some, ite_self]
    · -- Only the message that was appended has come to be linked.
      have isNew : id = (new.link now).id := by
        rw [put, Stock.isLinked_put_iff links.free] at linked
        exact linked.resolve_right before
      have none : (stock (Call.runAll policy calls start).2).contentOf id = .none :=
        Option.not_isSome_iff_eq_none.mp ((not_congr (recalls.isTidy id)).mpr before)
      subst isNew
      have answered := congrArg Prod.fst links.answer
      refine ⟨new.content, calls.length, .of_links before answered linked, ?_⟩
      rw [put, Stock.contentOf_put, if_pos rfl, none]
      rfl

/-- More calls keep the contents as one more does. -/
theorem Recalls.append (recalls : Recalls policy start calls) (more : List Call) :
    Recalls policy start (calls ++ more) := by
  induction more generalizing calls with
  | nil => rwa [List.append_nil]
  | cons call rest ih =>
    rw [← List.singleton_append, ← List.append_assoc]
    exact ih (recalls.concat call)

/-- Contents are recalled, and the rows have dates that can be read back. -/
structure Holds (policy : Policy) (start : σ) (calls : List Call) : Prop
    extends Recalls policy start calls where
  isPlain : (stock (Call.runAll policy calls start).2).IsPlain

/-- The dates of the row that is added are as plain as those of the others. -/
theorem Holds.concat (holds : Holds policy start calls) (plain : call.HasPlainDates) :
    Holds policy start (calls ++ [call]) := by
  have recalls := holds.toRecalls.concat call
  obtain ⟨-, drops | ⟨mailbox, new, now, metadata, links⟩⟩ := call.run_stock policy holds.isSound
  · rw [← runAll_concat] at drops
    exact ⟨recalls, drops.isPlain holds.isPlain⟩
  · have put := links.put
    rw [← runAll_concat] at put
    obtain rfl := links.isAppend
    exact ⟨recalls, put ▸ holds.isPlain.put (NewMessage.link_plain plain)⟩

/-- More calls keep the contents as one more does. -/
theorem Holds.append {more : List Call} (holds : Holds policy start calls)
    (plain : ∀ call ∈ more, call.HasPlainDates) : Holds policy start (calls ++ more) := by
  induction more generalizing calls with
  | nil => rwa [List.append_nil]
  | cons call rest ih =>
    rw [← List.singleton_append, ← List.append_assoc]
    refine ih (holds.concat (plain call List.mem_cons_self)) fun other member => ?_
    exact plain other (List.mem_cons_of_mem _ member)

/-- A store is empty: it has neither rows nor contents. -/
structure HoldsNothing (store : σ) : Prop where
  isSound : isSound store
  linkAt : ∀ place, (stock store).linkAt place = none
  contentOf : ∀ id, (stock store).contentOf id = none

omit [PureReads σ] in
theorem HoldsNothing.unlinked (nothing : HoldsNothing store) : ¬ (stock store).IsLinked id := by
  rintro ⟨place, link, found, -⟩
  rw [nothing.linkAt] at found
  cases found

omit [PureReads σ] in
theorem Recalls.of_nothing (nothing : HoldsNothing start) : Recalls policy start [] where
  isSound := nothing.isSound
  isTidy id := by
    show ((stock start).contentOf id).isSome = true ↔ (stock start).IsLinked id
    simp [nothing.contentOf, nothing.unlinked]
  first id linked := absurd linked nothing.unlinked

omit [PureReads σ] in
theorem Holds.of_nothing (nothing : HoldsNothing start) : Holds policy start [] where
  toRecalls := .of_nothing nothing
  isPlain place link found := by
    rw [show (Call.runAll policy [] start).2 = start from rfl, nothing.linkAt] at found
    cases found

/-- What is stored after some calls, and what reads in full answer. -/
structure KeepsContents (policy : Policy) (start : σ) (calls : List Call) : Prop where
  /-- Content is stored for a message if and only if some row carries it. -/
  stored_iff : ∀ id, ((stock (Call.runAll policy calls start).2).contentOf id).isSome ↔
    (stock (Call.runAll policy calls start).2).IsLinked id
  /-- Every row can be read in full. -/
  isRead : ∀ place link,
    (stock (Call.runAll policy calls start).2).linkAt place = some link →
    ∃ row, ((Call.find place.mailbox place.uid .full).run policy
        (Call.runAll policy calls start).2).1 = .ok (some row) ∧ row.messageId = link.id
  /-- Every read in full answers the content that the first append was given. -/
  content_eq : ∀ row, IsReadInFull policy (Call.runAll policy calls start).2 row →
    ∃ content position, IsFirst policy start calls row.messageId content position ∧
      row.content = some content

/-- A store that was empty keeps the contents of the messages that are linked, each that which the
first append was given. -/
theorem keepsContents (nothing : HoldsNothing start) (plain : ∀ call ∈ calls, call.HasPlainDates) :
    KeepsContents policy start calls := by
  have holds : Holds policy start calls := (Holds.of_nothing nothing).append plain
  exact ⟨holds.isTidy, fun place link => Stocked.find holds.isSound holds.isPlain,
    fun row isRead => holds.first_of_shows (isRead.shows holds.isSound holds.isPlain)⟩

end Service

end Mailroom
