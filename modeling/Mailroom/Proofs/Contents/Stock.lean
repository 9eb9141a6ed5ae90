import Mailroom.Proofs.Database.Codec
import Mailroom.Proofs.Effects
/-!
Which messages are linked where, and what content is stored for them.

The `Stock` of a store is what no update of flags changes. `Stocked` says for each operation what it
does to the stock: an insert links a message and stores its content if none is stored, a removal
drops rows and the contents that are not linked any more, and everything else leaves the stock as it
is. So a call drops rows, or it is an append that links one (`Call.run_stock`).
-/

namespace Mailroom

open Database (StoredContent)

variable {σ α : Type}

/-- What never changes of a row: whose message it is, and whether its dates have years of four
digits. -/
structure Link where
  id : MessageId
  hasPlainDates : Bool

/-- The links of messages to places, and the contents. -/
@[ext] structure Stock where
  linkAt : Place → Option Link
  contentOf : MessageId → Option StoredContent

namespace Stock

variable {s middle after : Stock} {place : Place} {link : Link} {content : Octets}
  {id : MessageId}

/-- A message has a row in some mailbox. -/
def IsLinked (s : Stock) (id : MessageId) : Prop :=
  ∃ place link, s.linkAt place = some link ∧ link.id = id

/-- Contents are stored for messages that are linked, and for no others. -/
def IsTidy (s : Stock) : Prop := ∀ id, (s.contentOf id).isSome ↔ s.IsLinked id

/-- Every row has dates that can be read back wherever they are stored. -/
def IsPlain (s : Stock) : Prop :=
  ∀ place link, s.linkAt place = some link → link.hasPlainDates = true

/-- A row carries a message that is linked in its mailbox, and the content that is stored for it. -/
def Shows (s : Stock) (row : Message) : Prop :=
  s.IsLinked row.messageId ∧ s.contentOf row.messageId = row.content.map .packed

/-! ### Changes -/

/-- A row is added, and the content is stored if there is none. -/
def put (s : Stock) (place : Place) (link : Link) (content : Octets) : Stock where
  linkAt other := if other = place then some link else s.linkAt other
  contentOf id :=
    if id = link.id then some ((s.contentOf id).getD (.packed content)) else s.contentOf id

theorem linkAt_put {other : Place} : (s.put place link content).linkAt other
    = if other = place then some link else s.linkAt other := rfl

theorem contentOf_put : (s.put place link content).contentOf id
    = if id = link.id then some ((s.contentOf id).getD (.packed content)) else s.contentOf id := rfl

/-- Rows are dropped, and with the last row of a message its content. -/
structure Drops (s after : Stock) : Prop where
  linkAt : ∀ place, after.linkAt place = s.linkAt place ∨ after.linkAt place = none
  isTidy : s.IsTidy → after.IsTidy
  contentOf : s.IsTidy → ∀ id, after.IsLinked id → after.contentOf id = s.contentOf id

theorem Drops.refl (s : Stock) : s.Drops s := ⟨fun _ => .inl rfl, id, fun _ _ _ => rfl⟩

theorem Drops.isLinked (drops : s.Drops after) (linked : after.IsLinked id) : s.IsLinked id := by
  obtain ⟨place, link, found, same⟩ := linked
  rcases drops.linkAt place with kept | dropped
  · exact ⟨place, link, kept.symm.trans found, same⟩
  · rw [dropped] at found
    cases found

/-- Rows are dropped as they should be if the contents of messages that are unlinked go, and no
others. -/
theorem Drops.of_contents
    (linkAt : ∀ place, after.linkAt place = s.linkAt place ∨ after.linkAt place = none)
    (kept : ∀ id, after.IsLinked id → after.contentOf id = s.contentOf id)
    (unlinked : ∀ id, s.IsLinked id → ¬ after.IsLinked id → after.contentOf id = none)
    (absent : ∀ id, s.contentOf id = none → after.contentOf id = none) : s.Drops after where
  linkAt := linkAt
  contentOf _ := kept
  isTidy tidy id := by
    by_cases linked : after.IsLinked id
    · have before : s.IsLinked id := by
        obtain ⟨place, link, found, same⟩ := linked
        rcases linkAt place with here | gone
        · exact ⟨place, link, here.symm.trans found, same⟩
        · rw [gone] at found
          cases found
      exact iff_of_true (kept id linked ▸ (tidy id).mpr before) linked
    · have none : after.contentOf id = none := by
        by_cases before : s.IsLinked id
        · exact unlinked id before linked
        · refine absent id (Option.not_isSome_iff_eq_none.mp fun stored => ?_)
          exact before ((tidy id).mp stored)
      simp [none, linked]

theorem Drops.trans (first : s.Drops middle) (second : middle.Drops after) : s.Drops after where
  linkAt place := by
    rcases second.linkAt place with kept | dropped
    · rw [kept]
      exact first.linkAt place
    · exact .inr dropped
  isTidy tidy := second.isTidy (first.isTidy tidy)
  contentOf tidy id linked :=
    (second.contentOf (first.isTidy tidy) id linked).trans
      (first.contentOf tidy id (second.isLinked linked))

theorem Drops.isPlain (drops : s.Drops after) (plain : s.IsPlain) : after.IsPlain := by
  intro place link found
  rcases drops.linkAt place with kept | dropped
  · exact plain place link (kept.symm.trans found)
  · rw [dropped] at found
    cases found

/-- A message is linked after a row was added if it is that of the row or was linked before. -/
theorem isLinked_put_iff (free : s.linkAt place = none) :
    (s.put place link content).IsLinked id ↔ id = link.id ∨ s.IsLinked id := by
  constructor
  · rintro ⟨other, found, here, rfl⟩
    by_cases same : other = place
    · rw [linkAt_put, if_pos same] at here
      cases here
      exact .inl rfl
    · rw [linkAt_put, if_neg same] at here
      exact .inr ⟨other, found, here, rfl⟩
  · rintro (rfl | ⟨other, found, here, rfl⟩)
    · exact ⟨place, link, if_pos rfl, rfl⟩
    · refine ⟨other, found, ?_, rfl⟩
      rw [linkAt_put, if_neg]
      · exact here
      · rintro rfl
        rw [free] at here
        cases here

theorem IsTidy.put (tidy : s.IsTidy) (free : s.linkAt place = none) :
    (s.put place link content).IsTidy := by
  intro id
  rw [isLinked_put_iff free, contentOf_put]
  by_cases here : id = link.id
  · simp [here]
  · simp [here, tidy id]

theorem IsPlain.put (plain : s.IsPlain) (isPlain : link.hasPlainDates = true) :
    (s.put place link content).IsPlain := by
  intro other found here
  by_cases same : other = place
  · rw [linkAt_put, if_pos same] at here
    cases here
    exact isPlain
  · rw [linkAt_put, if_neg same] at here
    exact plain other found here

end Stock

/-! ### Stores -/

/-- A sound store stays sound, and its stock is related to what it was. -/
def Relates [Sound σ] (stock : σ → Stock) (R : Stock → Stock → Prop) (store after : σ) : Prop :=
  isSound store → isSound after ∧ R (stock store) (stock after)

theorem relates_chains [Sound σ] {stock : σ → Stock} {R : Stock → Stock → Prop}
    (refl : ∀ s, R s s) (trans : ∀ {s middle after}, R s middle → R middle after → R s after) :
    Chains (Relates stock R) where
  refl _ sound := ⟨sound, refl _⟩
  trans first second sound :=
    ⟨(second (first sound).1).1, trans (first sound).2 (second (first sound).1).2⟩

theorem Relates.mono [Sound σ] {stock : σ → Stock} {R S : Stock → Stock → Prop} {store after : σ}
    (relates : Relates stock R store after) (implies : ∀ {s after}, R s after → S s after) :
    Relates stock S store after := fun sound => (relates sound).imp_right implies

/-- The row of a message as a link. -/
def Message.link (row : Message) : Link := ⟨row.messageId, decide row.HasPlainDates⟩

theorem Message.link_asWritten (row : Message) : row.asWritten.link = row.link :=
  congrArg (Link.mk row.messageId) (decide_eq_decide.mpr row.hasPlainDates_asWritten)

/-- What an insert does to the stock of a sound store: nothing if it fails, and else it adds a row
at a place that was free. -/
structure Inserts [Sound σ] (stock : σ → Stock) (message : Message) (content : Octets)
    (store : σ) (answer : Except StoreError Unit) (after : σ) : Prop where
  isSound : isSound after
  refused : ∀ e, answer = .error e → stock after = stock store
  free : answer = .ok () → (stock store).linkAt message.place = none
  put : answer = .ok () → stock after = (stock store).put message.place message.link content

/-- A store whose operations can be followed in its stock. -/
class Stocked (σ : Type) [Storage σ] [Sound σ] where
  stock : σ → Stock
  nextUid : ∀ mailbox, (Storage.nextUid mailbox).Within (Relates stock Eq)
  nextModSeq : ∀ mailbox, (Storage.nextModSeq mailbox).Within (Relates stock Eq)
  insert : ∀ (message : Message) (content : Octets), message.content = some content →
    ∀ store : σ, isSound store → Inserts stock message content store
      (Storage.insert message store).1 (Storage.insert message store).2
  updateFlags : ∀ mailbox uid edit modSeq expected,
    (Storage.updateFlags mailbox uid edit modSeq expected).Within (Relates stock Eq)
  resetRecent : ∀ mailbox uids modSeq, modSeq ≤ maxStored → uids.Pairwise (· < ·) →
    (Storage.resetRecent mailbox uids modSeq).Within (Relates stock Eq)
  deleteBatch : ∀ mailbox uids, uids.Pairwise (· < ·) →
    (Storage.deleteBatch mailbox uids).Within (Relates stock Stock.Drops)
  deleteMailbox : ∀ mailbox, (Storage.deleteMailbox mailbox).Within (Relates stock Stock.Drops)
  deleteMessage : ∀ id, (Storage.deleteMessage id).Within (Relates stock Stock.Drops)
  appendChange : ∀ draft expiresAt, (Storage.appendChange draft expiresAt).Within (Relates stock Eq)
  purgeExpired : ∀ now, (Storage.purgeExpired now).Within (Relates stock Eq)
  /-- Rows that are read in full show what is stored. -/
  find : ∀ {store : σ}, isSound store → (stock store).IsPlain → ∀ {place link},
    (stock store).linkAt place = some link →
    ∃ row, (Storage.find place.mailbox place.uid .full store).1 = .ok (some row) ∧
      row.messageId = link.id
  find_shows : ∀ {store : σ}, isSound store → (stock store).IsPlain → ∀ {mailbox uid row},
    (Storage.find mailbox uid .full store).1 = .ok (some row) → (stock store).Shows row
  fetchBatch_shows : ∀ {store : σ}, isSound store → (stock store).IsPlain → ∀ {mailbox uids rows},
    (Storage.fetchBatch mailbox uids .full store).1 = .ok rows →
    ∀ row ∈ rows, (stock store).Shows row
  fetchPage_shows : ∀ {store : σ}, isSound store → (stock store).IsPlain → ∀ {request rows},
    (Storage.fetchPage request .full store).1 = .ok rows →
    ∀ row ∈ rows, (stock store).Shows row

export Stocked (stock)

namespace Service

variable [Storage σ] [Sound σ] [Stocked σ]

/-- An append adds a row. -/
def Call.IsAppend : Call → Prop
  | append .. => True
  | _ => False

theorem drops_chains : Chains (Relates (stock : σ → Stock) Stock.Drops) :=
  relates_chains .refl .trans

/-- A step that leaves the stock as it is drops no row. -/
theorem drops_of_eq {step : Step σ α} (same : step.Within (Relates stock Eq)) :
    step.Within (Relates stock Stock.Drops) := fun store =>
  (same store).mono fun same => same ▸ .refl _

/-- Writes other than appends drop rows at most. -/
theorem writes_drop : Writes σ (fun call => ¬ call.IsAppend) (Relates stock Stock.Drops) where
  nextUid mailbox := drops_of_eq (Stocked.nextUid mailbox)
  nextModSeq mailbox := drops_of_eq (Stocked.nextModSeq mailbox)
  append _ _ _ isOther := absurd trivial isOther
  applyFlags := applyFlags_within drops_chains
    (fun mailbox => drops_of_eq (Stocked.nextModSeq mailbox))
    fun mailbox uid edit modSeq expected =>
      drops_of_eq (Stocked.updateFlags mailbox uid edit modSeq expected)
  resetRecent mailbox _ modSeq _ fits part ascending :=
    drops_of_eq (Stocked.resetRecent mailbox part modSeq fits ascending)
  deleteBatch := Stocked.deleteBatch
  deleteMailbox := Stocked.deleteMailbox
  deleteMessage := Stocked.deleteMessage
  appendChange draft expiresAt _ := drops_of_eq (Stocked.appendChange draft expiresAt)
  purgeExpired now _ := drops_of_eq (Stocked.purgeExpired now)

/-- The row of a new message as a link. -/
def NewMessage.link (new : NewMessage) (now : Instant) : Link :=
  ⟨new.id, decide ((new.internalDate.getD now).HasPlainYear ∧ now.HasPlainYear)⟩

theorem NewMessage.link_row (new : NewMessage) (mailbox : MailboxId) (uid : Uid) (modSeq : ModSeq)
    (now : Instant) : (new.row mailbox uid modSeq now).link = new.link now := by
  have dates : (new.row mailbox uid modSeq now).HasPlainDates
      ↔ (new.internalDate.getD now).HasPlainYear ∧ now.HasPlainYear := by
    refine and_congr_right fun _ => ?_
    show (∀ t ∈ some now, _) ↔ _
    simp
  exact congrArg (Link.mk new.id) (decide_eq_decide.mpr dates)

/-- An append that succeeds has linked its message at a place that was free. -/
structure Call.Links (call : Call) (store after : σ) (mailbox : MailboxId) (new : NewMessage)
    (now : Instant) (metadata : Metadata) : Prop where
  isAppend : call = .append mailbox new now
  answer : Service.append mailbox new now store = (.ok metadata, after)
  free : (stock store).linkAt ⟨mailbox, metadata.uid⟩ = none
  put : stock after = (stock store).put ⟨mailbox, metadata.uid⟩ (new.link now) new.content

/-- An append that fails has linked nothing. -/
theorem append_links (mailbox : MailboxId) (new : NewMessage) (now : Instant) {store : σ}
    (sound : isSound store) :
    let outcome := Service.append mailbox new now store
    isSound outcome.2 ∧ (stock outcome.2 = stock store ∨ ∃ metadata,
      (Call.append mailbox new now).Links store outcome.2 mailbox new now metadata) := by
  intro outcome
  obtain ⟨sound₁, same₁⟩ := Stocked.nextUid mailbox store sound
  rcases append_cases mailbox new now store with
    ⟨e, after, counted, failed⟩ | ⟨uid, middle, counted, ending⟩
  · rw [counted] at sound₁ same₁
    have failed : outcome = (.error e, after) := failed
    exact failed ▸ ⟨sound₁, .inl same₁.symm⟩
  rw [counted] at sound₁ same₁
  obtain ⟨sound₂, same₂⟩ := Stocked.nextModSeq mailbox middle sound₁
  rcases ending with ⟨e, after, stamped, failed⟩ | ⟨modSeq, last, stamped, ended⟩
  · rw [stamped] at sound₂ same₂
    have failed : outcome = (.error e, after) := failed
    exact failed ▸ ⟨sound₂, .inl (same₁.trans same₂).symm⟩
  rw [stamped] at sound₂ same₂
  have same : stock last = stock store := (same₁.trans same₂).symm
  have inserts := Stocked.insert (new.row mailbox uid modSeq now) new.content rfl last sound₂
  have left : outcome.2 = (Storage.insert (new.row mailbox uid modSeq now) last).2 :=
    congrArg Prod.snd ended
  rw [left]
  refine ⟨inserts.isSound, ?_⟩
  cases inserted : (Storage.insert (new.row mailbox uid modSeq now) last).1 with
  | error e => exact .inl ((inserts.refused e inserted).trans same)
  | ok _ =>
    rw [inserted] at ended
    refine .inr ⟨_, rfl, ended, ?_, ?_⟩
    · rw [← same]
      exact inserts.free inserted
    · rw [← same, ← new.link_row mailbox uid modSeq now]
      exact inserts.put inserted

/-- A call drops rows at most, or it is an append that links a message. -/
theorem Call.run_stock [PureReads σ] (policy : Policy) (call : Call) {store : σ}
    (sound : isSound store) :
    isSound (call.run policy store).2 ∧
      ((stock store).Drops (stock (call.run policy store).2) ∨ ∃ mailbox new now metadata,
        call.Links store (call.run policy store).2 mailbox new now metadata) := by
  by_cases isAppend : call.IsAppend
  · cases call with
    | append mailbox new now =>
      obtain ⟨after, same | ⟨metadata, links⟩⟩ := append_links mailbox new now sound
      · exact ⟨after, .inl (same ▸ .refl _)⟩
      · exact ⟨after, .inr ⟨mailbox, new, now, metadata, links⟩⟩
    | _ => exact isAppend.elim
  · exact (Call.run_within drops_chains writes_drop policy call isAppend store sound).imp_right .inl

end Service

end Mailroom
