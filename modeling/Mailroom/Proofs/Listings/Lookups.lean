import Mailroom.Proofs.Listings.Reached
/-!
Rows as they are looked up.

`lookUp` is what a read of one place answers. In either store it depends on nothing but what stands
at the place, and on the content of the message there (`Memory.Store.lookUp_congr`,
`Database.Store.lookUp_congr`). `LeavesOthers` says of a write which places it may touch: at any
other one the same row is read, with its content. A write that only drops rows leaves the others
whenever they stand where they stood (`LeavesOthers.of_drops`).
-/

namespace Mailroom

open Service

variable {σ : Type} {fetch : Fetch} {place : Place}

/-- What is read at a place. -/
def lookUp [Storage σ] (fetch : Fetch) (store : σ) (place : Place) :
    Except StoreError (Option Message) :=
  (Storage.find place.mailbox place.uid fetch store).1

/-- At any place but those that are touched, the row is as it was, and read as it was. -/
structure LeavesOthers [Storage σ] [Kept σ] (touched : Place → Prop) (store after : σ) : Prop where
  rows : ∀ place, ¬ touched place → SameRow place store after
  reads : ∀ place, ¬ touched place → ∀ fetch, lookUp fetch after place = lookUp fetch store place

theorem leavesOthers_chains [Storage σ] [Kept σ] (touched : Place → Prop) :
    Chains (LeavesOthers (σ := σ) touched) where
  refl _ := ⟨fun _ _ => rfl, fun _ _ _ => rfl⟩
  trans first second := {
    rows := fun place apart =>
      (sameRow_chains place).trans (first.rows place apart) (second.rows place apart)
    reads := fun place apart fetch =>
      (second.reads place apart fetch).trans (first.reads place apart fetch) }

/-- A message is linked at a place. -/
def Stock.LinksAt (s : Stock) (id : MessageId) (place : Place) : Prop :=
  ∃ link, s.linkAt place = some link ∧ link.id = id

/-- A store in which what is read of a place is decided by what stands there and by the content of
the message that is linked there. -/
class Displayed (σ : Type) [Storage σ] [Kept σ] [Sound σ] [Stocked σ] : Prop where
  linkAt_same : ∀ {place} {store after : σ}, SameRow place store after →
    (stock after).linkAt place = (stock store).linkAt place
  lookUp_none : ∀ {place} {store : σ}, isSound store → (stock store).linkAt place = none →
    ∀ fetch, lookUp fetch store place = .ok none
  lookUp_same : ∀ {place} {store after : σ}, isSound store → isSound after →
    SameRow place store after → (∀ link, (stock store).linkAt place = some link →
      (stock after).contentOf link.id = (stock store).contentOf link.id) →
    ∀ fetch, lookUp fetch after place = lookUp fetch store place
  /-- A row that is read is of the message that is linked at its place. -/
  linksAt : ∀ {place fetch row} {store : σ}, lookUp fetch store place = .ok (some row) →
    (stock store).LinksAt row.messageId place
  /-- Counters are not displayed. -/
  lookUp_counted : ∀ {place} {store after : σ}, SameButCounters store after →
    ∀ fetch, lookUp fetch after place = lookUp fetch store place

section Displays

variable [Storage σ] [Kept σ] [Sound σ] [Stocked σ] [Displayed σ] {touched : Place → Prop}
  {store after : σ}

/-- Rows that stand where they stood are read as they were if no more than rows is dropped, with the
contents of messages that are linked no more. -/
theorem LeavesOthers.of_drops (sound : isSound store) (sound' : isSound after)
    (tidy : (stock store).IsTidy) (rows : ∀ place, ¬ touched place → SameRow place store after)
    (drops : (stock store).Drops (stock after)) : LeavesOthers touched store after where
  rows := rows
  reads place apart := by
    have same := rows place apart
    refine Displayed.lookUp_same sound sound' same fun link here => ?_
    have still := (Displayed.linkAt_same same).trans here
    exact drops.contentOf tidy link.id ⟨place, link, still, rfl⟩

/-- Counting up touches no row. -/
theorem LeavesOthers.of_counted (same : SameButCounters store after) :
    LeavesOthers touched store after where
  rows place _ := congrFun (Kept.rowAt_same same) place
  reads _ _ := Displayed.lookUp_counted same

end Displays

/-! ### In memory -/

namespace Memory.Store

variable {m after : Store}

theorem lookUp_eq (on : m.available = true) :
    lookUp fetch m place = .ok ((m.rows.get? place).map (m.present fetch)) := by
  show m.find place.mailbox place.uid fetch = _
  unfold find
  rw [ensureAvailable_ok.mpr on]
  rfl

/-- Nothing is read while the store is switched off. -/
theorem available_of_lookUp {found : Option Message} (read : lookUp fetch m place = .ok found) :
    m.available = true := by
  obtain ⟨_, on, -⟩ := Outcomes.bind_eq_ok.mp read
  exact ensureAvailable_ok.mp on

theorem lookUp_congr (available : after.available = m.available)
    (row : after.rows.get? place = m.rows.get? place)
    (content : ∀ row, m.rows.get? place = some row →
      after.contents.get? row.messageId = m.contents.get? row.messageId) :
    lookUp fetch after place = lookUp fetch m place := by
  show after.find place.mailbox place.uid fetch = m.find place.mailbox place.uid fetch
  unfold find ensureAvailable
  rw [available, row]
  refine congrArg (_ >>= ·) (funext fun _ => congrArg Except.ok ?_)
  refine Option.map_congr fun row found => ?_
  cases fetch with
  | metadata => rfl
  | full => rw [present, present, content row found]

instance : Displayed Store where
  linkAt_same same := congrArg (Option.map Message.link) same
  lookUp_none sound nothing fetch := by
    rw [lookUp_eq sound.available, Option.map_eq_none_iff.mp nothing]
    rfl
  lookUp_same sound sound' same content fetch := by
    refine lookUp_congr (sound'.available.trans sound.available.symm) same fun row found => ?_
    have packed := content row.link (congrArg (Option.map Message.link) found)
    exact Option.map_injective (fun _ _ => Database.StoredContent.packed.inj) packed
  linksAt {place fetch row m} read := by
    rw [lookUp_eq (available_of_lookUp read)] at read
    obtain ⟨stored, found, rfl⟩ := Option.map_eq_some_iff.mp (Except.ok.inj read)
    refine ⟨stored.link, congrArg (Option.map Message.link) found, ?_⟩
    cases fetch <;> rfl
  lookUp_counted {place m after} same fetch := by
    change after = { m with counters := after.counters } at same
    rw [same]
    exact lookUp_congr rfl rfl fun _ _ => rfl

end Memory.Store

/-! ### In the database -/

namespace Database

namespace Store

variable {d after : Store}

/-- One row is read back by itself. -/
theorem selectMessages_place {db : Database}
    (exist : requireRelations db (readRelations fetch) = .ok ()) :
    selectMessages db fetch (fun other _ => other = place) none
      = Option.toList <$> (db.messages.get? place).mapM fun row =>
        readEntry db fetch (place, row) := by
  unfold selectMessages
  simp only [exist, Outcomes.ok_bind, Table.entries_filter_key]
  cases db.messages.get? place with
  | none => rfl
  | some row =>
    show _ = Option.toList <$> some <$> readEntry db fetch (place, row)
    rw [readEntry_eq]
    simp only [Option.toList_some, List.map_cons, List.map_nil, List.mapM_cons, List.mapM_nil]
    cases row.values with
    | error _ => rfl
    | ok values =>
      show (values.read place _ _ >>= _) = Option.toList <$> some <$> values.read place _ _
      cases values.read place (keywordsAt db place) _ <;> rfl

theorem lookUp_eq : lookUp fetch d place =
    if maxStored < place.uid then .ok none
    else requireRelations d.database (readRelations fetch) >>= fun _ =>
      (d.database.messages.get? place).mapM fun row => readEntry d.database fetch (place, row) := by
  show d.find place.mailbox place.uid fetch = _
  unfold find
  split
  · rfl
  cases exist : requireRelations d.database (readRelations fetch) with
  | error _ =>
    unfold selectMessages
    rw [exist]
    rfl
  | ok _ =>
    rw [selectMessages_place exist, Outcomes.ok_bind]
    cases (d.database.messages.get? place).mapM fun row =>
        readEntry d.database fetch (place, row) with
    | error _ => rfl
    | ok found => cases found <;> rfl

/-- A row that is the same has the same keywords. -/
theorem keywordsAt_congr (same : SameRow place d after) :
    keywordsAt after.database place = keywordsAt d.database place := by
  have listed : after.database.keywords.filter (·.1 = place)
      = d.database.keywords.filter (·.1 = place) := congrArg Prod.snd same
  unfold keywordsAt
  rw [listed]

theorem lookUp_congr (missing : after.database.missing = d.database.missing)
    (same : SameRow place d after) (content : ∀ link, d.stock.linkAt place = some link →
      after.stock.contentOf link.id = d.stock.contentOf link.id) :
    lookUp fetch after place = lookUp fetch d place := by
  have row : after.database.messages.get? place = d.database.messages.get? place :=
    congrArg Prod.fst same
  rw [lookUp_eq, lookUp_eq, requireRelations, requireRelations, missing, row]
  cases found : d.database.messages.get? place with
  | none => rfl
  | some row =>
    have read : readEntry after.database fetch (place, row)
        = readEntry d.database fetch (place, row) := by
      rw [readEntry_eq, readEntry_eq, keywordsAt_congr same]
      cases typed : row.values with
      | error _ => rfl
      | ok values =>
        cases fetch with
        | metadata => rfl
        | full =>
          obtain ⟨plain, link⟩ : ∃ plain,
              d.stock.linkAt place = some ⟨values.messageId, plain⟩ := by
            refine ⟨(values.read place .empty none).toOption.isSome, ?_⟩
            show (d.database.messages.get? place).bind _ = _
            rw [found, Option.bind_some, MessageRow.link, typed]
            rfl
          have stored : after.database.contents.get? values.messageId
              = d.database.contents.get? values.messageId := content _ link
          show values.read place _ (after.database.contents.get? values.messageId)
            = values.read place _ (d.database.contents.get? values.messageId)
          rw [stored]
    rw [Option.mapM_some, Option.mapM_some, read]

instance : Displayed Store where
  linkAt_same {place d after} same := by
    have row : after.database.messages.get? place = d.database.messages.get? place :=
      congrArg Prod.fst same
    show (after.database.messages.get? place).bind _ = (d.database.messages.get? place).bind _
    rw [row]
  lookUp_none {place d} sound nothing fetch := by
    have complete := Mirror.requireRelations_of_complete (IsSound.complete sound)
    have none_there : d.database.messages.get? place = none := by
      refine Option.eq_none_iff_forall_ne_some.mpr fun row found => ?_
      obtain ⟨-, message, rfl⟩ := IsSound.encoded sound place row found
      have linked : (d.database.messages.get? place).bind (·.link place) = none := nothing
      rw [found, Option.bind_some, MessageRow.link_encode] at linked
      cases linked
    rw [lookUp_eq, complete, none_there]
    split <;> rfl
  lookUp_same sound sound' same content fetch :=
    lookUp_congr ((IsSound.complete sound').trans (IsSound.complete sound).symm) same content
  linksAt {place fetch row d} read := by
    rw [lookUp_eq] at read
    split at read
    · cases read
    obtain ⟨_, -, read⟩ := Outcomes.bind_eq_ok.mp read
    cases found : d.database.messages.get? place with
    | none =>
      rw [found] at read
      cases read
    | some stored =>
      rw [found, Option.mapM_some] at read
      obtain ⟨message, read, same⟩ := Outcomes.bind_eq_ok.mp read
      cases same
      rw [readEntry_eq] at read
      obtain ⟨values, typed, read⟩ := Outcomes.bind_eq_ok.mp read
      refine ⟨⟨values.messageId, (values.read place .empty none).toOption.isSome⟩, ?_,
        (MessageValues.of_read_eq_ok read).messageId_eq.symm⟩
      show (d.database.messages.get? place).bind _ = _
      rw [found, Option.bind_some, MessageRow.link, typed]
      rfl
  lookUp_counted {place d after} same fetch := by
    change after = { d with
      database := { d.database with counters := after.database.counters }
      isKeywordCompiled := after.isKeywordCompiled } at same
    rw [same]
    exact lookUp_congr rfl rfl fun _ _ => rfl

end Store

end Database

end Mailroom
