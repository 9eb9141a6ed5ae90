import Mailroom.Proofs.Changes.Purges
/-!
Runs of the same calls under different policies.

A policy decides when a record expires and nothing else that lasts: what is answered to a change
does not depend on it. So the same calls record the same changes under any policies and move the
heads alike (`Purged.run_sameUnder`), and only whether a record is still there tells the runs apart.
A read delivers records of changes that have lasted (`entry_of_live`); if all changes of an account
can be read, it delivers all of those (`allChanges_delivers_iff`).
-/

namespace Mailroom

open Service

/-! ### Calls that go on -/

section Runs

variable {σ : Type} [Storage σ] {account : AccountId}

/-- A change that some more purges come after. -/
def Change.purgedBy (purges : List Instant) (change : Change) : Change :=
  { change with purges := change.purges ++ purges }

/-- The changes of calls that go on are those of the first calls, which see the purges of the others
too, and those of the others. -/
theorem recordsOf_append (first rest : List (Policy × Call)) (store : σ) :
    recordsOf account (first ++ rest) store
      = (recordsOf account first store).map (fun entry =>
          (entry.1, entry.2.purgedBy (rest.filterMap fun step => step.2.purge?)))
        ++ recordsOf account rest (Call.runUnder first store) := by
  induction first generalizing store with
  | nil => rfl
  | cons step first ih =>
    obtain ⟨policy, call⟩ := step
    rw [List.cons_append, recordsOf_cons, recordsOf_cons, ih, List.filterMap_append,
      List.map_append, List.map_map, List.append_assoc]
    rfl

end Runs

/-- The same things, each under policies that are related. -/
def SameUnder {α : Type} (related : Policy → Policy → Prop) :
    List (Policy × α) → List (Policy × α) → Prop :=
  List.Forall₂ fun left right => related left.1 right.1 ∧ left.2 = right.2

namespace SameUnder

variable {α : Type} {related : Policy → Policy → Prop} {left right : List (Policy × α)}

theorem map_snd (same : SameUnder related left right) :
    left.map Prod.snd = right.map Prod.snd := by
  induction same with
  | nil => rfl
  | cons paired _ ih => rw [List.map_cons, List.map_cons, paired.2, ih]

theorem cons {policy policy' : Policy} (relates : related policy policy') (x : α)
    (same : SameUnder related left right) :
    SameUnder related ((policy, x) :: left) ((policy', x) :: right) :=
  List.Forall₂.cons ⟨relates, rfl⟩ same

theorem append (same : SameUnder related left right) {left' right' : List (Policy × α)}
    (same' : SameUnder related left' right') :
    SameUnder related (left ++ left') (right ++ right') :=
  List.rel_append same same'

theorem of_map {β : Type} (policy policy' : Policy) (xs : List β)
    (relates : related policy policy') :
    SameUnder related (xs.map (Prod.mk policy)) (xs.map (Prod.mk policy')) := by
  induction xs with
  | nil => exact .nil
  | cons x rest ih => exact ih.cons relates x

theorem refl (reflexive : ∀ policy, related policy policy) (xs : List (Policy × α)) :
    SameUnder related xs xs :=
  List.forall₂_same.mpr fun x _ => ⟨reflexive x.1, rfl⟩

/-- What is on one side is on the other one, under a related policy. -/
theorem exists_right (same : SameUnder related left right) {x : Policy × α} (member : x ∈ left) :
    ∃ policy, related x.1 policy ∧ (policy, x.2) ∈ right := by
  induction same with
  | nil => cases member
  | @cons y z rest rest' paired _ ih =>
    rcases List.mem_cons.mp member with rfl | later
    · exact ⟨z.1, paired.1, paired.2 ▸ List.mem_cons_self⟩
    · obtain ⟨policy, relates, present⟩ := ih later
      exact ⟨policy, relates, List.mem_cons_of_mem _ present⟩

theorem eq (same : SameUnder Eq left right) : left = right := by
  induction same with
  | nil => rfl
  | cons paired _ ih => rw [Prod.ext paired.1 paired.2, ih]

end SameUnder

/-! ### Changes under other policies -/

section Stores

variable {σ : Type} [Storage σ] [Sound σ] [Recorded σ] [Headed σ]

open Logged Headed Purged

/-- The latest state is the one that the head tells. -/
theorem Headed.latest_eq {store : σ} (sound : isSound store) (account : AccountId) :
    (log store).latest account = (headsOf store account).latest := by
  obtain ⟨found, read, latest⟩ := Logged.heads store sound account
  rw [told store sound account] at read
  cases read
  exact latest.symm

variable [Purged σ] {left right : σ} {account : AccountId}

/-- Under the same heads of an account a call records the same change of it, under any policy. -/
theorem Purged.change?_eq (sound : isSound left) (sound' : isSound right)
    (same : headsOf left account = headsOf right account) (policy policy' : Policy) (call : Call) :
    call.change? account (call.run policy left).1
      = call.change? account (call.run policy' right).1 := by
  by_cases isQuiet : call.IsQuiet
  · rw [Recorded.change?_of_quiet isQuiet, Recorded.change?_of_quiet isQuiet]
  cases call with
  | recordChange draft =>
    by_cases here : draft.account = account
    · subst here
      have answers : ((Call.recordChange draft).run policy left).1
          = ((Call.recordChange draft).run policy' right).1 :=
        appendChange_told draft _ _ left right sound sound' (by
          rw [latest_eq sound, latest_eq sound', same])
      rw [answers]
    · simp only [Call.change?, if_neg here]
      split <;> split <;> rfl
  | purgeExpired now => rfl
  | _ => exact absurd trivial isQuiet

variable [Revised σ] [PureReads σ]

/-- Under the same heads of an account, the same calls record the same changes of it and move its
heads alike, whatever their policies. -/
theorem Purged.run_sameUnder {related : Policy → Policy → Prop}
    {steps steps' : List (Policy × Call)} (calls : SameUnder related steps steps')
    (sound : isSound left) (sound' : isSound right)
    (same : headsOf left account = headsOf right account) :
    headsOf (Call.runUnder steps left) account = headsOf (Call.runUnder steps' right) account ∧
      SameUnder related (recordsOf account steps left) (recordsOf account steps' right) := by
  induction calls generalizing left right with
  | nil => exact ⟨same, .nil⟩
  | @cons step step' rest rest' paired others ih =>
    obtain ⟨policy, call⟩ := step
    obtain ⟨policy', _⟩ := step'
    obtain ⟨relates, rfl⟩ := paired
    have changes := change?_eq sound sound' same policy policy' call
    have heads : headsOf (call.run policy left).2 account
        = headsOf (call.run policy' right).2 account := by
      rw [headsOf_run sound, headsOf_run sound', changes, same]
    obtain ⟨latest, records⟩ := ih (Call.runAll_sound policy [call] sound)
      (Call.runAll_sound policy' [call] sound') heads
    have purges : rest.filterMap (fun step => step.2.purge?)
        = rest'.filterMap fun step => step.2.purge? := by
      have calls := congrArg (List.filterMap Call.purge?) (SameUnder.map_snd others)
      rwa [List.filterMap_map, List.filterMap_map] at calls
    refine ⟨latest, ?_⟩
    rw [recordsOf_cons, recordsOf_cons, changes, purges]
    refine SameUnder.append ?_ records
    cases call.change? account (call.run policy' right).1 with
    | none => exact .nil
    | some change => exact .cons relates _ .nil

end Stores

/-! ### Records that are delivered -/

/-- A read of the changes of an account delivered one of its records. -/
def Service.Call.Delivers (record : ChangeRecord) :
    (call : Call) → Except StoreError call.Answer → Prop
  | .allChanges account _, answer => account = record.account ∧
    ∃ scanned : Scanned ChangeRecord, answer = .ok scanned ∧ .ok record ∈ scanned.rows
  | .changesSince account _ _, answer => account = record.account ∧
    ∃ scanned : Scanned ChangeRecord, answer = .ok scanned ∧ .ok record ∈ scanned.rows
  | .changesSinceLimited account _ _ _, answer => account = record.account ∧
    ∃ page : ChangesPage, answer = .ok page ∧ record ∈ page.changes
  | _, _ => False

namespace Logged

variable {σ : Type} [Storage σ] [Sound σ] [Logged σ] [PureReads σ] {store : σ} {policy : Policy}
  {record : ChangeRecord}

/-- A read of at most some number of changes delivers live records. -/
theorem changesSinceLimited_row {account : AccountId} {since : State} {most : Nat} {now : Instant}
    {page : ChangesPage} (sound : isSound store) (room : (log store).latest account < maxWord)
    (done : ((Call.changesSinceLimited account since most now).run policy store).1 = .ok page)
    (member : record ∈ page.changes) :
    ∃ row ∈ (log store).live account since now, row.outcome = .ok record := by
  rcases ran : (Call.changesSinceLimited account since most now).run policy store with
    ⟨answer, left⟩
  rw [ran] at done
  cases done
  have ran : (changesFrom policy account since (some (min (most + 1) maxWord)) now >>= fun scan =>
        collected scan >>= fun changes =>
          pure (⟨changes.take most, most < changes.length⟩ : ChangesPage)) store
      = (.ok page, left) := ran
  obtain ⟨scan, middle, started, ran⟩ := Step.of_bind_eq_ok ran
  have same : middle = store := by
    have unchanged := (changesFrom_looks policy account since (some (min (most + 1) maxWord)) now
      store).1
    rwa [started] at unchanged
  rw [same] at started ran
  obtain ⟨-, delivered, -⟩ := changesFrom_delivers sound room started live_length_le
  obtain ⟨changes, after, collects, ran⟩ := Step.of_bind_eq_ok ran
  cases ran
  have decoded : (drain scan store).1.mapM id = .ok changes := congrArg Prod.fst collects
  obtain ⟨answer, given, answered⟩ := (Outcomes.mem_of_mapM_eq_ok decoded).1 record
    (List.mem_of_mem_take member)
  have answered : answer = .ok record := answered
  obtain ⟨row, among, read⟩ := delivered.exists_row (answered ▸ given)
  exact ⟨row, List.mem_of_mem_take among, read⟩

end Logged

namespace Recorded

open Logged Headed Purged

variable {σ : Type} [Storage σ] [Sound σ] [Recorded σ] [Headed σ] [Purged σ] [Revised σ]
  [PureReads σ] {start : σ} {record : ChangeRecord} {now : Instant}

section Steps

variable {steps : List (Policy × Call)} {account : AccountId} (blank : IsBlank start)
  (room : (log (Call.runUnder steps start)).latest account < maxWord)

include blank room

omit [Headed σ] [Purged σ]

/-- A live record is that of a change that has lasted. -/
theorem entry_of_live {since : State} {row : LogRow}
    (live : row ∈ (log (Call.runUnder steps start)).live account since now)
    (answered : row.outcome = .ok record) :
    ∃ entry ∈ recordsOf account steps start,
      lasts σ entry.1 [now] entry.2 = true ∧
        (shown σ entry.2.draft).record entry.2.state = record := by
  rw [live_of_records blank room] at live
  obtain ⟨entry, chosen, rfl⟩ := List.mem_map.mp live
  obtain ⟨chosen, lasted⟩ := List.mem_filter.mp chosen
  exact ⟨entry, (List.mem_filter.mp chosen).1, lasted, (outcome_kept _ _ _ _ answered).symm⟩

/-- If all changes of an account can be read, the records of those that have lasted are delivered.
-/
theorem allChanges_delivers_iff {policy : Policy}
    (readable : ∀ entry ∈ recordsOf account steps start,
      ∃ record, (row σ entry.1 entry.2).outcome = .ok record) :
    (Call.allChanges account now).Delivers record
        ((Call.allChanges account now).run policy (Call.runUnder steps start)).1 ↔
      account = record.account ∧ ∃ entry ∈ recordsOf account steps start,
        lasts σ entry.1 [now] entry.2 = true ∧
          (shown σ entry.2.draft).record entry.2.state = record := by
  have sound := runUnder_sound blank.sound steps
  refine and_congr_right fun _ => ⟨fun delivers => ?_, fun present => ⟨_, rfl, ?_⟩⟩
  · obtain ⟨scanned, done, member⟩ := delivers
    obtain ⟨row, live, answered⟩ := (allChanges_delivered sound room done).exists_row member
    exact entry_of_live blank room live answered
  · obtain ⟨entry, member, lasted, same⟩ := present
    rw [(allChanges_delivered sound room rfl).eq_of_decoded
      (readable_of_records blank room readable now)]
    exact List.mem_map_of_mem
      (List.mem_map.mpr ⟨entry, List.mem_filter.mpr ⟨member, lasted⟩, same⟩)

end Steps

/-- If all changes of an account can be read, a record that is delivered is delivered as well after
the same calls under policies by which it lasts longer. -/
theorem allChanges_keptLonger (blank : IsBlank start) {account : AccountId}
    {related : Policy → Policy → Prop} {steps steps' : List (Policy × Call)}
    (calls : SameUnder related steps steps')
    (room : (log (Call.runUnder steps start)).latest account < maxWord)
    (readable : ∀ entry ∈ recordsOf account steps' start,
      ∃ record, (row σ entry.1 entry.2).outcome = .ok record)
    (mono : ∀ policy longer change, related policy longer →
      lasts σ policy [now] change = true → lasts σ longer [now] change = true) {policy : Policy}
    (delivers : (Call.allChanges account now).Delivers record
      ((Call.allChanges account now).run policy (Call.runUnder steps start)).1) :
    (Call.allChanges account now).Delivers record
      ((Call.allChanges account now).run policy (Call.runUnder steps' start)).1 := by
  have sound := runUnder_sound blank.sound steps
  obtain ⟨heads, records⟩ :=
    Purged.run_sameUnder calls blank.sound blank.sound (rfl : headsOf start account = _)
  have room' : (log (Call.runUnder steps' start)).latest account < maxWord := by
    rw [Headed.latest_eq (runUnder_sound blank.sound steps'), ← heads, ← Headed.latest_eq sound]
    exact room
  obtain ⟨same, scanned, done, member⟩ := delivers
  obtain ⟨row, live, answered⟩ := (allChanges_delivered sound room done).exists_row member
  obtain ⟨entry, present, lasted, recorded⟩ := entry_of_live blank room live answered
  obtain ⟨longer, relates, present'⟩ := records.exists_right present
  exact (allChanges_delivers_iff blank room' readable).mpr ⟨same, _, present',
    mono _ _ _ relates lasted, recorded⟩

end Recorded

end Mailroom
