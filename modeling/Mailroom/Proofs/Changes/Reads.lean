import Mailroom.Proofs.Effects
import Mailroom.Proofs.Paging
/-!
Reads of change logs.

The `LogView` of a store holds, for each account, its latest state and its records in the order of
their states. `Logged` says that a store shows its logs as they stand in the view. What such a store
delivers to a read are the records of the account that are live, from a state on
(`allChanges_delivered`, `changesSince_delivered`).
-/

namespace Mailroom

/-- The next state is one that can be given out. -/
theorem State.next_bounds (state : State) : 1 ≤ state.next ∧ state ≤ state.next := by
  unfold State.next
  split
  · exact ⟨Nat.succ_le_succ (Nat.zero_le _), Nat.le_succ _⟩
  · rename_i last
    exact ⟨Nat.le_trans (by decide) (Nat.not_lt.mp last), Nat.le_refl _⟩

theorem State.next_le (state : State) : state.next ≤ state + 1 := by
  unfold State.next
  split
  · exact Nat.le_refl _
  · exact Nat.le_succ _

/-- A record as it is kept. -/
structure LogRow where
  state : State
  isLive : Instant → Bool
  /-- What is read of it. -/
  outcome : Except StoreError ChangeRecord

/-- The change logs of a store. -/
structure LogView where
  latest : AccountId → State
  rows : AccountId → List LogRow

namespace LogView

variable {v : LogView} {account : AccountId} {since : State} {now : Instant}

/-- The live records of an account from a state on. -/
def live (v : LogView) (account : AccountId) (since : State) (now : Instant) : List LogRow :=
  (v.rows account).filter fun row => since ≤ row.state && row.isLive now

/-- What a page shows. -/
def page (v : LogView) (request : ChangePageRequest) : Except StoreError (List ChangeRecord) :=
  ((v.live request.account ((request.after.map State.next).getD request.lower) request.now).take
    request.limit).mapM LogRow.outcome

/-- The records of an account have states up to the latest one, in ascending order. -/
structure IsOrdered (v : LogView) : Prop where
  ascending : ∀ account, (v.rows account).Pairwise fun row later => row.state < later.state
  bounded : ∀ account, ∀ row ∈ v.rows account, 1 ≤ row.state ∧ row.state ≤ v.latest account
  states : ∀ account, ∀ row ∈ v.rows account, ∀ record, row.outcome = .ok record →
    record.state = row.state

theorem mem_live {row : LogRow} : row ∈ v.live account since now ↔
    row ∈ v.rows account ∧ since ≤ row.state ∧ row.isLive now = true := by
  rw [live, List.mem_filter, Bool.and_eq_true, decide_eq_true_eq]

theorem live_ascending (ordered : v.IsOrdered) :
    (v.live account since now).Pairwise fun row later => row.state < later.state :=
  (ordered.ascending account).filter _

/-- The live records after one of them. -/
theorem live_next (ordered : v.IsOrdered) {before after : List LogRow} {row : LogRow}
    (split : v.live account since now = before ++ row :: after) (room : row.state < maxWord) :
    v.live account row.state.next now = after := by
  have next : row.state.next = row.state + 1 := if_pos room
  have ascending := (ordered.ascending account).filter fun row => row.isLive now
  rw [live, ← List.filter_filter] at split ⊢
  rw [next]
  exact filter_past_of_from LogRow.state ascending split

end LogView

/-- A store that shows its change logs as they stand in a view. -/
class Logged (σ : Type) [Storage σ] [Sound σ] where
  log : σ → LogView
  ordered : ∀ store, isSound store → (log store).IsOrdered
  heads : ∀ store, isSound store → ∀ account, ∃ heads,
    Storage.heads account store = (.ok heads, store) ∧ heads.latest = (log store).latest account
  changesPage : ∀ store, isSound store → ∀ request,
    Storage.changesPage request store = ((log store).page request, store)
  extent : ∀ store account, ((log store).rows account).length ≤ Storage.extent store

namespace Logged

open Service

variable {σ : Type} [Storage σ] [Sound σ] [Logged σ] {store : σ} {policy : Policy}
  {account : AccountId}
  {since : State} {now : Instant} {scanned : Scanned ChangeRecord}

/-- The records of an account are served in order, unless the states have run out. -/
theorem changeSource_serves (sound : isSound store)
    (room : (log store).latest account < maxWord) (since : State) (now : Instant) :
    (changeSource account since now : Source σ State ChangeRecord).Serves store
      ((log store).live account since now) LogRow.state LogRow.outcome where
  first limit := changesPage store sound _
  later before row after limit split := by
    have member : row ∈ (log store).live account since now := by
      rw [split]
      exact List.mem_append_right _ List.mem_cons_self
    have bounded := (ordered store sound).bounded account row (LogView.mem_live.mp member).1
    rw [← LogView.live_next (ordered store sound) split (Nat.lt_of_le_of_lt bounded.2 room)]
    exact changesPage store sound _
  keeps row member record decoded :=
    (ordered store sound).states account row (LogView.mem_live.mp member).1 record decoded

theorem live_length_le : ((log store).live account since now).length ≤ Storage.extent store :=
  Nat.le_trans (List.length_filter_le _ _) (extent store account)

/-- A read of all records delivers those that are live. -/
theorem allChanges_delivered (sound : isSound store) (room : (log store).latest account < maxWord)
    (done : ((Call.allChanges account now).run policy store).1 = .ok scanned) :
    Delivered LogRow.outcome ((log store).live account .initial now) scanned.rows := by
  cases done
  exact ((Paging.holds_start policy.batch none).delivers
    (changeSource_serves sound room .initial now) live_length_le).1

omit [Storage σ] [Sound σ] [Logged σ] in
/-- A read whose first page was fetched holds that page. -/
theorem primed_ok {scan scan' : Scan σ State ChangeRecord} {left : σ}
    (done : primed scan store = (.ok scan', left)) :
    scan.paging.prime scan.source store = (.ok (), scan'.paging, left) ∧
      scan'.source = scan.source := by
  unfold primed Scan.prime at done
  rcases fetched : scan.paging.prime scan.source store with ⟨_ | _, paging, after⟩
  · rw [fetched] at done
    cases done
  · rw [fetched] at done
    cases done
    exact ⟨rfl, rfl⟩

/-- A read from a state on that was started holds the live records that it has fetched. An account
without records has none from the initial state on. -/
theorem changesFrom_holds (sound : isSound store) (room : (log store).latest account < maxWord)
    {limit : Option Nat} {scan : Scan σ State ChangeRecord} {left : σ}
    (started : changesFrom policy account since limit now store = (.ok scan, left)) :
    since ≤ (log store).latest account ∧ ∃ before ahead,
      scan.paging.Holds LogRow.state LogRow.outcome limit ((log store).live account since now)
        before ahead := by
  obtain ⟨found, read, latest⟩ := heads store sound account
  unfold changesFrom at started
  rw [Step.bind_of_ok read] at started
  simp only [latest] at started
  split at started
  · cases started
  rename_i reached
  refine ⟨Nat.not_lt.mp reached, ?_⟩
  split at started
  · rename_i untouched
    cases started
    have none_live : (log store).live account since now = [] := by
      refine List.filter_eq_nil_iff.mpr fun row member => ?_
      have bounded := (ordered store sound).bounded account row member
      rw [untouched.2] at bounded
      exact absurd (Nat.le_trans bounded.1 bounded.2) (by decide)
    rw [none_live]
    exact ⟨[], [], rfl, Paging.stands_start policy.batch (some 0), rfl, by simp⟩
  · rcases done : primed (Scan.start (changeSource account since now) policy.batch limit) store with
      ⟨_ | scan', after⟩
    · rw [Step.bind_of_error done] at started
      cases started
    rw [Step.bind_of_ok done] at started
    generalize (if since = State.initial then since.next else since) = boundary at started
    split at started
    · cases started
      exact Paging.prime_holds (changeSource_serves sound room since now) (primed_ok done).1
    · cases started

/-- A read from a state on that was started delivers the live records up to its limit, and is over
in the end. -/
theorem changesFrom_delivers [PureReads σ] (sound : isSound store)
    (room : (log store).latest account < maxWord) {limit : Option Nat}
    {scan : Scan σ State ChangeRecord} {left : σ}
    (started : changesFrom policy account since limit now store = (.ok scan, left)) {pages : Nat}
    (enough : ((log store).live account since now).length ≤ pages) :
    since ≤ (log store).latest account ∧
      Delivered LogRow.outcome (cut limit ((log store).live account since now))
        (scan.rest pages store).1 ∧
      (((log store).live account since now).length < pages →
        (scan.rest pages store).2.1.paging.finished = true) ∧
      (scan.rest pages store).2.2 = store := by
  have reads : scan.source = changeSource account since now :=
    (changesFrom_looks policy account since limit now store).2 scan left started
  obtain ⟨reached, before, ahead, holds⟩ := changesFrom_holds sound room started
  have serves := changeSource_serves sound room since now
  rw [← reads] at serves
  exact ⟨reached, holds.delivers serves enough⟩

/-- A read from a state on delivers the live records from that state on. -/
theorem changesSince_delivered [PureReads σ] (sound : isSound store)
    (room : (log store).latest account < maxWord)
    (done : ((Call.changesSince account since now).run policy store).1 = .ok scanned) :
    since ≤ (log store).latest account ∧
      Delivered LogRow.outcome ((log store).live account since now) scanned.rows := by
  have done : ((changesFrom policy account since none now >>= Call.drained) store).1
    = .ok scanned := done
  have unchanged := (changesFrom_looks policy account since none now store).1
  rcases started : changesFrom policy account since none now store with ⟨_ | scan, left⟩
  · rw [Step.bind_of_error started] at done
    cases done
  have same : left = store := by rwa [started] at unchanged
  subst same
  rw [Step.bind_of_ok started] at done
  obtain ⟨reached, delivered, -⟩ := changesFrom_delivers sound room started live_length_le
  cases done
  exact ⟨reached, delivered⟩

end Logged

end Mailroom
