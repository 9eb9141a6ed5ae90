import Mailroom.Paging
import Mailroom.Proofs.Outcomes
/-!
Reads of rows that do not change while they are read.

`Source.Serves` says that a source returns the rows of a list after a cursor, each as far as it can
be decoded. What a read of such a source delivers is `Delivered`: every row if all of them can be
decoded, and otherwise some rows from the front and then an error.

`Paging.Stands` places a read between the rows that it has fetched and those that lie ahead, of
which it wants the first up to its limit. Each page takes it further (`Stands.nextPage_of_ok`), so
the read delivers what it wants (`Stands.rest_delivers`) and is over once more pages could be
fetched than rows are wanted. More pages change nothing after that (`rest_settled`). A read that was
started, and whose first page may have been fetched, `Holds` what it has not delivered.
-/

namespace Mailroom

variable {σ κ τ ρ : Type}

/-! ### Lists that are read -/

/-- The first elements of a list, if they are limited. -/
def cut {α : Type} (limit : Option Nat) (xs : List α) : List α :=
  match limit with
  | some limit => xs.take limit
  | none => xs

theorem map_cut {α β : Type} {limit : Option Nat} {xs : List α} {f : α → β} :
    (cut limit xs).map f = cut limit (xs.map f) := by
  cases limit with
  | none => rfl
  | some limit => exact List.map_take

@[simp] theorem cut_nil {α : Type} {limit : Option Nat} : cut limit ([] : List α) = [] := by
  cases limit with
  | none => rfl
  | some limit => exact List.take_nil

theorem length_cut_le {α : Type} {limit : Option Nat} {xs : List α} :
    (cut limit xs).length ≤ xs.length := by
  cases limit with
  | none => exact Nat.le_refl _
  | some limit => exact List.length_take_le' _ _

theorem mem_of_mem_cut {α : Type} {limit : Option Nat} {xs : List α} {x : α}
    (member : x ∈ cut limit xs) : x ∈ xs := by
  cases limit with
  | none => exact member
  | some limit => exact List.mem_of_mem_take member

/-- The rows of an ascending list past one of them are those that come after it. -/
theorem filter_past (key : ρ → Nat) {before after : List ρ} {row : ρ}
    (ascending : (before ++ row :: after).Pairwise fun a b => key a < key b) :
    (before ++ row :: after).filter (fun other => decide (key row < key other)) = after := by
  obtain ⟨-, rest, crossing⟩ := List.pairwise_append.mp ascending
  obtain ⟨beyond, -⟩ := List.pairwise_cons.mp rest
  have none_before : before.filter (fun other => decide (key row < key other)) = [] := by
    rw [List.filter_eq_nil_iff]
    intro other member
    have below := crossing other member row List.mem_cons_self
    rw [decide_eq_true_eq]
    omega
  have all_after : after.filter (fun other => decide (key row < key other)) = after :=
    List.filter_eq_self.mpr fun other member => decide_eq_true (beyond other member)
  rw [List.filter_append, none_before, List.nil_append, List.filter_cons, if_neg (by simp),
    all_after]

/-- The same for the rows from a key on. -/
theorem filter_past_of_from (key : ρ → Nat) {rows before after : List ρ} {row : ρ} {first : Nat}
    (ascending : rows.Pairwise fun a b => key a < key b)
    (split : rows.filter (fun other => decide (first ≤ key other)) = before ++ row :: after) :
    rows.filter (fun other => decide (key row < key other)) = after := by
  have member : row ∈ rows.filter fun other => decide (first ≤ key other) := by
    rw [split]
    exact List.mem_append_right _ List.mem_cons_self
  have reached : first ≤ key row := of_decide_eq_true (List.mem_filter.mp member).2
  have later : rows.filter (fun other => decide (key row < key other))
      = (rows.filter fun other => decide (first ≤ key other)).filter
          fun other => decide (key row < key other) := by
    rw [List.filter_filter]
    refine List.filter_congr fun other _ => ?_
    rw [Bool.eq_iff_iff]
    simp only [Bool.and_eq_true, decide_eq_true_eq]
    omega
  rw [later, split]
  exact filter_past key (split ▸ ascending.filter _)

/-- A source that returns the rows of a list after a cursor. -/
structure Source.Serves (source : Source σ κ τ) (store : σ) (rows : List ρ) (key : ρ → κ)
    (decode : ρ → Except StoreError τ) : Prop where
  first : ∀ limit, source.fetch none limit store = ((rows.take limit).mapM decode, store)
  later : ∀ before row after limit, rows = before ++ row :: after →
    source.fetch (some (key row)) limit store = ((after.take limit).mapM decode, store)
  keeps : ∀ row ∈ rows, ∀ answer, decode row = .ok answer → source.key answer = key row

/-- What a read delivers of some rows: all of them, or some from the front, and then an
error, because a later one cannot be decoded. -/
inductive Delivered (decode : ρ → Except StoreError τ) (rows : List ρ) :
    List (Except StoreError τ) → Prop where
  | all {answers : List τ} (decoded : rows.mapM decode = .ok answers) :
    Delivered decode rows (answers.map .ok)
  | part (front back : List ρ) {answers : List τ} {e : StoreError} (split : rows = front ++ back)
    (decoded : front.mapM decode = .ok answers)
    (fails : ∃ row ∈ back, ∀ answer, decode row ≠ .ok answer) :
    Delivered decode rows (answers.map .ok ++ [.error e])

/-- Rows that can all be decoded are all that is delivered. -/
theorem Delivered.eq_of_decoded {decode : ρ → Except StoreError τ} {rows : List ρ}
    {delivered : List (Except StoreError τ)} (isDelivered : Delivered decode rows delivered)
    {answers : List τ} (decoded : rows.mapM decode = .ok answers) :
    delivered = answers.map .ok := by
  cases isDelivered with
  | all decoded' =>
    rw [decoded] at decoded'
    cases decoded'
    rfl
  | part front back split _ fails =>
    obtain ⟨row, member, fails⟩ := fails
    have present : row ∈ rows := by
      rw [split]
      exact List.mem_append_right _ member
    obtain ⟨answer, -, answered⟩ := (Outcomes.mem_of_mapM_eq_ok decoded).2 row present
    exact absurd answered (fails answer)

/-- An answer that is delivered is read of one of the rows. -/
theorem Delivered.exists_row {decode : ρ → Except StoreError τ} {rows : List ρ}
    {delivered : List (Except StoreError τ)} (isDelivered : Delivered decode rows delivered)
    {answer : τ} (member : .ok answer ∈ delivered) : ∃ row ∈ rows, decode row = .ok answer := by
  cases isDelivered with
  | all decoded =>
    obtain ⟨_, found, same⟩ := List.mem_map.mp member
    cases same
    exact (Outcomes.mem_of_mapM_eq_ok decoded).1 answer found
  | part front back split decoded _ =>
    rcases List.mem_append.mp member with found | found
    · obtain ⟨_, found, same⟩ := List.mem_map.mp found
      cases same
      obtain ⟨row, inFront, answered⟩ := (Outcomes.mem_of_mapM_eq_ok decoded).1 answer found
      exact ⟨row, split ▸ List.mem_append_left _ inFront, answered⟩
    · cases List.mem_singleton.mp found

/-- Rows that can be decoded are delivered before others. -/
theorem Delivered.append {decode : ρ → Except StoreError τ} {rows held : List ρ}
    {delivered : List (Except StoreError τ)} (later : Delivered decode rows delivered)
    {buffer : List τ} (holds : held.mapM decode = .ok buffer) :
    Delivered decode (held ++ rows) (buffer.map .ok ++ delivered) := by
  cases later with
  | all decoded =>
    rw [← List.map_append]
    exact .all (Outcomes.mapM_append_eq_ok.mpr ⟨_, _, holds, decoded, rfl⟩)
  | part front back split decoded fails =>
    rw [← List.append_assoc, ← List.map_append]
    refine .part (held ++ front) back ?_
      (Outcomes.mapM_append_eq_ok.mpr ⟨_, _, holds, decoded, rfl⟩) fails
    rw [split, List.append_assoc]

namespace Paging

variable {source : Source σ κ τ} {store : σ} {rows before ahead after : List ρ} {key : ρ → κ}
  {decode : ρ → Except StoreError τ} {paging : Paging κ τ} {answers : List τ} {e : StoreError}

/-! ### Reads that are over -/

/-- A read that is over has no next page. -/
theorem nextPage_of_finished (finished : paging.finished = true) :
    paging.nextPage source store = (none, paging, store) := if_pos finished

/-- A read that is over hands out its buffer. -/
theorem rest_of_finished (finished : paging.finished = true) (pages : Nat) :
    paging.rest source pages store
      = (paging.buffer.map .ok, { paging with buffer := [] }, store) := by
  cases pages with
  | zero => rfl
  | succ pages =>
    have ended : ({ paging with buffer := [] } : Paging κ τ).finished = true := finished
    rw [rest, nextPage_of_finished ended]

/-- A read that is over and holds nothing delivers nothing. -/
theorem rest_of_over (finished : paging.finished = true) (empty : paging.buffer = [])
    (pages : Nat) : (paging.rest source pages store).1 = [] := by
  rw [rest_of_finished finished, empty]
  rfl

/-- A read that is over after some pages is the same after more of them. -/
theorem rest_settled {pages : Nat} (ended : (paging.rest source pages store).2.1.finished = true)
    {more : Nat} (atLeast : pages ≤ more) :
    paging.rest source more store = paging.rest source pages store := by
  induction pages generalizing paging store more with
  | zero =>
    have finished : paging.finished = true := ended
    rw [rest_of_finished finished]
    rfl
  | succ pages ih =>
    obtain ⟨more, rfl⟩ : ∃ less, more = less + 1 := ⟨more - 1, by omega⟩
    rw [rest] at ended
    rw [rest, rest]
    rcases fetched : ({ paging with buffer := [] } : Paging κ τ).nextPage source store with
      ⟨_ | (e | page), next, left⟩
    · rfl
    · rfl
    · rw [fetched] at ended
      simp only [ih ended (Nat.le_of_succ_le_succ atLeast)]

theorem rest_eq_of_ended {rows : List (Except StoreError τ)} {ended : Paging κ τ} {left : σ}
    {pages more : Nat} (ran : paging.rest source pages store = (rows, ended, left))
    (isOver : ended.finished = true) (atLeast : pages ≤ more) :
    paging.rest source more store = (rows, ended, left) := by
  rw [← ran]
  refine rest_settled ?_ atLeast
  rw [ran]
  exact isOver

/-- A read that is over and holds nothing stays as it is when it is asked for a row. -/
theorem next_eq_of_over (finished : paging.finished = true) (empty : paging.buffer = []) :
    paging.next source store = (none, paging, store) := by
  unfold next
  rw [empty, nextPage_of_finished finished]

/-- A read that is over and holds nothing has no next row. -/
theorem next_of_over (finished : paging.finished = true) (empty : paging.buffer = []) :
    (paging.next source store).1 = none := by
  rw [next_eq_of_over finished empty]

/-- A read that was run holds nothing. -/
theorem rest_buffer (pages : Nat) : (paging.rest source pages store).2.1.buffer = [] := by
  induction pages generalizing paging store with
  | zero => rfl
  | succ pages ih =>
    have kept : (({ paging with buffer := [] } : Paging κ τ).nextPage source store).2.1.buffer
        = [] := by
      unfold nextPage
      split
      · rfl
      · split <;> rfl
    rw [rest]
    rcases fetched : ({ paging with buffer := [] } : Paging κ τ).nextPage source store with
      ⟨_ | (e | page), next, left⟩
    · rwa [fetched] at kept
    · rwa [fetched] at kept
    · exact ih

/-! ### Reads under way -/

/-- A read stands between the rows that were fetched and those that lie ahead. -/
structure Stands (paging : Paging κ τ) (key : ρ → κ) (before ahead : List ρ) : Prop where
  batch_pos : 0 < paging.batch
  cursor : paging.cursor = before.getLast?.map key
  /-- A read of which no row is wanted any more is over. -/
  wants : paging.finished = false → paging.remaining ≠ some 0
  /-- A read is over when there is no row ahead that is wanted. -/
  nothing_left : paging.finished = true → cut paging.remaining ahead = []

theorem stands_start (batch : Nat) (limit : Option Nat) :
    (start batch limit : Paging κ τ).Stands key [] rows where
  batch_pos := Nat.lt_of_lt_of_le Nat.zero_lt_one (Nat.le_max_right _ _)
  cursor := rfl
  wants unfinished none_wanted := by
    change (limit == some 0) = false at unfinished
    rw [show limit = some 0 from none_wanted] at unfinished
    cases unfinished
  nothing_left finished := by
    change (limit == some 0) = true at finished
    rw [show (start batch limit : Paging κ τ).remaining = some 0 from eq_of_beq finished]
    rfl

namespace Stands

/-- What is in the buffer does not matter to what is still to be fetched. -/
theorem buffered (stands : paging.Stands key before ahead) (buffer : List τ) :
    { paging with buffer }.Stands key before ahead :=
  ⟨stands.batch_pos, stands.cursor, stands.wants, stands.nothing_left⟩

theorem pageSize_pos (stands : paging.Stands key before ahead)
    (unfinished : paging.finished = false) : 0 < paging.pageSize := by
  have batch_pos := stands.batch_pos
  have wants := stands.wants unfinished
  unfold pageSize
  split
  · rename_i remaining wanted
    have : remaining ≠ 0 := fun zero => wants (zero ▸ wanted)
    omega
  · exact batch_pos

theorem fetch_eq (serves : source.Serves store rows key decode) (split : rows = before ++ ahead)
    (stands : paging.Stands key before ahead) :
    source.fetch paging.cursor paging.pageSize store
      = ((ahead.take paging.pageSize).mapM decode, store) := by
  rw [stands.cursor]
  rcases List.eq_nil_or_concat before with rfl | ⟨init, row, rfl⟩
  · rw [List.nil_append] at split
    exact split ▸ serves.first paging.pageSize
  · rw [List.concat_eq_append, List.getLast?_concat]
    refine serves.later init row ahead paging.pageSize ?_
    rw [split, List.concat_eq_append, List.append_assoc]
    rfl

end Stands

/-- The rows that are wanted are those of the next page and those that are wanted after it. -/
theorem cut_eq_append (paging : Paging κ τ) (ahead : List ρ) :
    cut paging.remaining ahead = ahead.take paging.pageSize
      ++ cut (paging.remaining.map (· - (ahead.take paging.pageSize).length))
        (ahead.drop paging.pageSize) := by
  cases wanted : paging.remaining with
  | none => exact (List.take_append_drop _ _).symm
  | some remaining =>
    have within : paging.pageSize ≤ remaining := by
      unfold pageSize
      rw [wanted]
      exact Nat.min_le_left _ _
    show ahead.take remaining = _ ++ (ahead.drop paging.pageSize).take _
    by_cases full : paging.pageSize ≤ ahead.length
    · rw [List.length_take_of_le full, ← List.take_add, Nat.add_sub_cancel' within]
    · have short : ahead.length ≤ paging.pageSize := Nat.le_of_not_le full
      rw [List.drop_of_length_le short, List.take_nil, List.append_nil,
        List.take_of_length_le short, List.take_of_length_le (Nat.le_trans short within)]

/-- After a page, the rows that are wanted are the others. -/
theorem cut_advance (keyOf : τ → κ)
    (length : answers.length = (ahead.take paging.pageSize).length) :
    cut paging.remaining ahead = ahead.take paging.pageSize
      ++ cut (paging.advance keyOf answers).remaining (ahead.drop paging.pageSize) := by
  rw [cut_eq_append, ← length]
  rfl

namespace Stands

/-- A page whose rows can be decoded takes the read past them. -/
theorem nextPage_of_ok (serves : source.Serves store rows key decode)
    (split : rows = before ++ ahead) (stands : paging.Stands key before ahead)
    (unfinished : paging.finished = false)
    (decoded : (ahead.take paging.pageSize).mapM decode = .ok answers) :
    paging.nextPage source store = (some (.ok answers), paging.advance source.key answers, store) ∧
      (paging.advance source.key answers).Stands key (before ++ ahead.take paging.pageSize)
        (ahead.drop paging.pageSize) := by
  have length := Outcomes.length_of_mapM_eq_ok decoded
  have short : answers.take paging.pageSize = answers := by
    refine List.take_of_length_le ?_
    rw [length]
    exact List.length_take_le _ _
  have keys : answers.map source.key = (ahead.take paging.pageSize).map key := by
    refine Outcomes.map_of_mapM_eq_ok (fun row member => serves.keeps row ?_) decoded
    rw [split]
    exact List.mem_append_right _ (List.mem_of_mem_take member)
  constructor
  · unfold nextPage
    rw [if_neg (by rw [unfinished]; decide), stands.fetch_eq serves split, decoded]
    simp only [short]
  constructor
  · exact stands.batch_pos
  · show (answers.getLast?.map source.key).or paging.cursor = _
    rw [← List.getLast?_map, keys, List.getLast?_map, List.getLast?_append, stands.cursor]
    cases (ahead.take paging.pageSize).getLast? <;> rfl
  · intro unfinished none_wanted
    have unfinished : (decide (answers.length < paging.pageSize)
        || (paging.remaining.map (· - answers.length)) == some 0) = false := unfinished
    rw [show paging.remaining.map (· - answers.length) = some 0 from none_wanted] at unfinished
    simp at unfinished
  · intro finished
    have finished : (decide (answers.length < paging.pageSize)
        || (paging.remaining.map (· - answers.length)) == some 0) = true := finished
    show cut (paging.remaining.map (· - answers.length)) _ = []
    rcases Bool.or_eq_true_iff.mp finished with isShort | none_wanted
    · have isShort := of_decide_eq_true isShort
      rw [length, List.length_take] at isShort
      rw [List.drop_of_length_le (by omega), cut_nil]
    · rw [eq_of_beq none_wanted]
      rfl

theorem nextPage_of_error (serves : source.Serves store rows key decode)
    (split : rows = before ++ ahead) (stands : paging.Stands key before ahead)
    (unfinished : paging.finished = false)
    (fails : (ahead.take paging.pageSize).mapM decode = .error e) :
    paging.nextPage source store = (some (.error e), { paging with finished := true }, store) := by
  unfold nextPage
  rw [if_neg (by rw [unfinished]; decide), stands.fetch_eq serves split, fails]

/-- A page is the last one, or it leaves less to want. -/
theorem advance_wants (stands : paging.Stands key before ahead)
    (unfinished : paging.finished = false) (keyOf : τ → κ)
    (length : answers.length = (ahead.take paging.pageSize).length) :
    (paging.advance keyOf answers).finished = true ∨
      (cut (paging.advance keyOf answers).remaining (ahead.drop paging.pageSize)).length
        < (cut paging.remaining ahead).length := by
  rcases Nat.eq_zero_or_pos answers.length with isEmpty | positive
  · left
    have isShort : answers.length < paging.pageSize := by
      rw [isEmpty]
      exact stands.pageSize_pos unfinished
    show (decide (answers.length < paging.pageSize) || _) = true
    rw [decide_eq_true isShort, Bool.true_or]
  · right
    rw [cut_advance keyOf length, List.length_append, ← length]
    exact Nat.lt_add_of_pos_left positive

/-- A row that is wanted but cannot be decoded is the end of a read. -/
theorem delivered_of_error (fails : (ahead.take paging.pageSize).mapM decode = .error e) :
    Delivered decode (cut paging.remaining ahead) [.error e] := by
  obtain ⟨row, member, fails⟩ := Outcomes.exists_of_mapM_eq_error fails
  have wanted : row ∈ cut paging.remaining ahead := by
    rw [cut_eq_append]
    exact List.mem_append_left _ member
  refine .part [] _ (List.nil_append _).symm rfl ⟨row, wanted, fun answer decoded => ?_⟩
  rw [fails] at decoded
  cases decoded

/-- A read delivers the rows that it holds and those that it wants, if as many pages may be fetched
as it wants rows, and is over in the end if it was before or more of them may be. -/
theorem rest_delivers (serves : source.Serves store rows key decode)
    (split : rows = before ++ ahead) (stands : paging.Stands key before ahead) (held : List ρ)
    (holds : held.mapM decode = .ok paging.buffer) {pages : Nat}
    (enough : (cut paging.remaining ahead).length ≤ pages) :
    Delivered decode (held ++ cut paging.remaining ahead) (paging.rest source pages store).1 ∧
      (paging.finished = true ∨ (cut paging.remaining ahead).length < pages →
        (paging.rest source pages store).2.1.finished = true) ∧
      (paging.rest source pages store).2.2 = store := by
  induction pages generalizing paging before ahead held with
  | zero =>
    rw [List.length_eq_zero_iff.mp (Nat.le_zero.mp enough), List.append_nil]
    exact ⟨.all holds, fun goesOn => goesOn.resolve_right (Nat.not_lt_zero _), rfl⟩
  | succ pages ih =>
    cases finished : paging.finished with
    | true =>
      rw [rest_of_finished finished, stands.nothing_left finished, List.append_nil]
      exact ⟨.all holds, fun _ => finished, rfl⟩
    | false =>
      cases first : (ahead.take paging.pageSize).mapM decode with
      | error e =>
        have fetched := (stands.buffered []).nextPage_of_error serves split finished first
        rw [rest, fetched]
        exact ⟨(delivered_of_error first).append holds, fun _ => rfl, rfl⟩
      | ok page =>
        obtain ⟨fetched, reached⟩ :=
          (stands.buffered []).nextPage_of_ok serves split finished first
        have length := Outcomes.length_of_mapM_eq_ok first
        have split' : rows
            = before ++ ahead.take paging.pageSize ++ ahead.drop paging.pageSize := by
          rw [List.append_assoc, List.take_append_drop, split]
        have wants := stands.advance_wants finished source.key length
        have enough' : (cut (paging.advance source.key page).remaining
            (ahead.drop paging.pageSize)).length ≤ pages := by
          rcases wants with isLast | less
          · have nothing : cut (paging.advance source.key page).remaining
                (ahead.drop paging.pageSize) = [] := reached.nothing_left isLast
            rw [nothing]
            exact Nat.zero_le _
          · exact Nat.le_of_lt_succ (Nat.lt_of_lt_of_le less enough)
        obtain ⟨others, ends, same⟩ := ih split' (reached.buffered page) _ first enough'
        rw [rest, fetched]
        refine ⟨?_, fun goesOn => ends (wants.imp_right fun less => ?_), same⟩
        · rw [cut_advance source.key length]
          exact others.append holds
        · have within := goesOn.resolve_left (by decide)
          exact Nat.lt_of_lt_of_le less (Nat.le_of_lt_succ within)

end Stands

/-! ### Reads that have delivered nothing yet -/

/-- A read of rows up to a limit that has delivered nothing holds the rows that it has fetched. -/
structure Holds (paging : Paging κ τ) (key : ρ → κ) (decode : ρ → Except StoreError τ)
    (limit : Option Nat) (rows before ahead : List ρ) : Prop where
  split : rows = before ++ ahead
  stands : paging.Stands key before ahead
  held : before.mapM decode = .ok paging.buffer
  wanted : cut limit rows = before ++ cut paging.remaining ahead

theorem holds_start (batch : Nat) (limit : Option Nat) :
    (start batch limit : Paging κ τ).Holds key decode limit rows [] rows :=
  ⟨rfl, stands_start batch limit, rfl, rfl⟩

/-- Such a read delivers the rows up to its limit, if as many pages may be fetched as there are
rows, and is over in the end if more of them may be. -/
theorem Holds.delivers {limit : Option Nat} (serves : source.Serves store rows key decode)
    (holds : paging.Holds key decode limit rows before ahead) {pages : Nat}
    (enough : rows.length ≤ pages) :
    Delivered decode (cut limit rows) (paging.rest source pages store).1 ∧
      (rows.length < pages → (paging.rest source pages store).2.1.finished = true) ∧
      (paging.rest source pages store).2.2 = store := by
  have few : (cut paging.remaining ahead).length ≤ rows.length := by
    rw [holds.split, List.length_append]
    exact Nat.le_trans length_cut_le (Nat.le_add_left _ _)
  obtain ⟨delivered, ends, same⟩ := holds.stands.rest_delivers serves holds.split before holds.held
    (Nat.le_trans few enough)
  rw [← holds.wanted] at delivered
  exact ⟨delivered, fun more => ends (.inr (Nat.lt_of_le_of_lt few more)), same⟩

/-- A read from the start that may fetch more pages than there are rows is over in the end, and has
delivered the rows up to its limit. -/
theorem start_ends (serves : source.Serves store rows key decode) (batch : Nat)
    (limit : Option Nat) {pages : Nat} (enough : rows.length < pages) :
    Delivered decode (cut limit rows) ((start batch limit).rest source pages store).1 ∧
      ((start batch limit).rest source pages store).2.1.finished = true ∧
      ((start batch limit).rest source pages store).2.2 = store := by
  obtain ⟨delivered, ends, same⟩ :=
    (holds_start batch limit).delivers serves (Nat.le_of_lt enough)
  exact ⟨delivered, ends enough, same⟩

/-- A read whose first page could be fetched holds it. -/
theorem prime_holds (serves : source.Serves store rows key decode) {batch : Nat}
    {limit : Option Nat} {primed : Paging κ τ} {left : σ}
    (done : (start batch limit : Paging κ τ).prime source store = (.ok (), primed, left)) :
    ∃ before ahead, primed.Holds key decode limit rows before ahead := by
  have stands : (start batch limit : Paging κ τ).Stands key [] rows := stands_start batch limit
  unfold prime at done
  rw [if_pos (by rfl)] at done
  cases isOver : (start batch limit : Paging κ τ).finished with
  | true =>
    rw [nextPage_of_finished isOver] at done
    cases done
    exact ⟨_, _, holds_start batch limit⟩
  | false =>
    cases first : (rows.take (start batch limit : Paging κ τ).pageSize).mapM decode with
    | error e =>
      rw [stands.nextPage_of_error serves rfl isOver first] at done
      cases done
    | ok page =>
      obtain ⟨fetched, reached⟩ := stands.nextPage_of_ok serves rfl isOver first
      rw [fetched] at done
      cases done
      exact ⟨_, _, (List.take_append_drop _ rows).symm, reached.buffered page, first,
        cut_advance source.key (Outcomes.length_of_mapM_eq_ok first)⟩

/-- A read of rows that can all be decoded holds the first of them once its first page is
fetched. -/
theorem prime_of_decoded (serves : source.Serves store rows key decode)
    (decoded : rows.mapM decode = .ok answers) (batch : Nat) {limit : Option Nat}
    (wanted : limit ≠ some 0) :
    ∃ primed, (start batch limit : Paging κ τ).prime source store = (.ok (), primed, store) ∧
      primed.buffer.head? = answers.head? := by
  have first := Outcomes.mapM_take_of_eq_ok decoded (start batch limit : Paging κ τ).pageSize
  have stands : (start batch limit : Paging κ τ).Stands key [] rows := stands_start batch limit
  have goesOn : (start batch limit : Paging κ τ).finished = false :=
    beq_eq_false_iff_ne.mpr wanted
  obtain ⟨fetched, -⟩ := stands.nextPage_of_ok serves rfl goesOn first
  unfold prime
  rw [if_pos (by rfl), fetched]
  refine ⟨_, rfl, ?_⟩
  rw [List.head?_take, if_neg (Nat.ne_of_gt (stands.pageSize_pos goesOn))]

end Paging

end Mailroom
