import Mailroom.Proofs.Json.Numbers
import Mailroom.Proofs.Json.Strings
/-!
Values that are written and read again.

A `Layout` says what white space stands between the parts of a value. Both ways of writing are
layouts (`write_eq_layOut`, `writeIndented_eq_layOut`), and reading is blind to the layout: a value
that is laid out anyhow is read back as it was (`readValue_layOut`). So the text of a value is read
back, on one line or over several (`ofText?_compact`, `ofText?_pretty`).
-/

namespace Mailroom.Json

/-! ### Layouts -/

/-- What stands between the parts of a value: before each item and before a closing bracket, by the
level of the items, and after the colon of a member. -/
structure Layout where
  line : Nat → List Char
  gap : List Char

namespace Layout

/-- Nothing but white space stands between the parts. -/
structure IsBlank (layout : Layout) : Prop where
  line : ∀ level, ∀ c ∈ layout.line level, isSpace c = true
  gap : ∀ c ∈ layout.gap, isSpace c = true

/-- Everything on one line. -/
def oneLine : Layout := ⟨fun _ => [], []⟩

/-- Every item and member on a line of its own. -/
def lines : Layout := ⟨newLine, [' ']⟩

theorem oneLine_isBlank : oneLine.IsBlank := ⟨by simp [oneLine], by simp [oneLine]⟩

theorem lines_isBlank : lines.IsBlank := by
  constructor
  · intro level c member
    rcases List.mem_cons.mp member with rfl | spaces
    · decide
    · rw [List.eq_of_mem_replicate spaces]
      decide
  · intro c member
    rw [List.mem_singleton.mp member]
    decide

end Layout

mutual

/-- A value in a layout. -/
def layOut (layout : Layout) (level : Nat) : Json → List Char
  | array [] => ['[', ']']
  | array (item :: rest) =>
    '[' :: layOutItems layout (level + 1) (item :: rest) ++ layout.line level ++ [']']
  | object [] => ['\x7b', '\x7d']
  | object (member :: rest) =>
    '\x7b' :: layOutMembers layout (level + 1) (member :: rest) ++ layout.line level ++ ['\x7d']
  | value => value.write

/-- Items in a layout. -/
def layOutItems (layout : Layout) (level : Nat) : List Json → List Char
  | [] => []
  | [item] => layout.line level ++ layOut layout level item
  | item :: rest =>
    layout.line level ++ layOut layout level item ++ ',' :: layOutItems layout level rest

/-- Members in a layout. -/
def layOutMembers (layout : Layout) (level : Nat) : List (String × Json) → List Char
  | [] => []
  | [(name, value)] =>
    layout.line level ++ writeString name ++ ':' :: layout.gap ++ layOut layout level value
  | (name, value) :: rest =>
    layout.line level ++ writeString name ++ ':' :: layout.gap ++ layOut layout level value
      ++ ',' :: layOutMembers layout level rest

end

mutual

/-- A value on one line is laid out so. -/
theorem write_eq_layOut (level : Nat) : ∀ value : Json, value.write = layOut .oneLine level value
  | null | bool _ | integer _ | decimal _ | string _ | broken => by simp [layOut]
  | array [] | object [] => by simp [layOut, write, writeItems, writeMembers]
  | array (item :: rest) => by
    rw [write, layOut, writeItems_eq_layOut (level + 1)]
    simp [Layout.oneLine]
  | object (member :: rest) => by
    rw [write, layOut, writeMembers_eq_layOut (level + 1)]
    simp [Layout.oneLine]

theorem writeItems_eq_layOut (level : Nat) :
    ∀ items : List Json, writeItems items = layOutItems .oneLine level items
  | [] => by simp [writeItems, layOutItems]
  | [item] => by
    rw [writeItems, layOutItems, write_eq_layOut level]
    simp [Layout.oneLine]
  | item :: next :: rest => by
    rw [writeItems, layOutItems, write_eq_layOut level, writeItems_eq_layOut level]
    · simp [Layout.oneLine]
    all_goals simp

theorem writeMembers_eq_layOut (level : Nat) :
    ∀ members : List (String × Json), writeMembers members = layOutMembers .oneLine level members
  | [] => by simp [writeMembers, layOutMembers]
  | [(name, value)] => by
    rw [writeMembers, layOutMembers, write_eq_layOut level]
    simp [Layout.oneLine]
  | (name, value) :: next :: rest => by
    rw [writeMembers, layOutMembers, write_eq_layOut level, writeMembers_eq_layOut level]
    · simp [Layout.oneLine]
    all_goals simp

end

mutual

/-- A value over several lines is laid out so. -/
theorem writeIndented_eq_layOut (level : Nat) :
    ∀ value : Json, value.writeIndented level = layOut .lines level value
  | null | bool _ | integer _ | decimal _ | string _ | broken => by simp [layOut, writeIndented]
  | array [] | object [] => by simp [layOut, writeIndented]
  | array (item :: rest) => by
    rw [writeIndented, layOut, writeItemsIndented_eq_layOut (level + 1)]
    simp [Layout.lines]
  | object (member :: rest) => by
    rw [writeIndented, layOut, writeMembersIndented_eq_layOut (level + 1)]
    simp [Layout.lines]

theorem writeItemsIndented_eq_layOut (level : Nat) :
    ∀ items : List Json, writeItemsIndented level items = layOutItems .lines level items
  | [] => by simp [writeItemsIndented, layOutItems]
  | [item] => by
    rw [writeItemsIndented, layOutItems, writeIndented_eq_layOut level]
    simp [Layout.lines]
  | item :: next :: rest => by
    rw [writeItemsIndented, layOutItems, writeIndented_eq_layOut level,
      writeItemsIndented_eq_layOut level]
    · simp [Layout.lines]
    all_goals simp

theorem writeMembersIndented_eq_layOut (level : Nat) :
    ∀ members : List (String × Json),
      writeMembersIndented level members = layOutMembers .lines level members
  | [] => by simp [writeMembersIndented, layOutMembers]
  | [(name, value)] => by
    rw [writeMembersIndented, layOutMembers, writeIndented_eq_layOut level]
    simp [Layout.lines]
  | (name, value) :: next :: rest => by
    rw [writeMembersIndented, layOutMembers, writeIndented_eq_layOut level,
      writeMembersIndented_eq_layOut level]
    · simp [Layout.lines]
    all_goals simp

end

/-! ### White space -/

section Blanks

variable {blanks text : List Char} {c : Char}

theorem skipSpace_append (blank : ∀ c ∈ blanks, isSpace c = true) :
    skipSpace (blanks ++ text) = skipSpace text :=
  List.dropWhile_append_of_pos blank

theorem skipSpace_cons (mark : isSpace c = false) : skipSpace (c :: text) = c :: text := by
  simp [skipSpace, mark]

theorem skipSpace_skipSpace : skipSpace (skipSpace text) = skipSpace text := by
  induction text with
  | nil => rfl
  | cons c text ih =>
    cases mark : isSpace c with
    | true =>
      have skipped : skipSpace (c :: text) = skipSpace text := by simp [skipSpace, mark]
      rw [skipped, ih]
    | false => rw [skipSpace_cons mark, skipSpace_cons mark]

/-- White space and the marks after a value do not go on with a number. -/
theorem endsNumber_blanks (blank : ∀ c ∈ blanks, isSpace c = true)
    (mark : c = ',' ∨ c = ']' ∨ c = '\x7d') (rest : List Char) :
    EndsNumber (blanks ++ c :: rest) := by
  intro d first
  have kind : isSpace d = true ∨ d = ',' ∨ d = ']' ∨ d = '\x7d' := by
    cases blanks with
    | nil =>
      cases first
      exact .inr mark
    | cons b blanks =>
      cases first
      exact .inl (blank d List.mem_cons_self)
  simp only [isSpace, Bool.or_eq_true, decide_eq_true_eq, or_assoc] at kind
  rcases kind with rfl | rfl | rfl | rfl | rfl | rfl | rfl <;> decide

theorem endsNumber_comma (rest : List Char) : EndsNumber (',' :: rest) := by
  have nothing : ∀ c ∈ ([] : List Char), isSpace c = true := by simp
  exact endsNumber_blanks nothing (.inl rfl) rest

/-- A value is read the same after white space. -/
theorem readValue_skipSpace (fuel : Nat) :
    readValue fuel (skipSpace text) = readValue fuel text := by
  cases fuel with
  | zero => rw [readValue, readValue]
  | succ fuel => rw [readValue, readValue, skipSpace_skipSpace]

theorem readValue_blanks (blank : ∀ c ∈ blanks, isSpace c = true) (fuel : Nat) :
    readValue fuel (blanks ++ text) = readValue fuel text := by
  rw [← readValue_skipSpace, skipSpace_append blank, readValue_skipSpace]

/-- Items are read the same after white space. -/
theorem readItems_skipSpace (fuel : Nat) :
    readItems fuel (skipSpace text) = readItems fuel text := by
  cases fuel with
  | zero => rw [readItems, readItems]
  | succ fuel => rw [readItems, readItems, readValue_skipSpace]

/-- Members are read the same after white space. -/
theorem readMembers_skipSpace (fuel : Nat) :
    readMembers fuel (skipSpace text) = readMembers fuel text := by
  cases fuel with
  | zero => rw [readMembers, readMembers]
  | succ fuel => rw [readMembers, readMembers, skipSpace_skipSpace]

end Blanks

/-! ### Brackets -/

section Brackets

variable {text rest : List Char} {c : Char}

/-- What follows a bracket and is no closing bracket is items. -/
theorem readValue_items (more : (skipSpace text).head? ≠ some ']') (fuel : Nat) :
    readValue (fuel + 1) ('[' :: text)
      = (readItems fuel text).map fun read => (array read.1, read.2) := by
  rw [readValue, skipSpace_cons (by decide)]
  simp only
  split
  · rename_i closed
    rw [closed] at more
    exact absurd rfl more
  · rw [readItems_skipSpace]

/-- What follows a brace and is no closing brace is members. -/
theorem readValue_members (more : (skipSpace text).head? ≠ some '\x7d') (fuel : Nat) :
    readValue (fuel + 1) ('\x7b' :: text)
      = (readMembers fuel text).map fun read => ((named? read.1).elim broken object, read.2) := by
  rw [readValue, skipSpace_cons (by decide)]
  simp only
  split
  · rename_i closed
    rw [closed] at more
    exact absurd rfl more
  · rw [readMembers_skipSpace]

/-- A digit or a minus sign begins a number. -/
theorem readValue_number (first : c.isDigit = true ∨ c = '-') (fuel : Nat) :
    readValue (fuel + 1) (c :: text) = readNumber (c :: text) := by
  have apart (d : Char) (other : ¬ (d.isDigit = true ∨ d = '-')) : c ≠ d := by
    rintro rfl
    exact other first
  have mark : isSpace c = false := by
    simp only [isSpace, Bool.or_eq_false_iff, decide_eq_false_iff_not]
    exact ⟨⟨⟨apart ' ' (by decide), apart '\n' (by decide)⟩, apart '\t' (by decide)⟩,
      apart '\r' (by decide)⟩
  rw [readValue, skipSpace_cons mark]
  split
  all_goals rename_i same
  · cases same
  · exact absurd (List.cons.inj same).1 (apart _ (by decide))
  · exact absurd (List.cons.inj same).1 (apart _ (by decide))
  · exact absurd (List.cons.inj same).1 (apart _ (by decide))
  · exact absurd (List.cons.inj same).1 (apart _ (by decide))
  · exact absurd (List.cons.inj same).1 (apart _ (by decide))
  · exact absurd (List.cons.inj same).1 (apart _ (by decide))
  · rfl

end Brackets

/-- Names that are texts make members. -/
theorem named?_map (members : List (String × Json)) :
    named? (members.map fun member => (some member.1, member.2)) = some members := by
  induction members with
  | nil => rfl
  | cons member rest ih =>
    unfold named? at ih ⊢
    rw [List.map_cons, List.mapM_cons, ih]
    rfl

/-! ### Reading -/

mutual

/-- Whether a value has neither numbers that are kept as they were spelled nor strings that stand
for no text. -/
def isPlain : Json → Bool
  | decimal _ | broken => false
  | array items => itemsPlain items
  | object members => membersPlain members
  | _ => true

/-- Whether every item is plain. -/
def itemsPlain : List Json → Bool
  | [] => true
  | item :: rest => item.isPlain && itemsPlain rest

/-- Whether the value of every member is plain. -/
def membersPlain : List (String × Json) → Bool
  | [] => true
  | (_, value) :: rest => value.isPlain && membersPlain rest

end

section Reading

variable {layout : Layout}

theorem layOut_integer (level : Nat) (n : Int) :
    layOut layout level (integer n) = word (toString n) := by
  rw [layOut, write]
  all_goals simp

/-- A value begins with a character that is neither white space nor a closing bracket. -/
theorem layOut_eq_cons (layout : Layout) (level : Nat) {value : Json}
    (plain : value.isPlain = true) :
    ∃ c text, layOut layout level value = c :: text ∧ isSpace c = false ∧ c ≠ ']' := by
  cases value with
  | null => exact ⟨_, _, rfl, by decide, by decide⟩
  | bool b => cases b <;> exact ⟨_, _, rfl, by decide, by decide⟩
  | integer n =>
    obtain ⟨c, text, written, first⟩ := toString_eq_cons n
    refine ⟨c, text, (layOut_integer level n).trans written, ?_, ?_⟩
    · rcases first with digit | rfl
      · cases mark : isSpace c with
        | false => rfl
        | true =>
          simp only [isSpace, Bool.or_eq_true, decide_eq_true_eq, or_assoc] at mark
          rcases mark with rfl | rfl | rfl | rfl <;> cases digit
      · decide
    · rintro rfl
      rcases first with digit | same
      · cases digit
      · cases same
  | decimal spelling => cases plain
  | string text => exact ⟨_, _, rfl, by decide, by decide⟩
  | broken => cases plain
  | array items => cases items <;> exact ⟨_, _, rfl, by decide, by decide⟩
  | object members => cases members <;> exact ⟨_, _, rfl, by decide, by decide⟩

/-- What is laid out as items begins, after white space, with no closing bracket. -/
theorem layOutItems_head (blank : layout.IsBlank) (level : Nat) {item : Json} {items : List Json}
    (plain : item.isPlain = true) (rest : List Char) :
    (skipSpace (layOutItems layout level (item :: items) ++ rest)).head? ≠ some ']' := by
  obtain ⟨c, text, written, mark, apart⟩ := layOut_eq_cons layout level plain
  have first : ∃ more, layOutItems layout level (item :: items) ++ rest
      = layout.line level ++ c :: more := by
    cases items with
    | nil => simp [layOutItems, written]
    | cons next items => simp [layOutItems, written]
  obtain ⟨more, first⟩ := first
  rw [first, skipSpace_append (blank.line level), skipSpace_cons mark]
  simpa using apart

/-- What is laid out as members begins, after white space, with a quotation mark. -/
theorem layOutMembers_head (blank : layout.IsBlank) (level : Nat) {member : String × Json}
    {members : List (String × Json)} (rest : List Char) :
    (skipSpace (layOutMembers layout level (member :: members) ++ rest)).head? ≠ some '\x7d' := by
  have first : ∃ more, layOutMembers layout level (member :: members) ++ rest
      = layout.line level ++ '"' :: more := by
    cases members with
    | nil => simp [layOutMembers, writeString]
    | cons next members => simp [layOutMembers, writeString]
  obtain ⟨more, first⟩ := first
  rw [first, skipSpace_append (blank.line level), skipSpace_cons (by decide)]
  simp

mutual

/-- A value is read back from any layout. -/
theorem readValue_layOut (blank : layout.IsBlank) (level fuel : Nat) {rest : List Char}
    (ends : EndsNumber rest) : ∀ value : Json, value.isPlain = true →
      2 * (layOut layout level value).length ≤ fuel →
      readValue fuel (layOut layout level value ++ rest) = some (value, rest)
  | null, _, enough => by
    obtain ⟨fuel, rfl⟩ := Nat.exists_eq_add_of_le' (Nat.le_trans (by decide : 1 ≤ 2 * 4) enough)
    rfl
  | bool true, _, enough => by
    obtain ⟨fuel, rfl⟩ := Nat.exists_eq_add_of_le' (Nat.le_trans (by decide : 1 ≤ 2 * 4) enough)
    rfl
  | bool false, _, enough => by
    obtain ⟨fuel, rfl⟩ := Nat.exists_eq_add_of_le' (Nat.le_trans (by decide : 1 ≤ 2 * 5) enough)
    rfl
  | integer n, _, enough => by
    obtain ⟨c, text, written, first⟩ := toString_eq_cons n
    rw [layOut_integer] at enough ⊢
    rw [written] at enough ⊢
    obtain ⟨fuel, rfl⟩ : ∃ spare, fuel = spare + 1 := by
      simp only [List.length_cons] at enough
      exact ⟨fuel - 1, by omega⟩
    have read := readNumber_toString n ends
    rw [written, List.cons_append] at read
    rw [List.cons_append, readValue_number first, read]
  | string text, _, enough => by
    have laidOut : layOut layout level (string text) ++ rest
        = '"' :: (text.toList.flatMap escapeChar ++ '"' :: rest) := by
      simp [layOut, write, writeString]
    obtain ⟨fuel, rfl⟩ : ∃ spare, fuel = spare + 1 := by
      simp only [layOut, write, writeString, List.length_cons, List.cons_append] at enough
      exact ⟨fuel - 1, by omega⟩
    rw [laidOut, readValue, skipSpace_cons (by decide)]
    simp only [readString_escaped]
    rfl
  | array [], _, enough => by
    obtain ⟨fuel, rfl⟩ := Nat.exists_eq_add_of_le' (Nat.le_trans (by decide : 1 ≤ 2 * 2) enough)
    rfl
  | array (item :: items), plain, enough => by
    have laidOut : layOut layout level (array (item :: items)) ++ rest
        = '[' :: (layOutItems layout (level + 1) (item :: items)
          ++ (layout.line level ++ ']' :: rest)) := by
      simp [layOut]
    simp only [layOut, List.length_cons, List.length_append, List.length_nil,
      List.cons_append] at enough
    obtain ⟨fuel, rfl⟩ : ∃ spare, fuel = spare + 1 := ⟨fuel - 1, by omega⟩
    have plain : itemsPlain (item :: items) = true := by simpa [isPlain] using plain
    have first : item.isPlain = true := by
      simp only [itemsPlain, Bool.and_eq_true] at plain
      exact plain.1
    rw [laidOut, readValue_items (layOutItems_head blank _ first _),
      readItems_layOut blank (level + 1) fuel (blank.line level) rest (item :: items) (by simp)
        plain (by omega)]
    rfl
  | object [], _, enough => by
    obtain ⟨fuel, rfl⟩ := Nat.exists_eq_add_of_le' (Nat.le_trans (by decide : 1 ≤ 2 * 2) enough)
    rfl
  | object (member :: members), plain, enough => by
    have laidOut : layOut layout level (object (member :: members)) ++ rest
        = '\x7b' :: (layOutMembers layout (level + 1) (member :: members)
          ++ (layout.line level ++ '\x7d' :: rest)) := by
      simp [layOut]
    simp only [layOut, List.length_cons, List.length_append, List.length_nil,
      List.cons_append] at enough
    obtain ⟨fuel, rfl⟩ : ∃ spare, fuel = spare + 1 := ⟨fuel - 1, by omega⟩
    have plain : membersPlain (member :: members) = true := by simpa [isPlain] using plain
    rw [laidOut, readValue_members (layOutMembers_head blank _ _),
      readMembers_layOut blank (level + 1) fuel (blank.line level) rest (member :: members)
        (by simp) plain (by omega)]
    simp only [Option.map_some, named?_map, Option.elim_some]

/-- Items are read back from any layout. -/
theorem readItems_layOut (blank : layout.IsBlank) (level fuel : Nat) {close : List Char}
    (closes : ∀ c ∈ close, isSpace c = true) (rest : List Char) :
    ∀ items : List Json, items ≠ [] → itemsPlain items = true →
      2 * (layOutItems layout level items).length + 1 ≤ fuel →
      readItems fuel (layOutItems layout level items ++ (close ++ ']' :: rest))
        = some (items, rest)
  | [], nonempty, _, _ => absurd rfl nonempty
  | [item], _, plain, enough => by
    have laidOut : layOutItems layout level [item] ++ (close ++ ']' :: rest)
        = layout.line level ++ (layOut layout level item ++ (close ++ ']' :: rest)) := by
      simp [layOutItems]
    simp only [itemsPlain, Bool.and_true] at plain
    simp only [layOutItems, List.length_append] at enough
    obtain ⟨fuel, rfl⟩ : ∃ spare, fuel = spare + 1 := ⟨fuel - 1, by omega⟩
    have item_read := readValue_layOut blank level fuel
      (endsNumber_blanks closes (.inr (.inl rfl)) rest) item plain (by omega)
    rw [laidOut, readItems, readValue_blanks (blank.line level), item_read]
    simp only [Option.bind_eq_bind, Option.bind_some, skipSpace_append closes]
    rfl
  | item :: next :: items, _, plain, enough => by
    have laidOut : layOutItems layout level (item :: next :: items) ++ (close ++ ']' :: rest)
        = layout.line level ++ (layOut layout level item
          ++ ',' :: (layOutItems layout level (next :: items) ++ (close ++ ']' :: rest))) := by
      simp [layOutItems]
    simp only [itemsPlain, Bool.and_eq_true] at plain
    have others : itemsPlain (next :: items) = true := by
      simpa [itemsPlain] using plain.2
    rw [layOutItems] at enough
    · simp only [List.length_append, List.length_cons] at enough
      obtain ⟨fuel, rfl⟩ : ∃ spare, fuel = spare + 1 := ⟨fuel - 1, by omega⟩
      have ends := endsNumber_comma
        (layOutItems layout level (next :: items) ++ (close ++ ']' :: rest))
      have item_read := readValue_layOut blank level fuel ends item plain.1 (by omega)
      have items_read := readItems_layOut blank level fuel closes rest (next :: items) (by simp)
        others (by omega)
      rw [laidOut, readItems, readValue_blanks (blank.line level), item_read]
      simp only [Option.bind_eq_bind, Option.bind_some,
        skipSpace_cons (by decide : isSpace ',' = false), items_read, Option.map_some]
    · simp

/-- Members are read back from any layout. -/
theorem readMembers_layOut (blank : layout.IsBlank) (level fuel : Nat) {close : List Char}
    (closes : ∀ c ∈ close, isSpace c = true) (rest : List Char) :
    ∀ members : List (String × Json), members ≠ [] → membersPlain members = true →
      2 * (layOutMembers layout level members).length + 1 ≤ fuel →
      readMembers fuel (layOutMembers layout level members ++ (close ++ '\x7d' :: rest))
        = some (members.map fun member => (some member.1, member.2), rest)
  | [], nonempty, _, _ => absurd rfl nonempty
  | [(name, value)], _, plain, enough => by
    have laidOut : layOutMembers layout level [(name, value)] ++ (close ++ '\x7d' :: rest)
        = layout.line level ++ '"' :: (name.toList.flatMap escapeChar ++ '"' :: ':' ::
          (layout.gap ++ (layOut layout level value ++ (close ++ '\x7d' :: rest)))) := by
      simp [layOutMembers, writeString]
    simp only [membersPlain, Bool.and_true] at plain
    simp only [layOutMembers, List.length_append, List.length_cons] at enough
    obtain ⟨fuel, rfl⟩ : ∃ spare, fuel = spare + 1 := ⟨fuel - 1, by omega⟩
    have value_read := readValue_layOut blank level fuel
      (endsNumber_blanks closes (.inr (.inr rfl)) rest) value plain (by omega)
    rw [laidOut, readMembers, skipSpace_append (blank.line level), skipSpace_cons (by decide)]
    simp only [readString_escaped, Option.bind_eq_bind, Option.bind_some,
      skipSpace_cons (by decide : isSpace ':' = false), readValue_blanks blank.gap, value_read,
      skipSpace_append closes]
    rfl
  | (name, value) :: next :: members, _, plain, enough => by
    have laidOut : layOutMembers layout level ((name, value) :: next :: members)
          ++ (close ++ '\x7d' :: rest)
        = layout.line level ++ '"' :: (name.toList.flatMap escapeChar ++ '"' :: ':' ::
          (layout.gap ++ (layOut layout level value
            ++ ',' :: (layOutMembers layout level (next :: members)
              ++ (close ++ '\x7d' :: rest))))) := by
      simp [layOutMembers, writeString]
    simp only [membersPlain, Bool.and_eq_true] at plain
    have others : membersPlain (next :: members) = true := by
      simpa [membersPlain] using plain.2
    rw [layOutMembers] at enough
    · simp only [List.length_append, List.length_cons] at enough
      obtain ⟨fuel, rfl⟩ : ∃ spare, fuel = spare + 1 := ⟨fuel - 1, by omega⟩
      have ends := endsNumber_comma
        (layOutMembers layout level (next :: members) ++ (close ++ '\x7d' :: rest))
      have value_read := readValue_layOut blank level fuel ends value plain.1 (by omega)
      have members_read := readMembers_layOut blank level fuel closes rest (next :: members)
        (by simp) others (by omega)
      rw [laidOut, readMembers, skipSpace_append (blank.line level), skipSpace_cons (by decide)]
      simp only [readString_escaped, Option.bind_eq_bind, Option.bind_some,
        skipSpace_cons (by decide : isSpace ':' = false), readValue_blanks blank.gap, value_read,
        skipSpace_cons (by decide : isSpace ',' = false), members_read, Option.map_some,
        List.map_cons]
    · simp

end

/-- The text of a value in a layout is read back. -/
theorem ofText?_layOut (blank : layout.IsBlank) {value : Json} (plain : value.isPlain = true) :
    ofText? (String.ofList (layOut layout 0 value)) = some value := by
  have nothing : EndsNumber [] := by
    intro c first
    cases first
  have read := readValue_layOut blank 0 (2 * (layOut layout 0 value).length + 2) nothing value
    plain (Nat.le_add_right _ _)
  rw [List.append_nil] at read
  unfold ofText?
  simp only [String.toList_ofList, read, Option.bind_eq_bind, Option.bind_some]
  rfl

/-- The text of a value on one line is read back. -/
theorem ofText?_compact {value : Json} (plain : value.isPlain = true) :
    ofText? value.compact = some value := by
  rw [compact, write_eq_layOut 0]
  exact ofText?_layOut Layout.oneLine_isBlank plain

/-- The text of a value over several lines is read back. -/
theorem ofText?_pretty {value : Json} (plain : value.isPlain = true) :
    ofText? value.pretty = some value := by
  rw [pretty, writeIndented_eq_layOut 0]
  exact ofText?_layOut Layout.lines_isBlank plain

end Reading

end Mailroom.Json
