import Mailroom.Flags
/-!
Flags as lists of wire names.

Reading a list sets the flags that its names stand for and keeps the other names as keywords
(`get_ofWire`, `mem_keywords_ofWire`). So a list is read as the set of its names, and keywords that
were read are never spelled like a system flag. Flags with a keyword that is spelled so are the only
ones that are not read back from their own names (`ofWire_toWire_iff`).
-/

namespace Mailroom

namespace SystemFlag

/-- The wire names of different flags differ, whatever the case of their letters. -/
theorem eq_of_sameIgnoringCase {a b : SystemFlag} {name : String}
    (first : sameIgnoringCase a.wireName name = true)
    (second : sameIgnoringCase b.wireName name = true) : a = b := by
  have apart : ∀ x ∈ all, ∀ y ∈ all,
      x.wireName.toList.map Char.toLower = y.wireName.toList.map Char.toLower → x = y := by
    decide +kernel
  simp only [sameIgnoringCase, beq_iff_eq] at first second
  exact apart a (mem_all a) b (mem_all b) (first.trans second.symm)

/-- A name stands for the system flag that has it, in whatever case. -/
theorem ofWireName?_eq_some_iff {name : String} {flag : SystemFlag} :
    ofWireName? name = some flag ↔ sameIgnoringCase flag.wireName name = true := by
  have sound {other : SystemFlag} (found : ofWireName? name = some other) :
      sameIgnoringCase other.wireName name = true := by
    have stands := List.find?_some found
    simpa using stands
  constructor
  · intro found
    exact sound found
  · intro same
    cases found : ofWireName? name with
    | none =>
      have others := List.find?_eq_none.mp found flag (mem_all flag)
      exact absurd same others
    | some other => rw [eq_of_sameIgnoringCase (sound found) same]

/-- A name stands for no system flag if none has it, in whatever case. -/
theorem ofWireName?_eq_none_iff {name : String} :
    ofWireName? name = none ↔ ∀ flag : SystemFlag, sameIgnoringCase flag.wireName name = false := by
  simp [ofWireName?, mem_all]

@[simp] theorem ofWireName?_wireName (flag : SystemFlag) :
    ofWireName? flag.wireName = some flag := by
  simp [ofWireName?_eq_some_iff, sameIgnoringCase]

end SystemFlag

namespace Flags

open SystemFlag

variable {flags : Flags} {flag : SystemFlag} {names : List String} {keyword : String}

/-! ### Reading -/

/-- One more name sets the system flag that it stands for. -/
theorem get_addWire {name : String} :
    (flags.addWire name).get flag = true ↔
      flags.get flag = true ∨ ofWireName? name = some flag := by
  unfold addWire
  cases ofWireName? name with
  | none => simp [addKeyword, get]
  | some other =>
    simp only [get_set, Option.some.injEq]
    split
    · rename_i same
      simp [same]
    · rename_i apart
      simp [Ne.symm apart]

/-- One more name is a keyword if it stands for no system flag. -/
theorem mem_keywords_addWire {name : String} :
    keyword ∈ (flags.addWire name).keywords ↔
      keyword ∈ flags.keywords ∨ (keyword = name ∧ ofWireName? name = none) := by
  unfold addWire
  cases ofWireName? name with
  | none => simp [addKeyword, or_comm]
  | some other => simp

theorem get_foldl_addWire :
    (names.foldl addWire flags).get flag = true ↔
      flags.get flag = true ∨ ∃ name ∈ names, ofWireName? name = some flag := by
  induction names generalizing flags with
  | nil => simp
  | cons name rest ih => simp [ih, get_addWire, or_assoc]

theorem mem_keywords_foldl_addWire :
    keyword ∈ (names.foldl addWire flags).keywords ↔
      keyword ∈ flags.keywords ∨ (keyword ∈ names ∧ ofWireName? keyword = none) := by
  induction names generalizing flags with
  | nil => simp
  | cons name rest ih =>
    rw [List.foldl_cons, ih, mem_keywords_addWire, List.mem_cons, or_and_right, or_assoc]
    constructor
    · rintro (before | ⟨rfl, free⟩ | later)
      · exact .inl before
      · exact .inr (.inl ⟨rfl, free⟩)
      · exact .inr (.inr later)
    · rintro (before | ⟨rfl, free⟩ | later)
      · exact .inl before
      · exact .inr (.inl ⟨rfl, free⟩)
      · exact .inr (.inr later)

/-- A list sets the system flags that its names stand for. -/
theorem get_ofWire :
    (ofWire names).get flag = true ↔ ∃ name ∈ names, ofWireName? name = some flag := by
  have blank : empty.get flag = false := by cases flag <;> rfl
  simp [ofWire, get_foldl_addWire, blank]

/-- The other names are the keywords. -/
theorem mem_keywords_ofWire :
    keyword ∈ (ofWire names).keywords ↔ keyword ∈ names ∧ ofWireName? keyword = none := by
  have blank : keyword ∉ empty.keywords := NameSet.not_mem_empty
  simp [ofWire, mem_keywords_foldl_addWire, blank]

/-- Flags are decided by the system flags and the keywords that are set. -/
theorem ext_set {a b : Flags} (system : ∀ flag, a.get flag = true ↔ b.get flag = true)
    (keywords : ∀ keyword, keyword ∈ a.keywords ↔ keyword ∈ b.keywords) : a = b := by
  refine ext_get (fun flag => ?_) (NameSet.ext keywords)
  rw [Bool.eq_iff_iff]
  exact system flag

/-- Two lists one after the other are read as the union of what is read of each. -/
theorem ofWire_append (a b : List String) : ofWire (a ++ b) = (ofWire a).union (ofWire b) := by
  refine ext_set (fun flag => ?_) fun keyword => ?_
  · simp [get_ofWire, or_and_right, exists_or]
  · have union : ((ofWire a).union (ofWire b)).keywords
        = (ofWire a).keywords.union (ofWire b).keywords := rfl
    simp [union, mem_keywords_ofWire, or_and_right]

/-- Neither the order of names matters nor how often they are given. -/
theorem ofWire_congr {a b : List String} (same : ∀ name, name ∈ a ↔ name ∈ b) :
    ofWire a = ofWire b := by
  refine ext_set (fun flag => ?_) fun keyword => ?_
  · simp [get_ofWire, same]
  · simp [mem_keywords_ofWire, same]

/-! ### Writing -/

theorem mem_system : flag ∈ flags.system ↔ flags.get flag = true := by
  simp [system, mem_all]

/-- The names of flags are those of the system flags and the keywords that are set. -/
theorem mem_toWire {name : String} :
    name ∈ flags.toWire ↔
      (∃ flag, flags.get flag = true ∧ flag.wireName = name) ∨ name ∈ flags.keywords := by
  simp [toWire, mem_system, NameSet.mem_toList]

/-- A keyword spelled like a system flag is read as that flag, and all else is read back. -/
theorem ofWire_toWire_iff :
    ofWire flags.toWire = flags ↔
      ∀ keyword ∈ flags.keywords, ∀ flag : SystemFlag,
        sameIgnoringCase flag.wireName keyword = false := by
  constructor
  · intro same keyword member
    rw [← same, mem_keywords_ofWire] at member
    exact ofWireName?_eq_none_iff.mp member.2
  · intro free
    have plain (keyword : String) (member : keyword ∈ flags.keywords) :
        ofWireName? keyword = none := ofWireName?_eq_none_iff.mpr (free keyword member)
    refine ext_set (fun flag => ?_) fun keyword => ?_
    · rw [get_ofWire]
      constructor
      · rintro ⟨name, member, stands⟩
        rcases mem_toWire.mp member with ⟨other, isSet, rfl⟩ | isKeyword
        · rw [ofWireName?_wireName, Option.some.injEq] at stands
          rwa [← stands]
        · rw [plain name isKeyword] at stands
          cases stands
      · intro isSet
        exact ⟨flag.wireName, mem_toWire.mpr (.inl ⟨flag, isSet, rfl⟩), ofWireName?_wireName flag⟩
    · rw [mem_keywords_ofWire]
      constructor
      · rintro ⟨member, stands⟩
        rcases mem_toWire.mp member with ⟨flag, -, rfl⟩ | isKeyword
        · rw [ofWireName?_wireName] at stands
          cases stands
        · exact isKeyword
      · intro isKeyword
        exact ⟨mem_toWire.mpr (.inr isKeyword), plain keyword isKeyword⟩

/-- Flags that were read have no keyword spelled like a system flag. -/
theorem ofWire_toWire_ofWire (names : List String) :
    ofWire (ofWire names).toWire = ofWire names := by
  rw [ofWire_toWire_iff]
  intro keyword member
  exact ofWireName?_eq_none_iff.mp (mem_keywords_ofWire.mp member).2

/-- Two names name one flag: they are the same, or both are the name of one system flag in
whatever case. -/
def NameOneFlag (a b : String) : Prop :=
  a = b ∨ ∃ flag : SystemFlag,
    sameIgnoringCase flag.wireName a = true ∧ sameIgnoringCase flag.wireName b = true

theorem nameOneFlag_iff {a b : String} :
    NameOneFlag a b ↔
      a = b ∨ ∃ flag, ofWireName? a = some flag ∧ ofWireName? b = some flag := by
  simp [NameOneFlag, ofWireName?_eq_some_iff]

/-- Flags that were read are written with one name each. -/
theorem toWire_ofWire_pairwise (names : List String) :
    (ofWire names).toWire.Pairwise fun a b => ¬ NameOneFlag a b := by
  simp only [nameOneFlag_iff]
  have plain (keyword : String) (member : keyword ∈ (ofWire names).keywords.toList) :
      ofWireName? keyword = none := (mem_keywords_ofWire.mp member).2
  refine List.pairwise_append.mpr ⟨?_, ?_, ?_⟩
  · have once : (ofWire names).system.Nodup :=
      List.Pairwise.filter _ (by decide : SystemFlag.all.Nodup)
    rw [List.pairwise_map]
    refine once.imp ?_
    rintro a b apart (same | ⟨flag, first, second⟩)
    · have same := congrArg ofWireName? same
      simp only [ofWireName?_wireName, Option.some.injEq] at same
      exact apart same
    · simp only [ofWireName?_wireName, Option.some.injEq] at first second
      exact apart (first.trans second.symm)
  · refine List.Pairwise.imp_of_mem ?_ (ofWire names).keywords.ascending
    rintro a b member - before (rfl | ⟨flag, first, -⟩)
    · exact String.lt_irrefl _ before
    · rw [plain a member] at first
      cases first
  · intro name written keyword member
    obtain ⟨flag, -, rfl⟩ := List.mem_map.mp written
    rintro (same | ⟨other, -, second⟩)
    · have stands := plain keyword member
      rw [← same, ofWireName?_wireName] at stands
      cases stands
    · rw [plain keyword member] at second
      cases second

/-- Lists of names and flags fit each other. Lists one after the other are read as a union, so
neither order nor repetition matters; flags that were read are written with one name each and are
read back; and flags whatsoever are read back exactly if no keyword is spelled like a system
flag. -/
theorem wireNames_fit :
    (∀ a b, ofWire (a ++ b) = (ofWire a).union (ofWire b)) ∧
    (∀ a b : List String, (∀ name, name ∈ a ↔ name ∈ b) → ofWire a = ofWire b) ∧
    (∀ names, ((ofWire names).toWire.Pairwise fun a b => ¬ NameOneFlag a b) ∧
      ofWire (ofWire names).toWire = ofWire names) ∧
    ∀ flags, ofWire flags.toWire = flags ↔
      ∀ keyword ∈ flags.keywords, ∀ flag : SystemFlag,
        sameIgnoringCase flag.wireName keyword = false := by
  refine ⟨ofWire_append, fun a b => ofWire_congr, ?_, fun flags => ofWire_toWire_iff⟩
  intro names
  exact ⟨toWire_ofWire_pairwise names, ofWire_toWire_ofWire names⟩

/-- The same names in another order and case, one of them twice. -/
theorem wireNames_fit_reordered :
    (∀ name, name ∈ ["\\Seen", "\\seen", "$Junk"] ↔ name ∈ ["$Junk", "\\seen", "$Junk", "\\Seen"]) ∧
      ofWire ["\\Seen", "\\seen", "$Junk"] = ofWire ["$Junk", "\\seen", "$Junk", "\\Seen"] := by
  have same (name : String) : name ∈ ["\\Seen", "\\seen", "$Junk"] ↔
      name ∈ ["$Junk", "\\seen", "$Junk", "\\Seen"] := by
    grind
  exact ⟨same, wireNames_fit.2.1 _ _ same⟩

/-- A keyword spelled like a system flag is not read back. -/
example : ofWire (Flags.toWire { keywords := .ofList ["\\SEEN"] }) = { seen := true } := by
  decide +kernel

end Flags

end Mailroom
