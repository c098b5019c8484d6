import Irx.Sections.Apart
import Irx.Sections.Once

/-!
# The arrays of static objects

The finder of an object takes a section that begins with the object's name and contains `.static.`
anywhere behind it, so the sections of an object with a longer name can land in its array too. What each
array should hold is `Separated`; `separated_iff` is the condition on the names in a module under which
it holds.
-/

namespace Irx.Sections
open Irx.Lib

/-- The section is one of the object: `._X.static.` and anything behind it. -/
def OfObject (X section_ : String) : Prop :=
  ("._" ++ X ++ ".static.").toList <+: section_.toList

instance (X section_ : String) : Decidable (OfObject X section_) :=
  inferInstanceAs (Decidable (("._" ++ X ++ ".static.").toList <+: section_.toList))

/-- The name of an object: `.static.` does not occur in it. -/
def Plain (X : String) : Prop := containsAndSplitFirst X ".static." = none

instance (X : String) : Decidable (Plain X) :=
  inferInstanceAs (Decidable (containsAndSplitFirst X ".static." = none))

/-- The global is in the array of the finder in the run on the module. -/
def Lands (N : Naming) (M : Module) (G : GlobalVariable) (F : SectionFinder) : Prop :=
  ∃ Mk g, (F, Mk) ∈ turns N (InitializeZephyrSectionFinders M) M ∧ gather F Mk = .ok g ∧
    G ∈ g.collected

/-- The arrays of static objects hold globals of their object only, and a global of an object is in
the array of this object and in no other one. -/
structure Separated (N : Naming) (M : Module) : Prop where
  only : ∀ X G, Lands N M G (.static X) → OfObject X G.section_
  each : ∀ G ∈ M.globals, ∀ X, Plain X → OfObject X G.section_ →
    ∀ F, Lands N M G F ↔ F = .static X

/-- The names of the objects and sections of a module keep its static arrays apart. -/
structure NamesApart (N : Naming) (M : Module) : Prop where
  /-- Where the name of an object begins a section and `.static.` follows, it follows at once. -/
  direct : ∀ X Mk, (SectionFinder.static X, Mk) ∈ turns N (InitializeZephyrSectionFinders M) M →
    ∀ G ∈ Mk.globals, ((SectionFinder.static X).test G.section_).isSome → OfObject X G.section_
  /-- No section can be read as one of two objects. -/
  unambiguous : ∀ G ∈ M.globals, ∀ X X', Plain X → Plain X' → OfObject X G.section_ →
    OfObject X' G.section_ → X = X'
  /-- No two globals of an object share a section. -/
  sections : ∀ G ∈ M.globals, ∀ G' ∈ M.globals, ∀ X, Plain X → OfObject X G.section_ →
    G.section_ = G'.section_ → G = G'
  /-- The globals of an object are still there at its turn. -/
  still : ∀ G ∈ M.globals, ∀ X, Plain X → OfObject X G.section_ →
    ∀ Mk, (SectionFinder.static X, Mk) ∈ turns N (InitializeZephyrSectionFinders M) M →
      G ∈ Mk.globals

variable {N : Naming} {M Mk M' : Module} {F : SectionFinder} {g : Gathered} {G : GlobalVariable}
variable {X s : String}

/-! ### Names -/

/-- What is left behind the start. -/
lemma startsWithAndRemove_eq_some {sec pre rest : String} :
    startsWithAndRemove sec pre = some rest ↔ sec = pre ++ rest := by
  rw [startsWithAndRemove]
  constructor
  · intro e
    split at e
    case isTrue begins =>
      cases e
      obtain ⟨t, split⟩ := List.isPrefixOf_iff_prefix.1 begins
      apply String.toList_inj.1
      rw [String.toList_append, String.toList_ofList, ← split, List.drop_left]
    case isFalse => cases e
  · rintro rfl
    have begins : pre.toList <+: (pre ++ rest).toList := by
      rw [String.toList_append]
      exact List.prefix_append _ _
    rw [if_pos (List.isPrefixOf_iff_prefix.2 begins), String.toList_append, List.drop_left,
      String.ofList_toList]

/-- A needle is missed exactly if it does not occur. -/
lemma beforeFirst_eq_none {needle l : List Char} : beforeFirst needle l = none ↔ ¬ needle <:+: l := by
  induction l with
  | nil =>
    rw [beforeFirst, List.infix_nil, ← List.prefix_nil, ← List.isPrefixOf_iff_prefix]
    split
    case isTrue begins => exact ⟨nofun, fun no => absurd begins no⟩
    case isFalse no => exact ⟨fun _ => no, fun _ => rfl⟩
  | cons c cs ih =>
    rw [beforeFirst, List.infix_cons_iff, ← List.isPrefixOf_iff_prefix]
    split
    case isTrue begins => exact ⟨nofun, fun no => absurd (.inl begins) no⟩
    case isFalse no =>
      rw [Option.map_eq_none_iff, ih]
      exact ⟨fun later h => h.elim no later, fun none later => none (.inr later)⟩

/-- What comes before the first occurrence has none itself. -/
lemma beforeFirst_eq_some {needle l p : List Char} (found : beforeFirst needle l = some p) :
    p ++ needle <+: l ∧ (needle ≠ [] → ¬ needle <:+: p) := by
  induction l generalizing p with
  | nil =>
    rw [beforeFirst] at found
    split at found
    case isTrue begins =>
      cases found
      exact ⟨List.isPrefixOf_iff_prefix.1 begins, fun ne inf => ne (List.infix_nil.1 inf)⟩
    case isFalse => cases found
  | cons c cs ih =>
    rw [beforeFirst] at found
    split at found
    case isTrue begins =>
      cases found
      exact ⟨List.isPrefixOf_iff_prefix.1 begins, fun ne inf => ne (List.infix_nil.1 inf)⟩
    case isFalse no =>
      obtain ⟨q, later, rfl⟩ := Option.map_eq_some_iff.1 found
      obtain ⟨begins, none⟩ := ih later
      refine ⟨List.cons_prefix_cons.2 ⟨rfl, begins⟩, fun ne inf => ?_⟩
      rcases List.infix_cons_iff.1 inf with here | further
      · -- an occurrence at the start would have been found
        apply no
        rw [List.isPrefixOf_iff_prefix]
        have inside : c :: q <+: c :: cs :=
          List.cons_prefix_cons.2 ⟨rfl, (List.prefix_append _ _).trans begins⟩
        exact here.trans inside
      · exact none ne further

/-- The section of an object has a name. -/
lemma OfObject.ne_empty (own : OfObject X s) : s ≠ "" := by
  rintro rfl
  have empty := List.prefix_nil.1 own
  rw [String.toList_append, String.toList_append, List.append_assoc] at empty
  cases empty

namespace SectionFinder

/-- A static finder takes what begins with the object and has `.static.` somewhere behind it. -/
lemma static_test_isSome :
    ((static X).test s).isSome ↔ ∃ rest, s = "._" ++ X ++ rest ∧ ".static.".toList <:+: rest.toList := by
  rw [test]
  simp only [static]
  cases removed : startsWithAndRemove s ("._" ++ X) with
  | none =>
    constructor
    · intro some
      cases some
    · rintro ⟨rest, e, _⟩
      rw [startsWithAndRemove_eq_some.2 e] at removed
      cases removed
  | some rest =>
    have split : (containsAndSplitFirst rest ".static.").isSome ↔
        ".static.".toList <:+: rest.toList := by
      rw [containsAndSplitFirst, Option.isSome_map, ← Option.not_isNone,
        Bool.not_eq_true', ← Bool.not_eq_true, Option.isNone_iff_eq_none, beforeFirst_eq_none, not_not]
    refine split.trans ⟨fun inf => ⟨rest, startsWithAndRemove_eq_some.1 removed, inf⟩, ?_⟩
    rintro ⟨rest', e, inf⟩
    cases removed.symm.trans (startsWithAndRemove_eq_some.2 e)
    exact inf

/-- The finder of an object takes its sections. -/
lemma static_test_of_object (own : OfObject X s) : ((static X).test s).isSome := by
  obtain ⟨rest, e⟩ := own
  apply static_test_isSome.2
  refine ⟨".static." ++ String.ofList rest, ?_, ?_⟩
  · apply String.toList_inj.1
    rw [← e]
    simp only [String.toList_append, String.toList_ofList, List.append_assoc]
  · rw [String.toList_append]
    exact (List.prefix_append _ _).isInfix

/-- What the finder of all static sections reads is an object that the section is of. -/
lemma static_all {object : String} (found : (static "").test s = some object) :
    Plain object ∧ OfObject object s := by
  rw [test] at found
  simp only [static] at found
  obtain ⟨rest, removed, split⟩ := Option.bind_eq_some_iff.1 found
  rw [containsAndSplitFirst, Option.map_eq_some_iff] at split
  obtain ⟨p, before, rfl⟩ := split
  obtain ⟨begins, none⟩ := beforeFirst_eq_some before
  refine ⟨?_, ?_⟩
  · rw [Plain, containsAndSplitFirst, String.toList_ofList, Option.map_eq_none_iff,
      beforeFirst_eq_none, String.toList_ofList]
    exact none (by decide)
  · rw [OfObject, startsWithAndRemove_eq_some.1 removed]
    simp only [String.toList_append, String.toList_ofList, List.append_assoc]
    exact List.prefix_append_right_inj _ |>.2 begins

/-- The finders of native sections take no section of an object. -/
lemma native_test_none {conf : SectionTypeConfig} (known : conf ∈ configs) (own : OfObject X s) :
    (native conf).test s = none := by
  have other : ∀ conf ∈ configs, ∀ pre ∈ conf.match_list,
      pre.toList.take 2 ≠ ['.', '_'] ∧ 2 ≤ pre.toList.length := by decide
  apply List.findSome?_eq_none_iff.2
  intro pre mem
  obtain ⟨ne, long⟩ := other conf known pre mem
  cases removed : startsWithAndRemove s pre with
  | none => rfl
  | some rest =>
    refine absurd ?_ ne
    obtain ⟨rest', e⟩ := own
    have front : s.toList.take 2 = ['.', '_'] := by
      rw [← e]
      simp only [String.toList_append, List.append_assoc]
      rfl
    rw [← front, startsWithAndRemove_eq_some.1 removed, String.toList_append,
      List.take_append_of_le_length long]

end SectionFinder

open SectionFinder

/-! ### Turns -/

/-- No object that was found is lost. -/
lemma findSection_subset {l : List GlobalVariable} {found : List String} :
    found ⊆ l.foldl findSection found := by
  induction l generalizing found with
  | nil => exact fun _ mem => mem
  | cons G l ih =>
    intro object mem
    apply ih
    rw [findSection]
    split
    case isTrue => exact mem
    case isFalse =>
      split
      case h_1 =>
        split
        case isTrue => exact mem
        case isFalse => exact List.mem_append_left _ mem
      case h_2 => exact mem

/-- The objects that get a finder are plain names. -/
lemma findSection_plain {l : List GlobalVariable} {found : List String}
    (plain : ∀ object ∈ found, Plain object) :
    ∀ object ∈ l.foldl findSection found, Plain object := by
  induction l generalizing found with
  | nil => exact plain
  | cons G l ih =>
    apply ih
    rw [findSection]
    split
    case isTrue => exact plain
    case isFalse =>
      split
      case h_1 object read =>
        split
        case isTrue => exact plain
        case isFalse =>
          intro other mem
          obtain mem | mem := List.mem_append.1 mem
          · exact plain other mem
          · cases List.mem_singleton.1 mem
            exact (static_all read).1
      case h_2 => exact plain

/-- The section of an object's global gives an object a finder. -/
lemma findSection_mem {l : List GlobalVariable} {found : List String} (mem : G ∈ l)
    (own : OfObject X G.section_) :
    ∃ object ∈ l.foldl findSection found, Plain object ∧ OfObject object G.section_ := by
  induction l generalizing found with
  | nil => cases mem
  | cons G' l ih =>
    obtain rfl | mem := List.mem_cons.1 mem
    · have some : ((static "").test G.section_).isSome := by
        obtain ⟨rest, e, inf⟩ := static_test_isSome.1 (static_test_of_object own)
        apply static_test_isSome.2
        refine ⟨X ++ rest, ?_, ?_⟩
        · rw [e, String.append_assoc, String.append_assoc, String.empty_append]
        · rw [String.toList_append]
          exact inf.trans (List.suffix_append _ _).isInfix
      obtain ⟨object, read⟩ := Option.isSome_iff_exists.1 some
      have here : object ∈ findSection found G := by
        simp only [findSection, if_neg own.ne_empty, read]
        split
        case isTrue here => exact here
        case isFalse => exact List.mem_append_right _ (.head _)
      have kept : object ∈ l.foldl findSection (findSection found G) := findSection_subset here
      exact ⟨object, kept, static_all read⟩
    · exact ih mem

/-- Every turn is that of a finder. -/
lemma mem_of_turn {finders : List SectionFinder} (turn : (F, Mk) ∈ turns N finders M) :
    F ∈ finders := by
  induction finders generalizing M with
  | nil => cases turn
  | cons F' finders ih =>
    obtain e | turn := List.mem_cons.1 turn
    · cases e
      exact .head _
    · split at turn
      · exact .tail _ (ih turn)
      · cases turn

/-- The object of a finder is mandatory or was found. -/
lemma static_mem {object : String} (mem : SectionFinder.static object ∈ InitializeZephyrSectionFinders M) :
    object ∈ M.globals.foldl findSection mandatory := by
  obtain mem | mem := List.mem_append.1 mem
  · obtain ⟨object', known, e⟩ := List.mem_map.1 mem
    cases e
    exact known
  · obtain ⟨conf, _, e⟩ := List.mem_map.1 mem
    cases e

/-! ### Landing -/

/-- What is in an array matches its finder. -/
lemma matches_of_collected (gathered : gather F Mk = .ok g) (mem : G ∈ g.collected) :
    G ∈ Mk.globals ∧ F.Matches G :=
  List.mem_filter.1 ((gathers_of_gather gathered).grouped.subset _ mem)

/-- Of the matching globals in a section one is in the array. -/
lemma collected_of_matches (gathered : gather F Mk = .ok g) (mem : G ∈ Mk.globals)
    (matched : F.Matches G) : ∃ G' ∈ g.collected, G'.section_ = G.section_ := by
  have inv := gathers_of_gather gathered
  have covered := inv.grouped.covered inv.levels G (List.mem_filter.2 ⟨mem, matched⟩)
  obtain ⟨G', mem', e⟩ := List.mem_map.1 covered
  exact ⟨G', mem', e⟩

/-- A global that matches is in a section of the finder. -/
lemma test_of_matches (matched : F.Matches G) : (F.test G.section_).isSome := by
  rw [Matches, Bool.and_eq_true] at matched
  exact Option.isSome_of_any matched.2

/-- A global in a section of a static finder matches. -/
lemma static_matches (some : ((static X).test G.section_).isSome) : (static X).Matches G := by
  rw [Matches, Bool.and_eq_true]
  refine ⟨?_, ?_⟩
  · obtain ⟨rest, e, _⟩ := static_test_isSome.1 some
    apply decide_eq_true
    intro blank
    have empty := congrArg String.toList (blank.symm.trans e)
    simp only [String.toList_append, List.append_assoc] at empty
    cases empty
  · obtain ⟨sec, tested⟩ := Option.isSome_iff_exists.1 some
    rw [tested]
    rfl

/-- At the turn of an object whose names are direct, its array holds globals of the object. -/
lemma NamesApart.only (apart : NamesApart N M) (lands : Lands N M G (.static X)) :
    OfObject X G.section_ := by
  obtain ⟨Mk, g, turn, gathered, mem⟩ := lands
  obtain ⟨here, matched⟩ := matches_of_collected gathered mem
  exact apart.direct X Mk turn G here (test_of_matches matched)

/-- A global of an object lands in no other array. -/
lemma NamesApart.nowhere_else (apart : NamesApart N M) (mem : G ∈ M.globals) (plain : Plain X)
    (own : OfObject X G.section_) (lands : Lands N M G F) : F = .static X := by
  obtain ⟨Mk, g, turn, gathered, collected⟩ := id lands
  have known := mem_of_turn turn
  cases initial_of_mem known with
  | native conf =>
    have taken := test_of_matches (matches_of_collected gathered collected).2
    rw [native_test_none conf own] at taken
    cases taken
  | static object =>
    have plain' := findSection_plain (by decide) object (static_mem known)
    rw [apart.unambiguous G mem X object plain plain' own (apart.only lands)]

/-- A global of an object is in the array of this object. -/
lemma NamesApart.lands (apart : NamesApart N M) (ran : collectLinkerScriptSections N M = .ok M')
    (mem : G ∈ M.globals) (plain : Plain X) (own : OfObject X G.section_) :
    Lands N M G (.static X) := by
  obtain ⟨object, (found : object ∈ M.globals.foldl findSection mandatory), plain', own'⟩ :=
    findSection_mem mem own
  cases apart.unambiguous G mem X object plain plain' own own'
  obtain ⟨Mk, turn⟩ := turn_of_mem (List.mem_append_left _ (List.mem_map_of_mem found)) ran
  obtain ⟨g, gathered, _⟩ := gather_ok (.static X) Mk
  have here := apart.still G mem X plain own Mk turn
  obtain ⟨G', collected, same⟩ :=
    collected_of_matches gathered here (static_matches (static_test_of_object own))
  -- the global that stands for the section is the only one there
  have here' := (matches_of_collected gathered collected).1
  have named : G'.section_ ≠ "" := same ▸ own.ne_empty
  have mem' := (turn_survivors turn).subset (List.mem_filter.2 ⟨here', decide_eq_true named⟩)
  cases apart.sections G mem G' mem' X plain own same.symm
  exact ⟨Mk, g, turn, gathered, collected⟩

namespace Separated

/-- A global of an object is in the array of its finder. -/
lemma landed (separated : Separated N M) (mem : G ∈ M.globals) (plain : Plain X)
    (own : OfObject X G.section_)
    (turn : (SectionFinder.static X, Mk) ∈ turns N (InitializeZephyrSectionFinders M) M)
    (gathered : gather (.static X) Mk = .ok g) : G ∈ g.collected := by
  obtain ⟨Mk', g', turn', gathered', collected⟩ := (separated.each G mem X plain own _).2 rfl
  cases turn_unique (finders_nodup M) turn turn'
  cases gathered.symm.trans gathered'
  exact collected

/-- The names of the symbols are apart. -/
lemma namesApart (separated : Separated N M) : NamesApart N M where
  direct := by
    intro X Mk turn G mem some
    obtain ⟨g, gathered, _⟩ := gather_ok (.static X) Mk
    obtain ⟨G', collected, same⟩ := collected_of_matches gathered mem (static_matches some)
    rw [← same]
    exact separated.only X G' ⟨Mk, g, turn, gathered, collected⟩
  unambiguous := by
    intro G mem X X' plain plain' own own'
    have lands := (separated.each G mem X plain own _).2 rfl
    cases (separated.each G mem X' plain' own' _).1 lands
    rfl
  sections := by
    intro G mem G' mem' X plain own same
    obtain ⟨Mk, g, turn, gathered, collected⟩ := (separated.each G mem X plain own _).2 rfl
    have collected' := separated.landed mem' plain (same ▸ own) turn gathered
    have nodup := (gathers_of_gather gathered).grouped.nodup g.finder.nodup
    exact List.inj_on_of_nodup_map nodup collected collected' same
  still := by
    intro G mem X plain own Mk turn
    obtain ⟨g, gathered, _⟩ := gather_ok (.static X) Mk
    exact (matches_of_collected gathered (separated.landed mem plain own turn gathered)).1

end Separated

/-! ### Names of a module that keep its arrays apart -/

/-- Two separators overlap in a point only. -/
lemma separator_overlap : ∀ k < 8,
    ".static.".toList <+: ".static.".toList.take k ++ ".static.".toList → k = 0 ∨ k = 7 := by decide

/-- A text read up to two separators: the second one starts at once behind the first, with a point in
common. -/
lemma reading_eq {p q l : List Char} (first : p ++ ".static.".toList <+: l)
    (second : q ++ ".static.".toList <+: l) (le : p.length ≤ q.length)
    (plain : ¬ ".static.".toList <:+: q) (single : ¬ ".static.static.".toList <:+: l) : p = q := by
  have before : p <+: q := List.prefix_of_prefix_length_le ((List.prefix_append _ _).trans first)
    ((List.prefix_append _ _).trans second) le
  obtain ⟨t, rfl⟩ := before
  obtain ⟨rest, rfl⟩ := second
  rw [List.append_assoc, List.append_assoc, List.prefix_append_right_inj] at first
  by_cases short : t.length < 8
  case neg =>
    -- the first separator lies in what comes before the second one
    have inside : ".static.".toList <+: t :=
      List.prefix_of_prefix_length_le first (List.prefix_append _ _) (not_lt.1 short)
    exact absurd (inside.isInfix.trans (List.suffix_append _ _).isInfix) plain
  case pos =>
    have front : t <+: ".static.".toList :=
      List.prefix_of_prefix_length_le (List.prefix_append _ _) first short.le
    rw [List.prefix_iff_eq_take] at front
    have overlap : ".static.".toList <+: ".static.".toList.take t.length ++ ".static.".toList := by
      rw [← front]
      apply List.prefix_of_prefix_length_le first
      · rw [← List.append_assoc]
        exact List.prefix_append _ _
      · rw [List.length_append]
        exact Nat.le_add_left _ _
    obtain none | seven := separator_overlap t.length short overlap
    · rw [List.length_eq_zero_iff.1 none, List.append_nil]
    · apply absurd _ single
      rw [front, seven, List.append_assoc, List.append_assoc]
      exact ⟨p, rest, List.append_assoc ..⟩

/-- A section without two separators in a row is of one object. -/
lemma OfObject.unique {X' : String} (own : OfObject X s) (own' : OfObject X' s) (plain : Plain X)
    (plain' : Plain X') (single : ¬ ".static.static.".toList <:+: s.toList) : X = X' := by
  have bare : ∀ {X}, Plain X → ¬ ".static.".toList <:+: X.toList := by
    intro X plain
    rwa [Plain, containsAndSplitFirst, Option.map_eq_none_iff, beforeFirst_eq_none] at plain
  obtain ⟨rest, e⟩ := own
  obtain ⟨rest', e'⟩ := own'
  simp only [String.toList_append, List.append_assoc] at e e'
  have behind : ¬ ".static.static.".toList <:+: s.toList.drop 2 := fun inf =>
    single (inf.trans (List.drop_suffix _ _).isInfix)
  have first : X.toList ++ ".static.".toList <+: s.toList.drop 2 := by
    rw [← e]
    exact ⟨rest, List.append_assoc ..⟩
  have second : X'.toList ++ ".static.".toList <+: s.toList.drop 2 := by
    rw [← e']
    exact ⟨rest', List.append_assoc ..⟩
  apply String.toList_inj.1
  rcases le_total X.toList.length X'.toList.length with le | le
  · exact reading_eq first second le (bare plain') behind
  · exact (reading_eq second first le (bare plain) behind).symm

/-- A global whose name is no symbol of a finder is there at every turn. -/
lemma stays (mem : G ∈ M.globals)
    (free : ∀ F ∈ InitializeZephyrSectionFinders M, G.name ∉ F.boundary ∧ ¬ F.Label G.name)
    (turn : (F, Mk) ∈ turns N (InitializeZephyrSectionFinders M) M) : G ∈ Mk.globals := by
  refine turns_keep (P := fun Mk => G ∈ Mk.globals) ?_ mem turn
  intro M1 F' known M2 here ran
  obtain ⟨g, values, gathered, _, emitted⟩ := collectFinder_eq_ok ran
  apply (emitSymbols_emits emitted).kept G (List.mem_append_left _ here)
  intro symbol
  obtain ⟨boundary, label⟩ := free F' known
  obtain mem | mem := (initial_of_mem known).symbols (gathers_of_gather gathered).grown symbol
  · exact boundary mem
  · exact label mem

instance : (F : SectionFinder) → (s : String) → Decidable (F.Label s)
  | ⟨.native conf, _, _⟩, s => inferInstanceAs (Decidable (s ∈ levelNames conf))
  | ⟨.static _, _, _⟩, s => inferInstanceAs (Decidable (Ends "_area" s))

/-- Names that keep the arrays apart, in terms of the module only. -/
lemma namesApart_of
    (direct : ∀ X ∈ M.globals.foldl findSection mandatory, ∀ G ∈ M.globals,
      ((SectionFinder.static X).test G.section_).isSome → OfObject X G.section_)
    (single : ∀ G ∈ M.globals, ¬ ".static.static.".toList <:+: G.section_.toList)
    (sections : ∀ G ∈ M.globals, ∀ G' ∈ M.globals, G.section_ = G'.section_ → G = G')
    (free : ∀ G ∈ M.globals, ∀ F ∈ InitializeZephyrSectionFinders M,
      G.name ∉ F.boundary ∧ ¬ F.Label G.name) : NamesApart N M where
  direct := by
    intro X Mk turn G mem some
    have named : G.section_ ≠ "" := by
      have matched : (SectionFinder.static X).Matches G := static_matches some
      rw [Matches, Bool.and_eq_true] at matched
      exact of_decide_eq_true matched.1
    have mem' := (turn_survivors turn).subset (List.mem_filter.2 ⟨mem, decide_eq_true named⟩)
    exact direct X (static_mem (mem_of_turn turn)) G mem' some
  unambiguous := fun G mem X X' plain plain' own own' =>
    own.unique own' plain plain' (single G mem)
  sections := fun G mem G' mem' _ _ _ same => sections G mem G' mem' same
  still := fun G mem _ _ _ _ turn => stays mem (free G mem) turn

/-- The static arrays of a run are separated if and only if the names keep them apart: where the name
of an object begins a section and `.static.` follows, it follows at once; no section is of two objects;
and the globals of an object lie in different sections and are still there at the object's turn. -/
theorem separated_iff {N : Naming} {M M' : Module}
    (ran : collectLinkerScriptSections N M = .ok M') : Separated N M ↔ NamesApart N M := by
  constructor
  · exact Separated.namesApart
  · intro apart
    refine ⟨fun X G => apart.only, fun G mem X plain own F => ⟨?_, ?_⟩⟩
    · exact apart.nowhere_else mem plain own
    · rintro rfl
      exact apart.lands ran mem plain own

/-- Two objects in sections. -/
def twoObjects (first second : String) : Module where
  globals := [hwEvent "a" first "{0}", hwEvent "b" second "{0}"]
  aliases := []
  functions := []
  nodup := by simp [symbolTable, hwEvent]

/-- A semaphore and a mutex. -/
theorem separated_iff_two_objects :
    Separated longest (twoObjects "._k_sem.static.a_" "._k_mutex.static.b_") := by
  obtain ⟨M', ran⟩ : ∃ M', collectLinkerScriptSections longest
      (twoObjects "._k_sem.static.a_" "._k_mutex.static.b_") = .ok M' := ⟨_, rfl⟩
  refine (separated_iff ran).2 (namesApart_of ?_ ?_ ?_ ?_)
  · decide
  · decide
  · intro G mem G' mem' same
    simp only [twoObjects, List.mem_cons, List.not_mem_nil, or_false] at mem mem'
    obtain rfl | rfl := mem
    · obtain rfl | rfl := mem'
      · rfl
      · exact absurd same (by decide)
    · obtain rfl | rfl := mem'
      · exact absurd same (by decide)
      · rfl
  · decide

/-- The devices of interfaces land in the array of the interfaces too. -/
theorem longer_name_lands :
    ∃ M M', collectLinkerScriptSections longest M = .ok M' ∧ ¬ Separated longest M := by
  have ran : ∃ M', collectLinkerScriptSections longest
      (twoObjects "._net_if.static.a_" "._net_if_dev.static.b_") = .ok M' := ⟨_, rfl⟩
  obtain ⟨M', ran⟩ := ran
  refine ⟨_, M', ran, fun separated => ?_⟩
  obtain ⟨Mk, turn⟩ := turn_of_mem (F := .static "net_if")
    (List.mem_append_left _ (List.mem_map_of_mem (by decide))) ran
  have there := stays (G := hwEvent "b" "._net_if_dev.static.b_" "{0}") (.tail _ (.head _)) (by decide)
    turn
  have other : ¬ OfObject "net_if" "._net_if_dev.static.b_" := by decide
  exact other (separated.namesApart.direct "net_if" Mk turn _ there (by decide))

end Irx.Sections
