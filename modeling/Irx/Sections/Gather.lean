import Irx.Sections.Collect
import Irx.Lib.Groups

/-!
# What a finder gathers

The collecting loop never fails. It leaves the finder recognising the same sections, and it groups the
globals that match the finder by their level under the names of their sections.
-/

namespace Irx.Sections
open Irx.Lib

namespace SectionFinder

/-- The section of the global matches the finder and one of its levels. -/
def Matches (F : SectionFinder) (Global : GlobalVariable) : Bool :=
  Global.section_ ≠ "" && (F.test Global.section_).any F.hasLevel

/-- The level of a matching section. -/
def levelOfSection (F : SectionFinder) (section_ : String) : String :=
  match (F.test section_).map F.level with
  | some (.ok level) => level
  | _ => ""

/-- A finder that has only learned levels: a native one knows all of its levels beforehand. -/
structure Grown (F F' : SectionFinder) : Prop where
  kind : F'.kind = F.kind
  native : ∀ conf, F.kind = .native conf → F'.list = F.list

/-- A finder has grown from itself. -/
lemma Grown.refl (F : SectionFinder) : Grown F F := ⟨rfl, fun _ _ => rfl⟩

/-- The level of a section is in the list. -/
lemma levelOf_mem {F : SectionFinder} {sec init : String} (found : F.levelOf sec = some init) :
    init ∈ F.list := List.mem_of_find?_eq_some found

namespace Grown

variable {F F' : SectionFinder}

/-- The test of the finder stays. -/
lemma test (grown : Grown F F') : F'.test = F.test := by
  funext sec
  rw [SectionFinder.test, SectionFinder.test, grown.kind]

/-- Whether it has levels stays. -/
lemma hasLevel (grown : Grown F F') : F'.hasLevel = F.hasLevel := by
  funext sec
  rw [SectionFinder.hasLevel, SectionFinder.hasLevel, grown.kind]
  cases kind : F.kind with
  | native conf =>
    rw [levelOf, levelOf, grown.native conf kind]
  | static object => rfl

/-- How it reads levels stays. -/
lemma level (grown : Grown F F') : F'.level = F.level := by
  funext sec
  rw [SectionFinder.level, SectionFinder.level, grown.kind]
  cases kind : F.kind with
  | native conf =>
    rw [levelOf, levelOf, grown.native conf kind]
  | static object => rfl

/-- Its start stays. -/
lemma start (grown : Grown F F') : F'.start = F.start := by
  rw [SectionFinder.start, SectionFinder.start, grown.kind]

/-- Its end stays. -/
lemma stop (grown : Grown F F') : F'.stop = F.stop := by
  rw [SectionFinder.stop, SectionFinder.stop, grown.kind]

/-- Pushing the level of a section grows the finder. -/
lemma push {sec level : String} (grown : Grown F F') (found : F'.level sec = .ok level) :
    Grown F (F'.push_level level) := by
  refine ⟨(push_level_kind _ _).trans grown.kind, fun conf kind => ?_⟩
  have old : level ∈ F'.list := by
    rw [SectionFinder.level, grown.kind, kind] at found
    cases init : F'.levelOf sec with
    | none =>
      rw [init] at found
      cases found
    | some l =>
      rw [init] at found
      cases found
      exact levelOf_mem init
  rw [push_level, dif_neg (not_not.2 old)]
  exact grown.native conf kind

end Grown

/-- A section with a level has one to tell. -/
lemma level_of_hasLevel {F : SectionFinder} {sec : String} (has : F.hasLevel sec) :
    ∃ level, F.level sec = .ok level := by
  rw [hasLevel] at has
  rw [level]
  cases kind : F.kind with
  | native conf =>
    rw [kind] at has
    obtain ⟨init, found⟩ := Option.isSome_iff_exists.1 has
    exact ⟨init, by simp only [found]⟩
  | static object => exact ⟨sec, rfl⟩

/-- What the finder makes of a global: it leaves it, or it collects it at its level. -/
lemma matches_cases (F : SectionFinder) (Global : GlobalVariable) :
    (F.Matches Global = false ∧
      (Global.section_ = "" ∨ F.test Global.section_ = none ∨
        ∃ sec, F.test Global.section_ = some sec ∧ F.hasLevel sec = false)) ∨
    (F.Matches Global = true ∧ Global.section_ ≠ "" ∧
      ∃ sec, F.test Global.section_ = some sec ∧ F.hasLevel sec = true ∧
        F.level sec = .ok (F.levelOfSection Global.section_)) := by
  rw [Matches]
  by_cases blank : Global.section_ = ""
  · exact .inl ⟨by simp [blank], .inl blank⟩
  cases tested : F.test Global.section_ with
  | none => exact .inl ⟨by simp, .inr (.inl rfl)⟩
  | some sec =>
    cases has : F.hasLevel sec with
    | false => exact .inl ⟨by simp [has], .inr (.inr ⟨sec, rfl, has⟩)⟩
    | true =>
      obtain ⟨level, told⟩ := level_of_hasLevel has
      have own : F.levelOfSection Global.section_ = level := by
        rw [levelOfSection, tested, Option.map_some, told]
      exact .inr ⟨by simp [has, blank], blank, sec, rfl, has, own ▸ told⟩

end SectionFinder

open SectionFinder

/-- What the collecting loop knows after a list of globals. -/
structure Gathers (F : SectionFinder) (l : List GlobalVariable) (g : Gathered) : Prop where
  grown : Grown F g.finder
  grouped : Grouped F.levelOfSection GlobalVariable.section_ g.GVs (l.filter F.Matches)
  list : ∀ L, L ∈ g.finder.list ↔
    L ∈ F.list ∨ ∃ G ∈ l.filter F.Matches, F.levelOfSection G.section_ = L

/-- The levels of the matching globals are among those of the finder. -/
lemma Gathers.levels {F : SectionFinder} {l : List GlobalVariable} {g : Gathered}
    (inv : Gathers F l g) : ∀ G ∈ l.filter F.Matches, F.levelOfSection G.section_ ∈ g.finder.list :=
  fun G mem => (inv.list _).2 (.inr ⟨G, mem, rfl⟩)

/-- The collecting loop gathers one more global. -/
lemma Gathers.step {F : SectionFinder} {l : List GlobalVariable} {g : Gathered}
    (inv : Gathers F l g) (Global : GlobalVariable) :
    ∃ g', gatherGlobal g Global = .ok g' ∧ Gathers F (l ++ [Global]) g' := by
  -- the grown finder decides as the first one
  obtain ⟨no, why⟩ | ⟨yes, section_, sec, tested, has, told⟩ := F.matches_cases Global
  · refine ⟨g, ?_, inv.grown, ?_, ?_⟩
    · obtain blank | none | ⟨sec, tested, has⟩ := why
      · rw [gatherGlobal, if_pos blank]
      · rw [gatherGlobal, inv.grown.test, none]
        exact ite_self _
      · simp only [gatherGlobal, inv.grown.test, inv.grown.hasLevel, tested, has]
        exact ite_self _
    · rw [List.filter_append, List.filter_cons_of_neg (by rw [no]; decide), List.filter_nil,
        List.append_nil]
      exact inv.grouped
    · intro L
      rw [List.filter_append, List.filter_cons_of_neg (by rw [no]; decide), List.filter_nil,
        List.append_nil]
      exact inv.list L
  · have told' : g.finder.level sec = .ok (F.levelOfSection Global.section_) := by
      rw [inv.grown.level, told]
    refine ⟨⟨Function.update g.GVs (F.levelOfSection Global.section_)
      ((g.GVs (F.levelOfSection Global.section_)).insert Global.section_ Global),
      g.finder.push_level (F.levelOfSection Global.section_)⟩, ?_, inv.grown.push told', ?_, ?_⟩
    · simp only [gatherGlobal, inv.grown.test, inv.grown.hasLevel, tested, has, if_neg section_,
        told', ok_bind]
      rfl
    · rw [List.filter_append, List.filter_cons_of_pos yes, List.filter_nil]
      exact inv.grouped.insert rfl
    · intro L
      rw [List.filter_append, List.filter_cons_of_pos yes, List.filter_nil, mem_push_level, inv.list]
      simp only [List.mem_append, List.mem_singleton, or_and_right, exists_or, exists_eq_left]
      rw [or_left_comm, eq_comm, or_comm (a := F.levelOfSection Global.section_ = L)]

/-- The collecting loop gathers a list of globals. -/
lemma Gathers.fold {F : SectionFinder} {l l' : List GlobalVariable} {g : Gathered}
    (inv : Gathers F l g) :
    ∃ g', l'.foldlM gatherGlobal g = .ok g' ∧ Gathers F (l ++ l') g' := by
  induction l' generalizing l g with
  | nil => exact ⟨g, rfl, by rwa [List.append_nil]⟩
  | cons Global l' ih =>
    obtain ⟨g1, first, inv1⟩ := inv.step Global
    obtain ⟨g', rest, inv'⟩ := ih inv1
    refine ⟨g', ?_, ?_⟩
    · rw [List.foldlM_cons, bind_ok first, rest]
    · rwa [List.append_assoc] at inv'

/-- The collecting loop never fails. -/
lemma gather_ok (F : SectionFinder) (M : Module) :
    ∃ g, gather F M = .ok g ∧ Gathers F M.globals g := by
  have init : Gathers F [] ⟨fun _ => .empty, F⟩ :=
    ⟨.refl F, .empty, fun L => by simp⟩
  exact init.fold

/-- A finished collecting loop has gathered all globals. -/
lemma gathers_of_gather {F : SectionFinder} {M : Module} {g : Gathered} (ran : gather F M = .ok g) :
    Gathers F M.globals g := by
  obtain ⟨g', ran', inv⟩ := gather_ok F M
  cases ran.symm.trans ran'
  exact inv

/-! ### What a turn finds, told from the module -/

/-- The turn on the module collects the global: its section matches, and no later global has this
section. -/
def SectionFinder.Collects (F : SectionFinder) (M : Module) (G : GlobalVariable) : Prop :=
  F.Matches G ∧ (M.globals.filter fun G' => G'.section_ = G.section_).getLast? = some G

/-- The level has a place in the array: it is listed, or a matching global of the module has it. -/
def SectionFinder.LevelIn (F : SectionFinder) (M : Module) (L : String) : Prop :=
  L ∈ F.list ∨ ∃ G ∈ M.globals, F.Matches G ∧ F.levelOfSection G.section_ = L

/-- Whether a section matches does not depend on the global in it. -/
lemma matches_congr {F : SectionFinder} {G G' : GlobalVariable} (same : G.section_ = G'.section_) :
    F.Matches G = F.Matches G' := by
  rw [SectionFinder.Matches, SectionFinder.Matches, same]

/-- A global is in the array if the finder collects it. -/
lemma mem_collected_iff {F : SectionFinder} {M : Module} {g : Gathered} {G : GlobalVariable}
    (gathered : gather F M = .ok g) : G ∈ g.collected ↔ F.Collects M G := by
  have inv := gathers_of_gather gathered
  have same : F.Matches G → (M.globals.filter F.Matches).filter (fun G' => G'.section_ = G.section_) =
      M.globals.filter fun G' => G'.section_ = G.section_ := by
    intro matched
    rw [List.filter_filter]
    refine List.filter_congr fun G' _ => ?_
    by_cases here : G'.section_ = G.section_
    · rw [matches_congr here, matched, Bool.and_true]
    · rw [decide_eq_false here, Bool.false_and]
  rw [Gathered.collected, inv.grouped.mem_iff_last inv.levels, SectionFinder.Collects]
  constructor
  · intro last
    have matched : F.Matches G :=
      (List.mem_filter.1 (List.mem_filter.1 (List.mem_of_getLast? last)).1).2
    exact ⟨matched, same matched ▸ last⟩
  · rintro ⟨matched, last⟩
    rwa [same matched]

/-- The levels are those of the collected globals. -/
lemma mem_levels_iff {F : SectionFinder} {M : Module} {g : Gathered} {L : String}
    (gathered : gather F M = .ok g) : L ∈ g.finder.list ↔ F.LevelIn M L := by
  simp only [(gathers_of_gather gathered).list, SectionFinder.LevelIn, List.mem_filter, and_assoc]

end Irx.Sections
