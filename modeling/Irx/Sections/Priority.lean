import Irx.Sections.Objects
import Irx.Lib.Numerals

/-!
# The order of priorities

Behind its level, the section of a native, nsi or init entry has a decimal priority. The entries of a
level are emitted in the order of their section names; `priority_order_iff` says for which names this is
the order of the priorities.
-/

namespace Irx.Sections
open Irx.Lib

namespace SectionFinder

/-- What follows the level in the name of a section. -/
def behindLevel (F : SectionFinder) (section_ : String) : List Char :=
  match F.test section_ with
  | none => []
  | some sec =>
    match F.levelOf sec with
    | none => []
    | some level => sec.toList.drop level.toList.length

/-- The priority in the name of a section, also behind an underscore as in `.nsi_hw_event_0`. -/
def priority (F : SectionFinder) (section_ : String) : Option Nat := number? (F.behindLevel section_)

end SectionFinder

open SectionFinder

/-- In the array, the entries of a level are in non-decreasing order of their priorities. -/
def InPriorityOrder (F : SectionFinder) (level : String) (array : List GlobalVariable) : Prop :=
  array.Pairwise fun G G' =>
    F.levelOfSection G.section_ = level → F.levelOfSection G'.section_ = level →
      ∀ p ∈ F.priority G.section_, ∀ p' ∈ F.priority G'.section_, p ≤ p'

/-- The numeral of a smaller priority of the level reads before that of a larger one. -/
def PrioritiesRead (F : SectionFinder) (level : String) (globals : List GlobalVariable) : Prop :=
  ∀ G ∈ globals, ∀ G' ∈ globals, F.Matches G → F.Matches G' →
    F.levelOfSection G.section_ = level → F.levelOfSection G'.section_ = level →
    ∀ p ∈ F.priority G.section_, ∀ p' ∈ F.priority G'.section_, p < p' →
      ReadsBefore (numeral (F.behindLevel G.section_)) (behind (F.behindLevel G.section_))
        (numeral (F.behindLevel G'.section_))

instance (F : SectionFinder) (level : String) (globals : List GlobalVariable) :
    Decidable (PrioritiesRead F level globals) :=
  inferInstanceAs (Decidable (∀ G ∈ globals, ∀ G' ∈ globals, F.Matches G → F.Matches G' →
    F.levelOfSection G.section_ = level → F.levelOfSection G'.section_ = level →
    ∀ p ∈ F.priority G.section_, ∀ p' ∈ F.priority G'.section_, p < p' →
      ReadsBefore (numeral (F.behindLevel G.section_)) (behind (F.behindLevel G.section_))
        (numeral (F.behindLevel G'.section_))))

variable {N : Naming} {M Mk : Module} {F : SectionFinder} {g : Gathered} {G G' : GlobalVariable}
variable {conf : SectionTypeConfig} {level : String}

/-- The name of a section of a native finder: the prefix of the configuration, the level and the rest. -/
lemma section_eq (matched : (SectionFinder.native conf).Matches G) : ∃ pre ∈ conf.match_list,
    G.section_.toList = pre.toList ++
      (((SectionFinder.native conf).levelOfSection G.section_).toList ++
        (SectionFinder.native conf).behindLevel G.section_) := by
  obtain ⟨no, _⟩ | ⟨_, _, sec, tested, _, told⟩ := (SectionFinder.native conf).matches_cases G
  · rw [no] at matched
    cases matched
  · have prefixed := tested
    rw [test] at prefixed
    simp only [SectionFinder.native] at prefixed
    obtain ⟨pre, mem, removed⟩ := List.exists_of_findSome?_eq_some prefixed
    refine ⟨pre, mem, ?_⟩
    rw [SectionFinder.level] at told
    simp only [SectionFinder.native] at told
    cases found : (SectionFinder.native conf).levelOf sec with
    | none =>
      simp only [SectionFinder.native] at found
      rw [found] at told
      cases told
    | some init =>
      have own : (SectionFinder.native conf).levelOfSection G.section_ = init := by
        have found' := found
        simp only [SectionFinder.native] at found'
        rw [found'] at told
        exact (Except.ok.inj told).symm
      have begins := List.find?_some found
      obtain ⟨rest, split⟩ := Option.isSome_iff_exists.1 begins
      rw [startsWithAndRemove_eq_some] at removed split
      rw [own, behindLevel, tested]
      simp only [found]
      rw [split, String.toList_append, List.drop_left, ← String.toList_append, ← split,
        ← String.toList_append, ← removed]

/-- Sections of one level are ordered like what follows the level. -/
lemma section_lt_iff (known : conf ∈ configs) (matched : (SectionFinder.native conf).Matches G)
    (matched' : (SectionFinder.native conf).Matches G')
    (same : (SectionFinder.native conf).levelOfSection G.section_ =
      (SectionFinder.native conf).levelOfSection G'.section_) :
    G.section_ < G'.section_ ↔ (SectionFinder.native conf).behindLevel G.section_ <
      (SectionFinder.native conf).behindLevel G'.section_ := by
  have single : ∀ conf ∈ configs, ∀ pre ∈ conf.match_list, ∀ pre' ∈ conf.match_list, pre = pre' := by
    decide
  obtain ⟨pre, mem, e⟩ := section_eq matched
  obtain ⟨pre', mem', e'⟩ := section_eq matched'
  cases single conf known pre mem pre' mem'
  rw [String.lt_iff_toList_lt, e, e', same, append_left_lt_iff, append_left_lt_iff]

/-- Entries of one level in the order of their names, in terms of their priorities. -/
lemma section_lt_iff_reads (known : conf ∈ configs) (matched : (SectionFinder.native conf).Matches G)
    (matched' : (SectionFinder.native conf).Matches G')
    (same : (SectionFinder.native conf).levelOfSection G.section_ =
      (SectionFinder.native conf).levelOfSection G'.section_) {p p' : Nat}
    (first : p ∈ (SectionFinder.native conf).priority G.section_)
    (second : p' ∈ (SectionFinder.native conf).priority G'.section_) (lt : p < p') :
    G.section_ < G'.section_ ↔
      ReadsBefore (numeral ((SectionFinder.native conf).behindLevel G.section_))
        (behind ((SectionFinder.native conf).behindLevel G.section_))
        (numeral ((SectionFinder.native conf).behindLevel G'.section_)) :=
  (section_lt_iff known matched matched' same).trans (lt_iff_readsBefore first second lt)

/-- What is listed for a level is a global of this level. -/
lemma Gathers.entry {l : List GlobalVariable} (inv : Gathers F l g) {x : String × GlobalVariable}
    (mem : x ∈ (g.GVs level).entries) : x.2 ∈ l ∧ F.Matches x.2 ∧ x.2.section_ = x.1 ∧
      F.levelOfSection x.2.section_ = level := by
  obtain ⟨old, key, own⟩ := inv.grouped.sound level x mem
  obtain ⟨old, matched⟩ := List.mem_filter.1 old
  exact ⟨old, matched, key, key ▸ own⟩

/-- The section of a matching global has an entry at its level, which is a level of the array. -/
lemma Gathers.has_entry {l : List GlobalVariable} (inv : Gathers F l g) (mem : G ∈ l)
    (matched : F.Matches G) : F.levelOfSection G.section_ ∈ g.finder.list ∧
      ∃ x ∈ (g.GVs (F.levelOfSection G.section_)).entries, x.1 = G.section_ := by
  have here := List.mem_filter.2 ⟨mem, matched⟩
  obtain ⟨x, memx, e⟩ := List.mem_map.1 (inv.grouped.cover G here)
  exact ⟨inv.levels G here, x, memx, e⟩

/-- The array is in the order of the priorities if the numerals read in this order. -/
lemma inPriorityOrder_of_reads (known : conf ∈ configs)
    (inv : Gathers (SectionFinder.native conf) Mk.globals g)
    (read : PrioritiesRead (SectionFinder.native conf) level Mk.globals) :
    InPriorityOrder (SectionFinder.native conf) level g.collected := by
  refine List.pairwise_flatMap.2 ⟨fun own _ => ?_, g.finder.nodup.imp fun {own own'} ne => ?_⟩
  · -- within a level the keys are sorted, so a descent of priorities would be one of the names
    refine List.pairwise_map.2 (OrdMap.pairwise_iff.2 ?_)
    intro x memx y memy lt atx aty p first p' second
    obtain ⟨memx, matched, keyx, _⟩ := inv.entry memx
    obtain ⟨memy, matched', keyy, _⟩ := inv.entry memy
    by_contra less
    have less := not_le.1 less
    have reads := read y.2 memy x.2 memx matched' matched aty atx p' second p first less
    have back := (section_lt_iff_reads known matched' matched (aty.trans atx.symm) second first less).2
      reads
    rw [keyx, keyy] at back
    exact lt.asymm back
  · intro G mem G' mem' at_ at'
    obtain ⟨x, memx, rfl⟩ := List.mem_map.1 mem
    obtain ⟨y, memy, rfl⟩ := List.mem_map.1 mem'
    exact absurd ((inv.entry memx).2.2.2.symm.trans (at_.trans (at'.symm.trans (inv.entry memy).2.2.2)))
      ne

/-- In an array that is in the order of the priorities the numerals read in this order. -/
lemma reads_of_inPriorityOrder (known : conf ∈ configs)
    (inv : Gathers (SectionFinder.native conf) Mk.globals g)
    (order : InPriorityOrder (SectionFinder.native conf) level g.collected) :
    PrioritiesRead (SectionFinder.native conf) level Mk.globals := by
  intro G mem G' mem' matched matched' at_ at' p first p' second less
  obtain ⟨listed, x, memx, keyx⟩ := inv.has_entry mem matched
  obtain ⟨_, y, memy, keyy⟩ := inv.has_entry mem' matched'
  rw [at_] at memx listed
  rw [at'] at memy
  apply (section_lt_iff_reads known matched matched' (at_.trans at'.symm) first second less).1
  rcases lt_trichotomy G.section_ G'.section_ with lt | same | lt
  · exact lt
  · rw [same] at first
    cases Option.mem_unique first second
    exact absurd less (lt_irrefl _)
  · -- the entries of both sections are in the array, that of the larger priority first
    have part : (g.GVs level).values.Sublist g.collected :=
      List.sublist_flatten_of_mem (List.mem_map_of_mem listed)
    have pairs := OrdMap.pairwise_iff.1 (List.pairwise_map.1 (order.sublist part)) y memy x memx
      (keyx ▸ keyy ▸ lt)
    obtain ⟨_, _, secx, levelx⟩ := inv.entry memx
    obtain ⟨_, _, secy, levely⟩ := inv.entry memy
    rw [secx, secy, keyx, keyy] at pairs
    rw [secx, keyx] at levelx
    rw [secy, keyy] at levely
    exact absurd (pairs levely levelx p' second p first) (not_le.2 less)

/-- The entries of a level are emitted in the order of their priorities if and only if, of any two of
them with different priorities, the numeral of the smaller one reads before that of the larger one. -/
theorem priority_order_iff {N : Naming} {M Mk : Module} {F : SectionFinder} {conf : SectionTypeConfig}
    {g : Gathered} (turn : (F, Mk) ∈ turns N (InitializeZephyrSectionFinders M) M)
    (native : F.kind = .native conf) (gathered : gather F Mk = .ok g) (level : String) :
    InPriorityOrder F level g.collected ↔ PrioritiesRead F level Mk.globals := by
  cases initial_of_mem (mem_of_turn turn) with
  | native known =>
    have inv := gathers_of_gather gathered
    exact ⟨reads_of_inPriorityOrder known inv, inPriorityOrder_of_reads known inv⟩
  | static object => cases native

/-- Priorities of one width read in their order. -/
lemma prioritiesRead_of_width {globals : List GlobalVariable} {width : Nat} {underscores : List Char}
    (shape : ∀ G ∈ globals, F.Matches G → F.levelOfSection G.section_ = level →
      (F.behindLevel G.section_).takeWhile (· = '_') = underscores ∧
        (digits (F.behindLevel G.section_)).length = width) : PrioritiesRead F level globals := by
  intro G mem G' mem' matched matched' at_ at' p first p' second less
  obtain ⟨same, long⟩ := shape G mem matched at_
  obtain ⟨same', long'⟩ := shape G' mem' matched' at'
  rw [numeral, numeral, same, same', readsBefore_append]
  apply readsBefore_of_length (fun _ => isDigit_of_mem_digits) (fun _ => isDigit_of_mem_digits)
  · rw [long, long']
  · rwa [(number?_eq_some first).2, (number?_eq_some second).2]

/-- The module when the turn of the native tasks comes. -/
def nativeTurn (M : Module) : Module :=
  ((mandatory.map SectionFinder.static).foldlM (collectFinder longest) M).toOption.getD M

/-- The tasks of priority 1 and 20 are emitted in this order. -/
theorem priority_order_iff_tasks :
    ∃ g, gather (.native nativePreTasks) (nativeTurn
        (twoObjects ".native_PRE_BOOT_120_task" ".native_PRE_BOOT_11_task")) = .ok g ∧
      InPriorityOrder (.native nativePreTasks) "PRE_BOOT_1" g.collected := by
  obtain ⟨g, gathered, _⟩ := gather_ok (.native nativePreTasks) (nativeTurn
    (twoObjects ".native_PRE_BOOT_120_task" ".native_PRE_BOOT_11_task"))
  have ran : (mandatory.map SectionFinder.static).foldlM (collectFinder longest)
      (twoObjects ".native_PRE_BOOT_120_task" ".native_PRE_BOOT_11_task") = .ok (nativeTurn
        (twoObjects ".native_PRE_BOOT_120_task" ".native_PRE_BOOT_11_task")) := rfl
  have turn : (SectionFinder.native nativePreTasks, nativeTurn
      (twoObjects ".native_PRE_BOOT_120_task" ".native_PRE_BOOT_11_task")) ∈
      turns longest (InitializeZephyrSectionFinders
          (twoObjects ".native_PRE_BOOT_120_task" ".native_PRE_BOOT_11_task"))
        (twoObjects ".native_PRE_BOOT_120_task" ".native_PRE_BOOT_11_task") := turn_of_run ran
  exact ⟨g, gathered, (priority_order_iff turn rfl gathered "PRE_BOOT_1").2 (by decide)⟩

/-- The task of priority 10 is emitted before that of priority 2. -/
theorem ten_before_two : ∃ M Mk F g, (F, Mk) ∈ turns longest (InitializeZephyrSectionFinders M) M ∧
    F.kind = .native nativePreTasks ∧ gather F Mk = .ok g ∧
      ¬ InPriorityOrder F "PRE_BOOT_1" g.collected := by
  have ran : (mandatory.map SectionFinder.static).foldlM (collectFinder longest)
      (twoObjects ".native_PRE_BOOT_12_task" ".native_PRE_BOOT_110_task") = .ok (nativeTurn
        (twoObjects ".native_PRE_BOOT_12_task" ".native_PRE_BOOT_110_task")) := rfl
  obtain ⟨g, gathered, inv⟩ := gather_ok (.native nativePreTasks) (nativeTurn
    (twoObjects ".native_PRE_BOOT_12_task" ".native_PRE_BOOT_110_task"))
  refine ⟨_, _, .native nativePreTasks, g, turn_of_run ran, rfl, gathered, fun order => ?_⟩
  exact absurd (reads_of_inPriorityOrder (.head _) inv order) (by decide)

end Irx.Sections
