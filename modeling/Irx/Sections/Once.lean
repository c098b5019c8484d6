import Irx.Sections.Symbols

/-!
# Every matching global once

The map of a level is keyed by the full section name, so of the globals in one section only the last
one stays. The array of a finder holds every matching global of the module once exactly when the
matching globals lie in different sections and all of them are still there when the finder's turn
comes.
-/

namespace Irx.Sections
open Irx.Lib

variable {N : Naming} {M Mk M' : Module} {F : SectionFinder} {g : Gathered}

/-- The element type of the finder's array. -/
def SectionFinder.arrayType (F : SectionFinder) (M : Module) : IRType :=
  match gather F M with
  | .ok g => g.elemType M
  | .error _ => F.getDefaultType

/-- The finder's turn emits an array that holds the initializer of each global of the list once, and
nothing else. -/
def CollectsOnce (N : Naming) (F : SectionFinder) (M : Module) (globals : List GlobalVariable) :
    Prop :=
  ∃ g values M', emitArea N F M = .ok (g, values, M') ∧
    ∃ area ∈ M'.globals, area.name = N.newName M F.sectionName ∧
      ∃ Ty elems, area.initializer = some (.array Ty elems) ∧
        (elems.map some).Perm (globals.map GlobalVariable.initializer)

/-- Values of the element type are stored as they are. -/
lemma castedValues_of_typed {Ty : IRType} {values : List Constant}
    (typed : ∀ v ∈ values, v.getType = Ty) : castedValues Ty values = values := by
  rw [castedValues]
  refine (List.map_congr_left fun v mem => ?_).trans (List.map_id values)
  rw [if_neg (not_not.2 (typed v mem).symm)]
  rfl

/-- Where all globals are defined, all initializers are read. -/
lemma initializers_ok {l : List GlobalVariable} (init : ∀ G ∈ l, G.initializer.isSome) :
    ∃ values, l.mapM GlobalVariable.getInitializer = .ok values ∧
      values.map some = l.map GlobalVariable.initializer := by
  induction l with
  | nil => exact ⟨[], rfl, rfl⟩
  | cons G l ih =>
    obtain ⟨values, rest, same⟩ := ih fun G mem => init G (.tail _ mem)
    obtain ⟨C, own⟩ := Option.isSome_iff_exists.1 (init G (.head _))
    have first : G.getInitializer = .ok C := by rw [GlobalVariable.getInitializer, own]
    refine ⟨C :: values, ?_, ?_⟩
    · rw [List.mapM_cons, bind_ok first, bind_ok rest]
      rfl
    · rw [List.map_cons, List.map_cons, same, own]

/-- There is one initializer for each global. -/
lemma initializers_length {l : List GlobalVariable} {values : List Constant}
    (ran : l.mapM GlobalVariable.getInitializer = .ok values) : values.length = l.length := by
  induction l generalizing values with
  | nil =>
    cases ran
    rfl
  | cons G l ih =>
    rw [List.mapM_cons] at ran
    obtain ⟨C, _, after⟩ := bind_eq_ok.1 ran
    obtain ⟨rest, others, e⟩ := bind_eq_ok.1 after
    cases e
    rw [List.length_cons, List.length_cons, ih others]

/-- The array of a turn that has one holds the casted values. -/
lemma collectsOnce_iff_perm {values : List Constant} {globals : List GlobalVariable}
    (gathered : gather F M = .ok g) (valued : g.values = .ok values) :
    CollectsOnce N F M globals ↔
      ((castedValues (g.elemType M) values).map some).Perm
        (globals.map GlobalVariable.initializer) := by
  have emitted : emitArea N F M =
      .ok (g, values, emitLinkerScriptGlobal N M F.sectionName (g.elemType M) values) := by
    rw [emitArea, bind_ok gathered, bind_ok valued]
  constructor
  · rintro ⟨g', values', M', ran, area, mem, name, Ty, elems, init, perm⟩
    cases emitted.symm.trans ran
    obtain mem | mem := List.mem_append.1 mem
    · -- an older global does not have the fresh name of the array
      refine absurd ?_ (N.newName_fresh M F.sectionName)
      exact name ▸ List.mem_append_left _ (List.mem_map_of_mem mem)
    · cases List.mem_singleton.1 mem
      cases init
      exact perm
  · intro perm
    exact ⟨g, values, _, emitted, _, List.mem_append_right _ (.head _), rfl, _, _, rfl, perm⟩

/-- An array with every global of a list once has as many elements as there are collected globals. -/
lemma CollectsOnce.length {globals : List GlobalVariable} (once : CollectsOnce N F M globals)
    (gathered : gather F M = .ok g) : globals.length = g.collected.length := by
  obtain ⟨g', values, M', ran, _⟩ := id once
  rw [emitArea, bind_ok gathered] at ran
  obtain ⟨values', valued, _⟩ := bind_eq_ok.1 ran
  have perm := ((collectsOnce_iff_perm gathered valued).1 once).length_eq
  rw [List.length_map, List.length_map, castedValues, List.length_map,
    initializers_length valued] at perm
  exact perm.symm

/-- The globals with a section that a turn finds have been in the module from the start. -/
lemma turn_survivors
    (turn : (F, Mk) ∈ turns N (InitializeZephyrSectionFinders M) M) :
    (Mk.globals.filter fun G => G.section_ ≠ "").Sublist M.globals := by
  refine turns_keep (P := fun Mk => (Mk.globals.filter fun G => G.section_ ≠ "").Sublist M.globals)
    ?_ List.filter_sublist turn
  intro M1 F' _ M2 before ran
  obtain ⟨g, values, _, _, emitted⟩ := collectFinder_eq_ok ran
  have fewer := (emitSymbols_emits emitted).fewer.filter fun G => G.section_ ≠ ""
  rw [emitLinkerScriptGlobal_globals, List.filter_append,
    List.filter_cons_of_neg (by simp [SectionGV]), List.filter_nil, List.append_nil] at fewer
  exact fewer.trans before

/-- What a turn finds was in the module from the start. -/
lemma turn_matching (turn : (F, Mk) ∈ turns N (InitializeZephyrSectionFinders M) M) :
    (Mk.globals.filter F.Matches).Sublist (M.globals.filter F.Matches) := by
  have survivors := (turn_survivors turn).filter F.Matches
  rw [List.filter_filter] at survivors
  have same : Mk.globals.filter F.Matches =
      Mk.globals.filter fun G => F.Matches G && decide (G.section_ ≠ "") := by
    refine List.filter_congr fun G _ => ?_
    cases matched : F.Matches G with
    | false => rfl
    | true =>
      rw [SectionFinder.Matches, Bool.and_eq_true] at matched
      exact matched.1.symm
  rw [same]
  exact survivors

/-- Every matching global is in the array once if and only if no other one has its section and it is
still there at the finder's turn. -/
theorem collected_once_iff
    (turn : (F, Mk) ∈ turns N (InitializeZephyrSectionFinders M) M)
    (typed : ∀ G ∈ M.globals, F.Matches G → G.initializer.isSome ∧ G.valueType = F.arrayType Mk) :
    CollectsOnce N F Mk (M.globals.filter F.Matches) ↔
      ((M.globals.filter F.Matches).map GlobalVariable.section_).Nodup ∧
        ∀ G ∈ M.globals, F.Matches G → G ∈ Mk.globals := by
  obtain ⟨g, gathered, inv⟩ := gather_ok F Mk
  have sub := turn_matching turn
  have known : ∀ G ∈ g.collected, G.initializer.isSome ∧ G.valueType = g.elemType Mk := by
    intro G mem
    obtain ⟨memM, matched⟩ := List.mem_filter.1 (sub.subset (inv.grouped.subset _ mem))
    have := typed G memM matched
    rwa [SectionFinder.arrayType, gathered] at this
  obtain ⟨values, valued, same⟩ := initializers_ok fun G mem => (known G mem).1
  -- no value becomes null: the types are those of the array
  have casted : castedValues (g.elemType Mk) values = values := by
    refine castedValues_of_typed fun v mem => ?_
    have init : some v ∈ g.collected.map GlobalVariable.initializer :=
      same ▸ List.mem_map_of_mem mem
    obtain ⟨G, memG, init⟩ := List.mem_map.1 init
    exact (G.typed v init).trans (known G memG).2
  rw [collectsOnce_iff_perm gathered valued, casted, same]
  refine (selection_perm_iff (inv.grouped.nodup g.finder.nodup) (inv.grouped.subset _) sub
    (inv.grouped.covered inv.levels) GlobalVariable.initializer).trans
      (and_congr_right fun _ => ⟨fun still G mem matched => ?_, fun still G mem => ?_⟩)
  · exact (List.mem_filter.1 (still (List.mem_filter.2 ⟨mem, matched⟩))).1
  · obtain ⟨mem, matched⟩ := List.mem_filter.1 mem
    exact List.mem_filter.2 ⟨still G mem matched, matched⟩

/-- Renaming to a name longer than all others. -/
def longest : Naming where
  rename used _ := String.ofList (List.replicate ((used.map String.length).sum + 1) 'x')
  fresh used name mem := by
    have := List.single_le_sum (l := used.map String.length) (fun _ _ => Nat.zero_le _) _
      (List.mem_map_of_mem mem)
    rw [String.length_ofList, List.length_replicate] at this
    omega

/-- A `struct nsi_hw_event_st` in a section. -/
def hwEvent (name section_ text : String) : GlobalVariable where
  name := name
  section_ := section_
  valueType := .named "%struct.nsi_hw_event_st"
  initializer := some (.value (.named "%struct.nsi_hw_event_st") text)
  typed C mem := by
    cases mem
    rfl

/-- Two events, the first one of priority 1. -/
def twoEvents (section_ : String) : Module where
  globals := [hwEvent "__nsi_hw_event_1" ".nsi_hw_event_1" "{1, 2}",
    hwEvent "__nsi_hw_event_2" section_ "{2, 4}"]
  aliases := []
  functions := []
  nodup := by simp [symbolTable, hwEvent]

/-- The finders before the one for the events. -/
def beforeEvents : List SectionFinder :=
  mandatory.map .static ++ [.native nativePreTasks, .native nsiTasks]

/-- The module when the turn of the finder for the events comes. -/
def eventsTurn (M : Module) : Module :=
  (beforeEvents.foldlM (collectFinder longest) M).toOption.getD M

/-- Events of different priority are both collected. -/
theorem collected_once_iff_two_events :
    CollectsOnce longest (.native nsiHwEvents) (eventsTurn (twoEvents ".nsi_hw_event_2"))
      ((twoEvents ".nsi_hw_event_2").globals.filter (SectionFinder.native nsiHwEvents).Matches) := by
  have ran : beforeEvents.foldlM (collectFinder longest) (twoEvents ".nsi_hw_event_2") =
      .ok (eventsTurn (twoEvents ".nsi_hw_event_2")) := rfl
  have turn : (SectionFinder.native nsiHwEvents, eventsTurn (twoEvents ".nsi_hw_event_2")) ∈
      turns longest (InitializeZephyrSectionFinders (twoEvents ".nsi_hw_event_2"))
        (twoEvents ".nsi_hw_event_2") := turn_of_run ran
  refine (collected_once_iff turn (by decide)).2 ⟨by decide, fun G mem _ => ?_⟩
  have still : (eventsTurn (twoEvents ".nsi_hw_event_2")).globals.take 2 =
      (twoEvents ".nsi_hw_event_2").globals := rfl
  exact List.mem_of_mem_take (still ▸ mem)

/-- Of two events of one priority, one is lost. -/
theorem one_priority_loses_event :
    ∃ M Mk : Module, ∃ F : SectionFinder,
      (F, Mk) ∈ turns longest (InitializeZephyrSectionFinders M) M ∧
      (∀ G ∈ M.globals, F.Matches G → G.initializer.isSome ∧ G.valueType = F.arrayType Mk) ∧
      ¬ CollectsOnce longest F Mk (M.globals.filter F.Matches) := by
  have ran : beforeEvents.foldlM (collectFinder longest) (twoEvents ".nsi_hw_event_1") =
      .ok (eventsTurn (twoEvents ".nsi_hw_event_1")) := rfl
  refine ⟨twoEvents ".nsi_hw_event_1", eventsTurn (twoEvents ".nsi_hw_event_1"), .native nsiHwEvents,
    turn_of_run ran, by decide, fun once => ?_⟩
  obtain ⟨g, gathered, _⟩ := gather_ok (.native nsiHwEvents) (eventsTurn (twoEvents ".nsi_hw_event_1"))
  have one : (gather (.native nsiHwEvents) (eventsTurn (twoEvents ".nsi_hw_event_1"))).toOption.map
      (fun g => g.collected.length) = some 1 := by decide
  have two : ((twoEvents ".nsi_hw_event_1").globals.filter
      (SectionFinder.native nsiHwEvents).Matches).length = 2 := by decide
  have same := once.length gathered
  rw [gathered] at one
  have count : g.collected.length = 1 := Option.some.inj one
  omega

end Irx.Sections
