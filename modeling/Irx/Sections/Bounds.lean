import Irx.Sections.Apart
import Irx.Sections.Once

/-!
# Start and end of an array

The end symbol is placed at `values.size()+1`: one element behind the end of the array. The start symbol
of a finder without levels is not placed at all. So no run leaves the two symbols as many elements
apart as were collected.
-/

namespace Irx.Sections
open Irx.Lib SectionFinder

variable {N : Naming} {M Mk M' : Module} {F : SectionFinder}

/-- After the run, the start and the end symbol are aliases into one array, and they are as many
elements apart as globals were collected. -/
def SpansCollected (N : Naming) (M : Module) (F : SectionFinder) : Prop :=
  ∃ M' Mk g, collectLinkerScriptSections N M = .ok M' ∧
    (F, Mk) ∈ turns N (InitializeZephyrSectionFinders M) M ∧ gather F Mk = .ok g ∧
    ∃ A ∈ M'.aliases, ∃ B ∈ M'.aliases, A.name = F.start ∧ B.name = F.stop ∧ A.area = B.area ∧
      B.position - A.position = g.collected.length

/-- The start points to the first element. -/
lemma GA_start_position (sec : String) (valueType : IRType) (area : String) (count : Nat) :
    (GA sec valueType area count 0).position = 0 := by
  have indices : gepIndices count 0 = (0, 0) := by
    rw [gepIndices, if_neg fun h => h.1 h.2.symm]
  rw [GA, GlobalAlias.position, indices]
  simp [signed32]

/-- The place of the end symbol is never that of the end. -/
lemma GA_stop_position (sec : String) (valueType : IRType) (area : String) (count : Nat) :
    (GA sec valueType area count (count + 1)).position ≠ count := by
  have indices : gepIndices count (count + 1) = (0, (count + 1) % 4294967296) := by
    rw [gepIndices, if_neg fun h => Nat.succ_ne_self count h.2]
  have zero : signed32 0 = 0 := rfl
  rw [GA, GlobalAlias.position, indices, zero, Int.zero_mul, Int.zero_add, signed32]
  dsimp only
  split <;> omega

/-- The turn of a finder leaves a global that is none of its symbols, and all aliases. -/
lemma other_turn {F' : SectionFinder} {G : GlobalVariable} (initial : F'.Initial)
    (apart : G.name ∉ F'.boundary ∧ ¬ F'.Label G.name) (ran : collectFinder N M F' = .ok M') :
    (G ∈ M.globals → G ∈ M'.globals) ∧ M.aliases ⊆ M'.aliases := by
  obtain ⟨g, values, gathered, _, emitted⟩ := collectFinder_eq_ok ran
  have emits := emitSymbols_emits emitted
  refine ⟨fun mem => emits.kept G (List.mem_append_left _ mem) fun symbol => ?_, emits.aliases⟩
  obtain other | label := initial.symbols (gathers_of_gather gathered).grown symbol
  · exact apart.1 other
  · exact apart.2 label

/-- Turns with other symbols keep the global. -/
lemma other_turns {finders : List SectionFinder} {G : GlobalVariable}
    (others : ∀ F' ∈ finders, F'.Initial ∧ G.name ∉ F'.boundary ∧ ¬ F'.Label G.name)
    (ran : finders.foldlM (collectFinder N) M = .ok M') :
    (G ∈ M.globals → G ∈ M'.globals) ∧ M.aliases ⊆ M'.aliases := by
  refine foldlM_keeps
    (P := fun M' => (G ∈ M.globals → G ∈ M'.globals) ∧ M.aliases ⊆ M'.aliases) ?_
    ⟨id, fun _ mem => mem⟩ ran
  intro M1 F' mem M2 before step
  obtain ⟨initial, apart⟩ := others F' mem
  have after := other_turn initial apart step
  exact ⟨fun mem => after.1 (before.1 mem), fun _ mem => after.2 (before.2 mem)⟩

/-- After the finder's own turn the end symbol is an alias one element behind the end of the array;
the start symbol is one to its start, or it is left as it was. -/
lemma own_turn {g : Gathered} {G G' : GlobalVariable} (initial : F.Initial)
    (gathered : gather F M = .ok g) (ran : collectFinder N M F = .ok M') (mem : G ∈ M.globals)
    (start : G.name = F.start) (mem' : G' ∈ M.globals) (stop : G'.name = F.stop) :
    ∃ area, GA F.stop G'.valueType area g.collected.length (g.collected.length + 1) ∈ M'.aliases ∧
      (G ∈ M'.globals ∨ GA F.start G.valueType area g.collected.length 0 ∈ M'.aliases) := by
  obtain ⟨ne, unlabelled⟩ := initial.stop_apart
  obtain ⟨g', values, gathered', valued, emitted⟩ := collectFinder_eq_ok ran
  cases gathered.symm.trans gathered'
  have grown := (gathers_of_gather gathered).grown
  obtain ⟨M1, M2, first, second, third⟩ := emitSymbols_eq_ok emitted
  rw [grown.start] at first
  rw [grown.stop] at third
  rw [← initializers_length valued]
  have mem0 : G ∈ (emitLinkerScriptGlobal N M F.sectionName (g.elemType M) values).globals :=
    List.mem_append_left _ mem
  have mem0' : G' ∈ (emitLinkerScriptGlobal N M F.sectionName (g.elemType M) values).globals :=
    List.mem_append_left _ mem'
  -- neither the start nor a level takes the end symbol away before its turn
  have stop1 : G' ∈ M1.globals := by
    obtain ⟨_, rfl⟩ | ⟨_, first⟩ := first
    · exact mem0'
    · refine (emitLinkerScriptGlobalsOffset_emits first).kept G' mem0' fun e => ne ?_
      exact (stop.symm.trans e).symm
  have stop2 : G' ∈ M2.globals :=
    second.kept G' stop1 fun h => unlabelled (stop ▸ initial.label grown h)
  refine ⟨N.newName M F.sectionName, ?_, ?_⟩
  · obtain ⟨none, _⟩ | ⟨G1, found, alias_, _⟩ := emitLinkerScriptGlobalsOffset_cases third
    · rw [← stop, Module.getNamedGlobal_of_mem stop2] at none
      cases none
    · rw [← stop, Module.getNamedGlobal_of_mem stop2] at found
      cases found
      exact alias_
  · obtain ⟨empty, rfl⟩ | ⟨_, first⟩ := first
    · left
      refine (emitLinkerScriptGlobalsOffset_emits third).kept G (second.kept G mem0 ?_) ?_
      · rintro ⟨level, known, _⟩
        rw [empty] at known
        cases known
      · exact fun e => ne (start.symm.trans e)
    · right
      obtain ⟨none, _⟩ | ⟨G1, found, alias_, _⟩ := emitLinkerScriptGlobalsOffset_cases first
      · rw [← start, Module.getNamedGlobal_of_mem mem0] at none
        cases none
      · rw [← start, Module.getNamedGlobal_of_mem mem0] at found
        cases found
        exact (emitLinkerScriptGlobalsOffset_emits third).aliases (second.aliases (start ▸ alias_))

/-- No run leaves declared start and end symbols as many elements apart as were collected. -/
theorem never_spans_collected (N : Naming) (M : Module) (F : SectionFinder)
    (start : (M.getNamedGlobal F.start).isSome) (stop : (M.getNamedGlobal F.stop).isSome) :
    ¬ SpansCollected N M F := by
  rintro ⟨M', Mk, g, ran, turn, gathered, A, memA, B, memB, nameA, nameB, area, distance⟩
  obtain ⟨G, found⟩ := Option.isSome_iff_exists.1 start
  obtain ⟨G', found'⟩ := Option.isSome_iff_exists.1 stop
  obtain ⟨mem, name⟩ := Module.getNamedGlobal_some found
  obtain ⟨mem', name'⟩ := Module.getNamedGlobal_some found'
  have boundary : G.name ∈ F.boundary := name ▸ .head _
  have boundary' : G'.name ∈ F.boundary := name' ▸ .tail _ (.head _)
  obtain ⟨pre, post, finders, before⟩ := run_of_turn turn
  -- the finders around this one leave its two symbols alone
  have initial : ∀ F' ∈ pre ++ F :: post, F'.Initial := fun F' mem =>
    initial_of_mem (finders ▸ mem)
  have apart := finders ▸ finders_apart M
  obtain ⟨_, apart, apart'⟩ := List.pairwise_append.1 apart
  have pre_apart : ∀ s ∈ F.boundary, ∀ F' ∈ pre, F'.Initial ∧ s ∉ F'.boundary ∧ ¬ F'.Label s :=
    fun s here F' mem =>
      ⟨initial F' (List.mem_append_left _ mem), (apart' F' mem F (.head _)).2 s here⟩
  have post_apart : ∀ s ∈ F.boundary, ∀ F' ∈ post, F'.Initial ∧ s ∉ F'.boundary ∧ ¬ F'.Label s :=
    fun s here F' mem => ⟨initial F' (List.mem_append_right _ (.tail _ mem)),
      ((List.pairwise_cons.1 apart).1 F' mem).1 s here⟩
  rw [collectLinkerScriptSections, finders, List.foldlM_append, bind_ok before,
    List.foldlM_cons] at ran
  obtain ⟨M1, own, after⟩ := bind_eq_ok.1 ran
  obtain ⟨area', stopped, started⟩ := own_turn
    (initial F (List.mem_append_right _ (.head _))) gathered own
    ((other_turns (pre_apart _ boundary) before).1 mem) name
    ((other_turns (pre_apart _ boundary') before).1 mem') name'
  have later := other_turns (post_apart _ boundary) after
  have endB := Module.alias_unique memB (later.2 stopped) nameB
  obtain left | started := started
  · -- without levels the start symbol is still a global variable
    exact Module.alias_not_global memA (later.1 left) (nameA.trans name.symm)
  · have startA := Module.alias_unique memA (later.2 started) nameA
    rw [endB, startA, GA_start_position, Int.sub_zero] at distance
    exact GA_stop_position _ _ _ _ distance

/-- A symbol declared as `extern struct nsi_hw_event_st name[]`. -/
def eventsSymbol (name : String) : GlobalVariable :=
  ⟨name, "", .array 0 (.named "%struct.nsi_hw_event_st"), none, nofun⟩

/-- Two events with their start and end symbols. -/
def declaredEvents : Module where
  globals := [hwEvent "__nsi_hw_event_1" ".nsi_hw_event_11" "{1, 2}",
    hwEvent "__nsi_hw_event_2" ".nsi_hw_event_12" "{2, 4}",
    eventsSymbol "__nsi_hw_events_start", eventsSymbol "__nsi_hw_events_end"]
  aliases := []
  functions := []
  nodup := by decide

/-- The symbols of the two events are declared. -/
theorem never_spans_collected_events :
    ¬ SpansCollected longest declaredEvents (.native nsiHwEvents) :=
  never_spans_collected longest declaredEvents (.native nsiHwEvents) (by decide) (by decide)

/-- The symbols of two collected events are three elements apart. -/
theorem two_events_span_three :
    ∃ M' Mk : Module, ∃ g : Gathered,
      collectLinkerScriptSections longest declaredEvents = .ok M' ∧
      (SectionFinder.native nsiHwEvents, Mk) ∈
        turns longest (InitializeZephyrSectionFinders declaredEvents) declaredEvents ∧
      gather (.native nsiHwEvents) Mk = .ok g ∧ g.collected.length = 2 ∧
      M'.aliases.map (fun A => (A.name, A.area, A.position)) =
        [("__nsi_hw_events_start", "nsi_hw_events", 0),
          ("__nsi_hw_events_end", "nsi_hw_events", 3)] := by
  have before : beforeEvents.foldlM (collectFinder longest) declaredEvents =
      .ok (eventsTurn declaredEvents) := rfl
  obtain ⟨g, gathered, _⟩ := gather_ok (.native nsiHwEvents) (eventsTurn declaredEvents)
  have two : (gather (.native nsiHwEvents) (eventsTurn declaredEvents)).toOption.map
      (fun g => g.collected.length) = some 2 := by decide
  have aliases : (collectLinkerScriptSections longest declaredEvents).toOption.map
      (fun M' => M'.aliases.map fun A => (A.name, A.area, A.position)) =
        some [("__nsi_hw_events_start", "nsi_hw_events", 0),
          ("__nsi_hw_events_end", "nsi_hw_events", 3)] := by decide
  rw [gathered] at two
  cases ran : collectLinkerScriptSections longest declaredEvents with
  | error e =>
    rw [ran] at aliases
    cases aliases
  | ok M' =>
    rw [ran] at aliases
    exact ⟨M', _, g, rfl, turn_of_run before, gathered, Option.some.inj two, Option.some.inj aliases⟩

end Irx.Sections
