import Irx.Sections.Aliasees

/-!
# Where the levels start

The start symbol of each level of a native section should become an alias for the element of the array
behind the entries of the earlier levels, whichever levels are empty (`LevelsStart`). Where the declared
symbols fit the element types, this fails for two reasons only: a collected global is a declaration, or a
turn replaces an array that is still needed. `levels_start_iff` states it over the modules that the turns
find. The second reason is met by static objects `a` and `aa`: the finder of the first one takes the
sections of the second one for its level `a`, whose symbol `a_area` is its own array.
-/

namespace Irx.Sections
open Irx.Lib SectionFinder

variable {N : Naming} {M M' Mk : Module} {F : SectionFinder} {g : Gathered} {conf : SectionTypeConfig}
variable {s L : String} {i : Nat}

/-- After the run, the declared symbol of each level of each native section is an alias for the element of
its array behind the entries of the earlier levels, and its entries are those up to the next level. -/
def LevelsStart (N : Naming) (M : Module) : Prop :=
  ∃ M', collectLinkerScriptSections N M = .ok M' ∧ ∀ conf ∈ configs, ∃ Mk g,
    (native conf, Mk) ∈ turns N (InitializeZephyrSectionFinders M) M ∧ gather (native conf) Mk = .ok g ∧
    ∀ i L symbol, conf.INITLIST[i]? = some L → (native conf).name L = .ok symbol →
      (M.getNamedGlobal symbol).isSome →
      Redirected M' symbol (N.newName Mk conf.sectionName) g.collected.length (g.before i) ∧
      g.before (i + 1) = g.before i + (g.GVs L).values.length ∧
      (g.collected.drop (g.before i)).take (g.before (i + 1) - g.before i) = (g.GVs L).values

/-- The declared symbols of a turn are of the element type or arrays of it. -/
def SymbolsFit (F : SectionFinder) (M : Module) : Prop :=
  ∀ s, F.HasSymbol M s → ∀ G, M.getNamedGlobal s = some G →
    G.valueType = F.arrayType M ∨ ∃ n, G.valueType = .array n (F.arrayType M)

/-- The declared start symbols of native levels. -/
def Module.levelStarts (M : Module) : Set String :=
  {s | (M.getNamedGlobal s).isSome ∧ ∃ conf ∈ configs, s ∈ levelNames conf}

/-- What the turn of a finder has to find for the native levels to start where they should. -/
structure ArraysKept (N : Naming) (S : Set String) (F : SectionFinder) (M : Module) : Prop where
  /-- No collected global is a declaration. -/
  defined : ∀ G, F.Collects M G → G.initializer.isSome
  /-- None but the end symbol is the array of this turn. -/
  own : ¬ F.Front M (N.newName M F.sectionName)
  /-- Nor is the end symbol, where a symbol leads to the array. -/
  last : (∃ s ∈ S, F.HasSymbol M s) → N.newName M F.sectionName ≠ F.stop
  /-- No symbol is an array of an earlier turn that a symbol leads to. -/
  earlier : ∀ A ∈ M.aliases, A.name ∈ S → ¬ F.Symbol M A.area

/-! ### Symbols of native levels in a run -/

/-- The symbols of a finder, without the module. -/
lemma symbol_known (initial : F.Initial) (has : F.HasSymbol M s) : s ∈ F.boundary ∨ F.Label s := by
  rcases has with rfl | level | rfl
  · exact .inl (.head _)
  · obtain ⟨g, gathered, inv⟩ := gather_ok F M
    exact .inr (label_of_mem initial inv.grown ((mem_levelPlaces_iff initial gathered).2 level))
  · exact .inl (.tail _ (.head _))

/-- A symbol of a native level is one of the finder of its section only. -/
lemma finder_of_level (known : conf ∈ configs) (mem : s ∈ levelNames conf) (initial : F.Initial)
    (symbol : s ∈ F.boundary ∨ F.Label s) : F = native conf := by
  apply Classical.byContradiction
  intro ne
  obtain ⟨boundary, label⟩ := level_other known mem initial ne
  exact symbol.elim boundary label

/-- No boundary symbol is the symbol of a native level. -/
lemma boundary_not_level (known : conf ∈ configs) (initial : F.Initial) (mem : s ∈ F.boundary) :
    s ∉ levelNames conf := by
  intro level
  cases finder_of_level known level initial (.inl mem)
  exact level_not_boundary conf known s level mem

/-- The declared symbol of a native level is still declared when its turn comes. -/
lemma level_still (turn : (native conf, Mk) ∈ turns N (InitializeZephyrSectionFinders M) M)
    (known : conf ∈ configs) (mem : s ∈ levelNames conf) (declared : (M.getNamedGlobal s).isSome) :
    (Mk.getNamedGlobal s).isSome := by
  obtain ⟨pre, post, finders, before⟩ := run_of_turn turn
  obtain ⟨G, found⟩ := Option.isSome_iff_exists.1 declared
  obtain ⟨memG, rfl⟩ := Module.getNamedGlobal_some found
  have others : ∀ F ∈ pre, F.Initial ∧ G.name ∉ F.boundary ∧ ¬ F.Label G.name := by
    intro F there
    have initial : F.Initial := initial_of_mem (finders ▸ List.mem_append_left _ there)
    refine ⟨initial, level_other known mem initial fun same => ?_⟩
    -- no finder has two turns
    have nodup := finders ▸ finders_nodup M
    exact (List.nodup_append.1 nodup).2.2 F there _ (.head _) same
  rw [Module.getNamedGlobal_of_mem ((other_turns others before).1 memG)]
  rfl

/-! ### The levels -/

/-- The symbol of the `i`-th native level has its place in the turn. -/
lemma level_place (known : conf ∈ configs) (gathered : gather (native conf) Mk = .ok g)
    (level : conf.INITLIST[i]? = some L) (named : (native conf).name L = .ok s) :
    (s, g.before i) ∈ g.places := by
  have own := grown_native (gathers_of_gather gathered).grown
  have level' : g.finder.list[i]? = some L := by
    rw [own]
    exact level
  refine .tail _ (List.mem_append_left _ (List.mem_filterMap.2 ⟨(L, g.before i), ?_, ?_⟩))
  · exact List.mem_iff_getElem?.2
      ⟨i, List.getElem?_zip_eq_some.2 ⟨level', g.indices_getElem? level'⟩⟩
  · have filled := (levelOf_level conf known L (List.mem_of_getElem? level)).1
    rw [levelPlace, if_neg filled, own, named]
    rfl

/-- A native level symbol with a place in the turn of its finder is that of a level with this place. -/
lemma level_of_place (known : conf ∈ configs) (gathered : gather (native conf) Mk = .ok g)
    {e : String × Nat} (mem : e ∈ g.places) (label : e.1 ∈ levelNames conf) :
    ∃ i L, conf.INITLIST[i]? = some L ∧ (native conf).name L = .ok e.1 ∧ e.2 = g.before i := by
  have own := grown_native (gathers_of_gather gathered).grown
  have inside := level_not_boundary conf known e.1 label
  rcases List.mem_cons.1 mem with rfl | mem
  · rw [own] at inside
    exact absurd (.head _) inside
  · rcases List.mem_append.1 mem with level | stop
    · obtain ⟨i, L, at_, named, place⟩ := mem_levelPlaces level
      rw [own] at at_ named
      exact ⟨i, L, at_, named, place⟩
    · cases List.mem_singleton.1 stop
      rw [own] at inside
      exact absurd (.tail _ (.head _)) inside

/-- The levels start where they should if and only if their symbols are redirected. -/
lemma levelsStart_iff_redirects : LevelsStart N M ↔ Redirects N M M.levelStarts := by
  constructor
  · rintro ⟨M', ran, start⟩
    refine ⟨M', ran, fun F Mk g turn gathered e mem label => ?_⟩
    obtain ⟨declared, conf, known, label⟩ := label
    have initial := initial_of_turn turn
    have has : F.HasSymbol Mk e.1 := (mem_places_iff initial gathered).1 (List.mem_map_of_mem mem)
    cases finder_of_level known label initial (symbol_known initial has)
    obtain ⟨Mk', g', turn', gathered', start⟩ := start conf known
    cases turn_unique (finders_nodup M) turn turn'
    cases gathered.symm.trans gathered'
    obtain ⟨i, L, level, named, place⟩ := level_of_place known gathered mem label
    rw [place]
    exact (start i L e.1 level named declared).1
  · rintro ⟨M', ran, redirected⟩
    refine ⟨M', ran, fun conf known => ?_⟩
    have own : native conf ∈ InitializeZephyrSectionFinders M :=
      List.mem_append_right _ (List.mem_map_of_mem known)
    obtain ⟨Mk, turn⟩ := turn_of_mem own ran
    obtain ⟨g, gathered, inv⟩ := gather_ok (native conf) Mk
    refine ⟨Mk, g, turn, gathered, fun i L symbol level named declared => ?_⟩
    have level' : g.finder.list[i]? = some L := by
      rw [grown_native inv.grown]
      exact level
    refine ⟨?_, g.before_succ level', g.entries_of_level level'⟩
    refine redirected _ Mk g turn gathered _ (level_place known gathered level named) ?_
    refine ⟨declared, conf, known, ?_⟩
    have mem := List.mem_of_getElem? level
    cases (name_level known mem).symm.trans named
    exact List.mem_map_of_mem mem

/-- For the start symbols of native levels, symbols that fit leave the arrays to be kept. -/
lemma redirectable_iff_arraysKept
    (turn : (F, Mk) ∈ turns N (InitializeZephyrSectionFinders M) M) (fit : SymbolsFit F Mk) :
    Redirectable N M.levelStarts F Mk ↔ ArraysKept N M.levelStarts F Mk := by
  have initial := initial_of_turn turn
  constructor
  · exact fun fits => ⟨fits.defined, fits.own, fits.last, fits.earlier⟩
  · intro kept
    refine ⟨kept.defined, ?_, kept.own, ?_, ?_, ?_, kept.last, kept.earlier⟩
    · rintro s symbol G mem rfl
      have has : F.HasSymbol Mk G.name := by
        rcases symbol with (⟨start, _⟩ | level) | stop
        · exact .inl start
        · exact .inr (.inl level)
        · exact .inr (.inr stop)
      rcases fit G.name has G (Module.getNamedGlobal_of_mem mem) with same | ⟨n, same⟩
      · exact .inl same
      · exact .inr (same ▸ rfl)
    · rintro s ⟨declared, conf, known, label⟩ has
      cases finder_of_level known label initial (symbol_known initial has)
      exact level_still turn known label declared
    · rintro ⟨_, conf, known, label⟩
      exact absurd label (boundary_not_level known initial (.head _))
    · rintro ⟨_, conf, known, label⟩
      exact boundary_not_level known initial (.tail _ (.head _)) label

/-- Where the declared symbols fit, the native levels start where they should if and only if every
turn collects defined globals and replaces no array that is still needed. -/
theorem levels_start_iff (N : Naming) (M : Module)
    (fit : ∀ F Mk, (F, Mk) ∈ turns N (InitializeZephyrSectionFinders M) M → SymbolsFit F Mk)
    (limit : ∀ F Mk g, (F, Mk) ∈ turns N (InitializeZephyrSectionFinders M) M → gather F Mk = .ok g →
      g.collected.length ≤ maxOperands) :
    LevelsStart N M ↔
      ∀ F Mk, (F, Mk) ∈ turns N (InitializeZephyrSectionFinders M) M →
        ArraysKept N M.levelStarts F Mk := by
  have declared : M.levelStarts ⊆ M.declared := fun s mem => mem.1
  rw [levelsStart_iff_redirects, redirects_iff declared limit]
  exact forall_congr' fun F => forall_congr' fun Mk => forall_congr' fun turn =>
    redirectable_iff_arraysKept turn (fit F Mk turn)

/-- What a turn gathers decides whether its declared symbols fit. -/
lemma symbolsFit_of_gathered (initial : F.Initial) (gathered : gather F M = .ok g)
    (fit : ∀ s ∈ g.places.map Prod.fst, ∀ G ∈ M.getNamedGlobal s, G.valueType = g.elemType M ∨
      G.valueType.getArrayElementType = .ok (g.elemType M)) : SymbolsFit F M := by
  intro s has G found
  rw [arrayType_eq gathered]
  rcases fit s ((mem_places_iff initial gathered).2 has) G found with same | elem
  · exact .inl same
  · cases type : G.valueType with
    | named name =>
      rw [type] at elem
      cases elem
    | array n Ty =>
      rw [type] at elem
      cases elem
      exact .inr ⟨n, rfl⟩

/-- Fewer symbols need fewer arrays. -/
lemma Redirectable.arraysKept {S S' : Set String} (fits : Redirectable N S F M) (sub : S' ⊆ S) :
    ArraysKept N S' F M where
  defined := fits.defined
  own := fits.own
  last := fun ⟨s, mem, has⟩ => fits.last ⟨s, sub mem, has⟩
  earlier := fun A memA mem => fits.earlier A memA (sub mem)

/-- The levels of the tasks start where they should. -/
theorem levels_start_iff_tasks : LevelsStart longest declaredTasks := by
  have fit : ∀ turn ∈ turns longest (InitializeZephyrSectionFinders declaredTasks) declaredTasks,
      ∀ g ∈ (gather turn.1 turn.2).toOption, ∀ s ∈ g.places.map Prod.fst,
        ∀ G ∈ turn.2.getNamedGlobal s, G.valueType = g.elemType turn.2 ∨
          G.valueType.getArrayElementType = .ok (g.elemType turn.2) := by decide
  refine (levels_start_iff longest declaredTasks ?_ ?_).2 ?_
  · intro F Mk turn
    obtain ⟨g, gathered, _⟩ := gather_ok F Mk
    exact symbolsFit_of_gathered (initial_of_turn turn) gathered
      (fit (F, Mk) turn g (by rw [gathered]; rfl))
  · exact fun F Mk g turn gathered => (collected_le turn gathered).trans (by decide)
  · intro F Mk turn
    obtain ⟨g, gathered, _⟩ := gather_ok F Mk
    have checked := tasks_redirectable (F, Mk) turn g (by rw [gathered]; rfl)
    exact (redirectable_of_gathered (initial_of_turn turn) gathered checked).arraysKept
      fun s mem => mem.1

/-- A static object `a`, one with the longer name `aa`, and a task with the symbol of its level. -/
def prefixedObjects : Module where
  globals := [hwEvent "x" "._a.static.x" "{x}", hwEvent "y" "._aa.static.y" "{y}",
    hwEvent "t" ".native_PRE_BOOT_11" "{t}", eventsSymbol "__native_PRE_BOOT_1_tasks_start"]
  aliases := []
  functions := []
  nodup := by decide

/-- The level symbol `a_area` erases the array of `a`, whose end symbol reads it. -/
theorem prefixed_object_erases_array :
    (∀ F Mk, (F, Mk) ∈ turns longest (InitializeZephyrSectionFinders prefixedObjects) prefixedObjects →
      SymbolsFit F Mk ∧ ∀ G, F.Collects Mk G → G.initializer.isSome) ∧
    collectLinkerScriptSections longest prefixedObjects = .error .undefined ∧
    ¬ LevelsStart longest prefixedObjects := by
  have ran : collectLinkerScriptSections longest prefixedObjects = .error .undefined := rfl
  have fit : ∀ turn ∈ turns longest (InitializeZephyrSectionFinders prefixedObjects) prefixedObjects,
      ∀ g ∈ (gather turn.1 turn.2).toOption, (∀ G ∈ g.collected, G.initializer.isSome) ∧
        ∀ s ∈ g.places.map Prod.fst, ∀ G ∈ turn.2.getNamedGlobal s, G.valueType = g.elemType turn.2 ∨
          G.valueType.getArrayElementType = .ok (g.elemType turn.2) := by decide
  refine ⟨fun F Mk turn => ?_, ran, ?_⟩
  · obtain ⟨g, gathered, _⟩ := gather_ok F Mk
    obtain ⟨defined, fit⟩ := fit (F, Mk) turn g (by rw [gathered]; rfl)
    exact ⟨symbolsFit_of_gathered (initial_of_turn turn) gathered fit,
      fun G collects => defined G ((mem_collected_iff gathered).2 collects)⟩
  · rintro ⟨M', ran', _⟩
    cases ran.symm.trans ran'

end Irx.Sections
