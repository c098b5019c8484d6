import Irx.Sections.Emissions

/-!
# What becomes of declared symbols

A declared start, level or end symbol should become an alias for its place in the array of its section,
whatever its type is (`SymbolsRedirected`). `symbols_redirected_iff` says when this is so: a symbol of another
type than the element type, unless it is an array, leaves the aliasee null, a symbol that is the array itself
erases it, and so on. The proof follows a declared symbol through the turns: to the turn of its finder it
stays what it is, or an earlier finder takes it; behind it the alias stays, and the array stays a global as
long as no finder has a symbol of its name. It works for any set of declared symbols (`Redirects`).
-/

namespace Irx.Sections
open Irx.Lib SectionFinder

variable {N : Naming} {M M' Mk : Module} {F : SectionFinder} {g : Gathered} {s area : String}
variable {G : GlobalVariable} {finders post : List SectionFinder} {S : Set String}

/-- The symbols of a turn with their places in the array. -/
def Gathered.places (g : Gathered) : List (String × Nat) :=
  (g.finder.start, 0) :: (g.levelPlaces ++ [(g.finder.stop, g.collected.length)])

/-- The symbol is an alias for the `k`-th element of the array, and the array is still there. -/
def Redirected (M : Module) (symbol area : String) (count k : Nat) : Prop :=
  StartsAt M symbol area count k ∧ ∃ G ∈ M.globals, G.name = area

/-- The run ends, and each symbol of the set that a section has is an alias for its place. -/
def Redirects (N : Naming) (M : Module) (S : Set String) : Prop :=
  ∃ M', collectLinkerScriptSections N M = .ok M' ∧
    ∀ F Mk g, (F, Mk) ∈ turns N (InitializeZephyrSectionFinders M) M → gather F Mk = .ok g →
      ∀ e ∈ g.places, e.1 ∈ S →
        Redirected M' e.1 (N.newName Mk F.sectionName) g.collected.length e.2

/-- The names that are declared as a global. -/
def Module.declared (M : Module) : Set String := {s | (M.getNamedGlobal s).isSome}

/-- The run ends, and each declared symbol of each section is an alias for its place. -/
def SymbolsRedirected (N : Naming) (M : Module) : Prop := Redirects N M M.declared

/-- A symbol of the finder: the start, a level or the end. -/
def SectionFinder.HasSymbol (F : SectionFinder) (M : Module) (s : String) : Prop :=
  s = F.start ∨ F.LevelSymbol M s ∨ s = F.stop

/-- What the turn of a finder has to find for the symbols of a set to be redirected. -/
structure Redirectable (N : Naming) (S : Set String) (F : SectionFinder) (M : Module) : Prop where
  /-- No collected global is a declaration. -/
  defined : ∀ G, F.Collects M G → G.initializer.isSome
  /-- The symbols are arrays or of the element type. -/
  typed : ∀ s, F.Symbol M s → Convertible (F.arrayType M) M s
  /-- None but the end symbol is the array of this turn. -/
  own : ¬ F.Front M (N.newName M F.sectionName)
  /-- No earlier finder has taken a symbol. -/
  still : ∀ s ∈ S, F.HasSymbol M s → (M.getNamedGlobal s).isSome
  /-- The start symbol is emitted. -/
  start : F.start ∈ S → ∃ L, F.LevelIn M L
  /-- The end symbol would be misplaced. -/
  stop : F.stop ∉ S
  /-- The end symbol does not take the array away from the symbols before it. -/
  last : (∃ s ∈ S, F.HasSymbol M s) → N.newName M F.sectionName ≠ F.stop
  /-- No symbol takes the array of an earlier turn away from the symbols that lead there. -/
  earlier : ∀ A ∈ M.aliases, A.name ∈ S → ¬ F.Symbol M A.area

/-! ### A turn -/

/-- A global whose initializer was read has one. -/
lemma defined_of_initializer {C : Constant} (own : G.getInitializer = .ok C) : G.initializer.isSome := by
  cases init : G.initializer with
  | none =>
    rw [GlobalVariable.getInitializer, init] at own
    cases own
  | some C' => rfl

/-- So have all globals of a list. -/
lemma defined_of_initializers {l : List GlobalVariable} {values : List Constant}
    (ran : l.mapM GlobalVariable.getInitializer = .ok values) : ∀ G ∈ l, G.initializer.isSome := by
  induction l generalizing values with
  | nil => exact nofun
  | cons G l ih =>
    rw [List.mapM_cons] at ran
    obtain ⟨C, own, after⟩ := bind_eq_ok.1 ran
    obtain ⟨rest, others, _⟩ := bind_eq_ok.1 after
    exact List.forall_mem_cons.2 ⟨defined_of_initializer own, ih others⟩

/-- A turn that ends converts the symbols of its list, in the module with the new array. -/
structure Turned (N : Naming) (F : SectionFinder) (M : Module) (g : Gathered) (M' : Module) : Prop where
  defined : ∀ G ∈ g.collected, G.initializer.isSome
  typed : ∀ e ∈ g.emitted, Convertible (g.elemType M) M e.1
  own : N.newName M F.sectionName ∉ g.front.map Prod.fst
  converted : ∃ values, Converted g.emitted (N.newName M F.sectionName) g.collected.length
    (emitLinkerScriptGlobal N M F.sectionName (g.elemType M) values) M'

/-- A turn that ends has taken its steps. -/
lemma turned_of_ok (initial : F.Initial) (gathered : gather F M = .ok g)
    (ran : collectFinder N M F = .ok M') : Turned N F M g M' := by
  obtain ⟨g', values, gathered', valued, emitted⟩ := collectFinder_eq_ok ran
  cases gathered.symm.trans gathered'
  have grown := (gathers_of_gather gathered).grown
  have length := initializers_length valued
  rw [emitSymbols_eq_emits initial grown length] at emitted
  obtain ⟨typed, converted⟩ := emits_eq_ok (emitted_nodup initial grown) emitted
  exact ⟨defined_of_initializers valued,
    fun e mem G memG => typed e mem G (List.mem_append_left _ memG),
    emits_own (front_nodup initial grown) emitted, values, length ▸ converted⟩

/-- The array is there when it has been emitted. -/
lemma newName_isSome (N : Naming) (M : Module) (sec : String) (Ty : IRType) (values : List Constant) :
    ((emitLinkerScriptGlobal N M sec Ty values).getNamedGlobal (N.newName M sec)).isSome := by
  have mem : SectionGV (N.newName M sec) Ty values ∈
      (emitLinkerScriptGlobal N M sec Ty values).globals := List.mem_append_right _ (.head _)
  have found := Module.getNamedGlobal_of_mem mem
  exact Option.isSome_iff_exists.2 ⟨_, found⟩

/-- A turn ends whose collected globals are defined and whose symbols fit, if it emits none behind one
that is the array. -/
lemma turn_ends (initial : F.Initial) (gathered : gather F M = .ok g)
    (defined : ∀ G ∈ g.collected, G.initializer.isSome)
    (typed : ∀ e ∈ g.emitted, Convertible (g.elemType M) M e.1)
    (own : N.newName M F.sectionName ∉ g.front.map Prod.fst) :
    ∃ M', collectFinder N M F = .ok M' := by
  have grown := (gathers_of_gather gathered).grown
  obtain ⟨values, valued, _⟩ := initializers_ok defined
  have area : emitArea N F M =
      .ok (g, values, emitLinkerScriptGlobal N M F.sectionName (g.elemType M) values) := by
    rw [emitArea, bind_ok gathered, Gathered.values, bind_ok valued]
  have fits : ∀ e ∈ g.emitted, Convertible (g.elemType M)
      (emitLinkerScriptGlobal N M F.sectionName (g.elemType M) values) e.1 := by
    intro e mem G memG name
    rcases List.mem_append.1 memG with memG | memG
    · exact typed e mem G memG name
    · -- the new array
      cases List.mem_singleton.1 memG
      exact .inr rfl
  have there := newName_isSome N M F.sectionName (g.elemType M) values
  obtain ⟨M1, front, con⟩ := emits_ok values (front_nodup initial grown) there own
    fun e mem => fits e (List.mem_append_left _ mem)
  have stop : Convertible (g.elemType M) M1 (g.finder.stop, g.collected.length + 1).1 := fun G memG =>
    fits _ (List.mem_append_right _ (.head _)) G ((con.globals G).1 memG).1
  obtain ⟨M', last, _⟩ := emit_ok values (con.isSome own there) stop
  refine ⟨M', ?_⟩
  rw [collectFinder, bind_ok area]
  show emitSymbols g values _ _ = _
  rw [emitSymbols_eq_emits initial grown (initializers_length valued), Gathered.emitted,
    List.foldlM_append, bind_ok front, List.foldlM_cons, bind_ok last]
  rfl

namespace Turned

variable (turned : Turned N F M g M')
include turned

/-- A declared symbol of the list becomes an alias. -/
lemma alias_mem {e : String × Nat} (mem : e ∈ g.emitted) (memG : G ∈ M.globals) (name : G.name = e.1) :
    GA e.1 G.valueType (N.newName M F.sectionName) g.collected.length e.2 ∈ M'.aliases := by
  obtain ⟨values, con⟩ := turned.converted
  exact (con.aliases _).2 (.inr ⟨e, mem, G, List.mem_append_left _ memG, name, rfl⟩)

/-- A turn keeps all aliases. -/
lemma aliases_subset : M.aliases ⊆ M'.aliases := by
  obtain ⟨values, con⟩ := turned.converted
  exact fun A mem => (con.aliases A).2 (.inl mem)

/-- A turn keeps the globals of other names. -/
lemma kept (mem : G ∈ M.globals) (other : G.name ∉ g.emitted.map Prod.fst) : G ∈ M'.globals := by
  obtain ⟨values, con⟩ := turned.converted
  exact (con.globals G).2 ⟨List.mem_append_left _ mem, other⟩

/-- A name that was taken stays taken. -/
lemma taken (before : Taken M s) : Taken M' s := by
  obtain ⟨values, con⟩ := turned.converted
  apply con.taken
  rcases before with ⟨G, mem, name⟩ | other
  · exact .inl ⟨G, List.mem_append_left _ mem, name⟩
  · exact .inr other

/-- The name of the array is taken behind the turn. -/
lemma array_taken : Taken M' (N.newName M F.sectionName) := by
  obtain ⟨values, con⟩ := turned.converted
  exact con.taken (.inl ⟨_, List.mem_append_right _ (.head _), rfl⟩)

/-- The array stays a global if no symbol of the turn has its name. -/
lemma array_kept (other : N.newName M F.sectionName ∉ g.emitted.map Prod.fst) :
    ∃ G ∈ M'.globals, G.name = N.newName M F.sectionName := by
  obtain ⟨values, con⟩ := turned.converted
  exact ⟨_, (con.globals _).2 ⟨List.mem_append_right _ (.head _), other⟩, rfl⟩

/-- A symbol of the list that was there, or that is the array itself, is an alias afterwards. -/
lemma alias_of_emitted (before : Taken M s ∨ s = N.newName M F.sectionName)
    (mem : s ∈ g.emitted.map Prod.fst) : ∃ A ∈ M'.aliases, A.name = s := by
  obtain ⟨values, con⟩ := turned.converted
  apply con.alias_of_taken _ mem
  rcases before with (⟨G, mem, name⟩ | other) | rfl
  · exact .inl ⟨G, List.mem_append_left _ mem, name⟩
  · exact .inr other
  · exact .inl ⟨_, List.mem_append_right _ (.head _), rfl⟩

/-- A new alias leads to the array of the turn and has the name of a symbol of the turn. -/
lemma alias_made {A : GlobalAlias} (mem : A ∈ M'.aliases) :
    A ∈ M.aliases ∨ A.area = N.newName M F.sectionName ∧ ∃ e ∈ g.emitted, A.name = e.1 := by
  obtain ⟨values, con⟩ := turned.converted
  rcases (con.aliases A).1 mem with old | ⟨e, here, G, _, _, rfl⟩
  · exact .inl old
  · exact .inr ⟨rfl, e, here, rfl⟩

end Turned

/-! ### The turns of several finders -/

/-- What every turn keeps, a run keeps. -/
lemma run_keeps {P : Module → Prop} (keeps : ∀ F M g M', Turned N F M g M' → P M → P M')
    (initial : ∀ F ∈ finders, F.Initial) (init : P M)
    (ran : finders.foldlM (collectFinder N) M = .ok M') : P M' := by
  refine foldlM_keeps (P := P) (fun M1 F mem M2 before step => ?_) init ran
  obtain ⟨g, gathered, _⟩ := gather_ok F M1
  exact keeps F M1 g M2 (turned_of_ok (initial F mem) gathered step) before

/-- Later turns keep all aliases. -/
lemma run_aliases (initial : ∀ F ∈ finders, F.Initial)
    (ran : finders.foldlM (collectFinder N) M = .ok M') : M.aliases ⊆ M'.aliases :=
  run_keeps (P := fun M1 => M.aliases ⊆ M1.aliases)
    (fun _ _ _ _ turned before _ mem => turned.aliases_subset (before mem)) initial (fun _ mem => mem) ran

/-- A name that was taken stays taken in later turns. -/
lemma run_taken (initial : ∀ F ∈ finders, F.Initial) (before : Taken M s)
    (ran : finders.foldlM (collectFinder N) M = .ok M') : Taken M' s :=
  run_keeps (P := fun M1 => Taken M1 s) (fun _ _ _ _ turned => turned.taken) initial before ran

/-- An alias of a run was there, or a turn has made it, and the name that it leads to is taken. -/
lemma run_origin (initial : ∀ F ∈ finders, F.Initial)
    (ran : finders.foldlM (collectFinder N) M = .ok M') :
    ∀ A ∈ M'.aliases, A ∈ M.aliases ∨ Taken M' A.area ∧
      ∃ F Mk g, (F, Mk) ∈ turns N finders M ∧ gather F Mk = .ok g ∧ A.area = N.newName Mk F.sectionName ∧
        ∃ e ∈ g.emitted, A.name = e.1 := by
  induction finders generalizing M with
  | nil =>
    cases ran
    exact fun _ mem => .inl mem
  | cons F finders ih =>
    intro A mem
    rw [List.foldlM_cons] at ran
    obtain ⟨M1, first, rest⟩ := bind_eq_ok.1 ran
    obtain ⟨g, gathered, _⟩ := gather_ok F M
    have turned := turned_of_ok (initial F (.head _)) gathered first
    have later := fun F mem => initial F (.tail _ mem)
    rw [turns, first]
    rcases ih later rest A mem with before | ⟨taken, F', Mk, g', turn, made⟩
    · rcases turned.alias_made before with old | ⟨new, e, here, name⟩
      · exact .inl old
      · exact .inr ⟨new ▸ run_taken later turned.array_taken rest, F, M, g, .head _, gathered, new, e, here,
          name⟩
    · exact .inr ⟨taken, F', Mk, g', .tail _ turn, made⟩

/-- A global stays when no turn has a symbol of its name. -/
lemma run_kept (initial : ∀ F ∈ finders, F.Initial) (mem : G ∈ M.globals)
    (other : ∀ t ∈ turns N finders M, ∀ g, gather t.1 t.2 = .ok g → G.name ∉ g.emitted.map Prod.fst)
    (ran : finders.foldlM (collectFinder N) M = .ok M') : G ∈ M'.globals := by
  induction finders generalizing M with
  | nil =>
    cases ran
    exact mem
  | cons F finders ih =>
    rw [List.foldlM_cons] at ran
    obtain ⟨M1, first, rest⟩ := bind_eq_ok.1 ran
    obtain ⟨g, gathered, _⟩ := gather_ok F M
    rw [turns, first] at other
    have turned := turned_of_ok (initial F (.head _)) gathered first
    exact ih (fun F mem => initial F (.tail _ mem))
      (turned.kept mem (other (F, M) (.head _) g gathered))
      (fun t mem => other t (.tail _ mem)) rest

/-- The finders that have a turn are in the list. -/
lemma mem_of_turns {t : SectionFinder × Module} (mem : t ∈ turns N finders M) : t.1 ∈ finders := by
  obtain ⟨F, Mk⟩ := t
  obtain ⟨pre, post, rfl, _⟩ := run_of_turn mem
  exact List.mem_append_right _ (.head _)

/-! ### The whole run -/

/-- What is known of a turn in a run that ends: the finders after it take its module to the last one. -/
structure InRun (N : Naming) (M : Module) (F : SectionFinder) (post : List SectionFinder) (Mk : Module)
    (g : Gathered) (M1 M' : Module) : Prop where
  finders : ∃ pre, InitializeZephyrSectionFinders M = pre ++ F :: post ∧
    pre.foldlM (collectFinder N) M = .ok Mk
  first : collectFinder N Mk F = .ok M1
  turned : Turned N F Mk g M1
  rest : post.foldlM (collectFinder N) M1 = .ok M'

/-- The finders of a run are in their first state. -/
lemma initial_of_turn (turn : (F, Mk) ∈ turns N (InitializeZephyrSectionFinders M) M) : F.Initial := by
  obtain ⟨pre, post, finders, _⟩ := run_of_turn turn
  exact initial_of_mem (finders ▸ List.mem_append_right _ (.head _))

/-- A turn of a run that ends is followed by the rest of the run. -/
lemma inRun_of_turn (turn : (F, Mk) ∈ turns N (InitializeZephyrSectionFinders M) M)
    (gathered : gather F Mk = .ok g) (ran : collectLinkerScriptSections N M = .ok M') :
    ∃ post M1, InRun N M F post Mk g M1 M' := by
  obtain ⟨pre, post, finders, before⟩ := run_of_turn turn
  rw [collectLinkerScriptSections, finders, List.foldlM_append, bind_ok before, List.foldlM_cons] at ran
  obtain ⟨M1, first, rest⟩ := bind_eq_ok.1 ran
  exact ⟨post, M1, ⟨pre, finders, before⟩, first,
    turned_of_ok (initial_of_turn turn) gathered first, rest⟩

namespace InRun

variable {M1 : Module} (run : InRun N M F post Mk g M1 M')
include run

/-- The finders behind it begin in their first state. -/
lemma later : ∀ F' ∈ post, F'.Initial := by
  obtain ⟨pre, finders, _⟩ := run.finders
  exact fun F' mem => initial_of_mem (finders ▸ List.mem_append_right _ (.tail _ mem))

/-- The aliases that a turn leaves are there in the end. -/
lemma lasting : M1.aliases ⊆ M'.aliases := run_aliases run.later run.rest

/-- The turns after this one are turns of the run. -/
lemma turn_later {t : SectionFinder × Module} (mem : t ∈ turns N post M1) :
    t ∈ turns N (InitializeZephyrSectionFinders M) M := by
  obtain ⟨pre, finders, before⟩ := run.finders
  obtain ⟨F', Mk'⟩ := t
  obtain ⟨between, post', rfl, after⟩ := run_of_turn mem
  have more : (pre ++ F :: between).foldlM (collectFinder N) M = .ok Mk' := by
    rw [List.foldlM_append, bind_ok before, List.foldlM_cons, bind_ok run.first, after]
  rw [finders, ← List.cons_append, ← List.append_assoc]
  exact turn_of_run more

/-- The later finders have other symbols than the start symbol. -/
lemma start_alone : ∀ t ∈ turns N post M1, ∀ g, gather t.1 t.2 = .ok g →
    F.start ∉ g.emitted.map Prod.fst := by
  intro t mem g gathered there
  have behind := mem_of_turns mem
  obtain ⟨pre, finders, _⟩ := run.finders
  have apart := finders ▸ finders_apart M
  have other := (List.pairwise_cons.1 (List.pairwise_append.1 apart).2.1).1 t.1 behind
  obtain ⟨boundary, label⟩ := other.1 F.start (.head _)
  rcases emitted_symbol (run.later t.1 behind) (gathers_of_gather gathered).grown there with h | h
  · exact boundary h
  · exact label h

end InRun

/-- A declared symbol is still declared when a turn comes, or an earlier turn has made it an alias whose
area was taken then. -/
lemma declared_or (turn : (F, Mk) ∈ turns N (InitializeZephyrSectionFinders M) M)
    (declared : s ∈ M.declared) :
    (Mk.getNamedGlobal s).isSome ∨ ∃ A ∈ Mk.aliases, A.name = s ∧ Taken Mk A.area := by
  obtain ⟨pre, post, finders, before⟩ := run_of_turn turn
  have initial : ∀ F' ∈ pre, F'.Initial := fun F' mem =>
    initial_of_mem (finders ▸ List.mem_append_left _ mem)
  obtain ⟨G, found⟩ := Option.isSome_iff_exists.1 declared
  obtain ⟨memG, name⟩ := Module.getNamedGlobal_some found
  rcases run_taken initial (.inl ⟨G, memG, name⟩) before with ⟨G, mem, rfl⟩ | ⟨A, mem, rfl⟩
  · rw [Module.getNamedGlobal_of_mem mem]
    exact .inl rfl
  · rcases run_origin initial before A mem with old | ⟨taken, _⟩
    · exact absurd name.symm (Module.alias_not_global old memG)
    · exact .inr ⟨A, mem, rfl, taken⟩

/-- The symbols of a turn that have a place. -/
lemma mem_places_iff (initial : F.Initial) (gathered : gather F M = .ok g) :
    s ∈ g.places.map Prod.fst ↔ F.HasSymbol M s := by
  have grown := (gathers_of_gather gathered).grown
  rw [Gathered.places, List.map_cons, List.map_append, List.mem_cons, List.mem_append,
    mem_levelPlaces_iff initial gathered, grown.start, grown.stop, List.map_singleton,
    List.mem_singleton, SectionFinder.HasSymbol]

/-- The element type of the array of a turn. -/
lemma arrayType_eq (gathered : gather F M = .ok g) : F.arrayType M = g.elemType M := by
  rw [SectionFinder.arrayType, gathered]

/-- An emitted symbol has a place. -/
lemma mem_places_of_emitted {e : String × Nat} (mem : e ∈ g.emitted) : e.1 ∈ g.places.map Prod.fst := by
  have here : e.1 ∈ g.emitted.map Prod.fst := List.mem_map_of_mem mem
  rw [emitted_names, List.mem_append] at here
  rw [Gathered.places, List.map_cons, List.map_append]
  rcases here with here | here
  · split at here
    · exact nomatch here
    · exact List.mem_cons.2 (.inl (List.mem_singleton.1 here))
  · exact .tail _ here

namespace InRun

variable {M1 : Module} (run : InRun N M F post Mk g M1 M') (known : S ⊆ M.declared)
  (turn : (F, Mk) ∈ turns N (InitializeZephyrSectionFinders M) M) (gathered : gather F Mk = .ok g)
  (redirected : ∀ F Mk g, (F, Mk) ∈ turns N (InitializeZephyrSectionFinders M) M →
    gather F Mk = .ok g → ∀ e ∈ g.places, e.1 ∈ S →
      Redirected M' e.1 (N.newName Mk F.sectionName) g.collected.length e.2)
include run known turn gathered redirected

omit run known in
/-- A symbol of the set that the turn has leads to its array in the end. -/
lemma leads (mem : s ∈ S) (has : F.HasSymbol Mk s) : ∃ k,
    Redirected M' s (N.newName Mk F.sectionName) g.collected.length k := by
  obtain ⟨e, here, rfl⟩ := List.mem_map.1 ((mem_places_iff (initial_of_turn turn) gathered).2 has)
  exact ⟨e.2, redirected F Mk g turn gathered e here mem⟩

/-- It is still declared: an alias from before would lead to an array that was there before. -/
lemma still (mem : s ∈ S) (has : F.HasSymbol Mk s) : (Mk.getNamedGlobal s).isSome := by
  rcases declared_or turn (known mem) with here | ⟨A, memA, name, taken⟩
  · exact here
  · obtain ⟨k, ⟨B, memB, nameB, areaB, _⟩, _⟩ := leads turn gathered redirected mem has
    cases Module.alias_unique (run.lasting (run.turned.aliases_subset memA)) memB
      (name.trans nameB.symm)
    rw [areaB] at taken
    exact absurd taken.mem_names (N.newName_fresh _ _)

/-- If the start symbol is in the set, there is a level: else it would stay a global to the end. -/
lemma start_level (mem : F.start ∈ S) : ∃ L, F.LevelIn Mk L := by
  have grown := (gathers_of_gather gathered).grown
  apply Classical.byContradiction
  intro no_level
  have empty : g.finder.list = [] := by
    apply Classical.byContradiction
    exact fun some => no_level ((levels_nonempty_iff gathered).1 some)
  obtain ⟨G, found⟩ := Option.isSome_iff_exists.1 (run.still known turn gathered redirected mem (.inl rfl))
  obtain ⟨memG, name⟩ := Module.getNamedGlobal_some found
  have here : G ∈ M1.globals := by
    apply run.turned.kept memG
    rw [emitted_names, if_pos empty, List.nil_append, name, ← grown.start]
    exact start_not_behind (initial_of_turn turn) grown
  have there : G ∈ M'.globals := by
    apply run_kept run.later here _ run.rest
    rw [name]
    exact run.start_alone
  obtain ⟨k, ⟨B, memB, nameB, _⟩, _⟩ := leads turn gathered redirected mem (.inl rfl)
  exact Module.alias_not_global memB there (nameB.trans name.symm)

/-- The end symbol is not in the set: its alias has the wrong place. -/
lemma stop_outside : F.stop ∉ S := by
  have grown := (gathers_of_gather gathered).grown
  intro mem
  obtain ⟨G, found⟩ :=
    Option.isSome_iff_exists.1 (run.still known turn gathered redirected mem (.inr (.inr rfl)))
  obtain ⟨memG, name⟩ := Module.getNamedGlobal_some found
  have emitted : (g.finder.stop, g.collected.length + 1) ∈ g.emitted :=
    List.mem_append_right _ (.head _)
  have here : (g.finder.stop, g.collected.length) ∈ g.places :=
    .tail _ (List.mem_append_right _ (.head _))
  rw [← grown.stop] at mem name
  have alias_ := run.lasting (run.turned.alias_mem emitted memG name)
  obtain ⟨⟨B, memB, nameB, _, _, position⟩, _⟩ := redirected F Mk g turn gathered _ here mem
  cases Module.alias_unique alias_ memB nameB.symm
  exact GA_stop_position _ _ _ _ position

/-- No symbol of the turn is an array to which an earlier turn has led a symbol of the set. -/
lemma earlier_kept {A : GlobalAlias} (memA : A ∈ Mk.aliases) (mem : A.name ∈ S) :
    ¬ F.Symbol Mk A.area := by
  intro symbol
  obtain ⟨pre, finders, before⟩ := run.finders
  have initials : ∀ F' ∈ pre, F'.Initial := fun F' mem =>
    initial_of_mem (finders ▸ List.mem_append_left _ mem)
  rcases run_origin initials before A memA with old | ⟨taken, F', M0, g', turn', gathered', area, made⟩
  · -- the declared name would be that of an alias from the start
    obtain ⟨G, found⟩ := Option.isSome_iff_exists.1 (known mem)
    obtain ⟨memG, name⟩ := Module.getNamedGlobal_some found
    exact Module.alias_not_global old memG name.symm
  · obtain ⟨e, emitted, name⟩ := made
    obtain ⟨e', here, same⟩ := List.mem_map.1 (mem_places_of_emitted emitted)
    have turn' : (F', M0) ∈ turns N (InitializeZephyrSectionFinders M) M := by
      obtain ⟨pre', post', rfl, before'⟩ := run_of_turn turn'
      rw [finders, List.append_assoc]
      exact turn_of_run before'
    have in_set : e'.1 ∈ S := by rwa [same, ← name]
    obtain ⟨_, G, memG, nameG⟩ := redirected F' M0 g' turn' gathered' e' here in_set
    obtain ⟨B, memB, nameB⟩ := run.turned.alias_of_emitted (.inl taken)
      ((mem_emitted_iff (initial_of_turn turn) gathered).2 symbol)
    rw [area] at nameB
    exact Module.alias_not_global (run.lasting memB) memG (nameB.trans nameG.symm)

end InRun

/-- Where the symbols of a set are redirected, each turn has met its conditions. -/
lemma redirectable_of_redirects (known : S ⊆ M.declared) (all : Redirects N M S)
    (turn : (F, Mk) ∈ turns N (InitializeZephyrSectionFinders M) M) : Redirectable N S F Mk := by
  obtain ⟨M', ran, redirected⟩ := all
  obtain ⟨g, gathered, _⟩ := gather_ok F Mk
  obtain ⟨post, M1, run⟩ := inRun_of_turn turn gathered ran
  have initial := initial_of_turn turn
  constructor
  case defined => exact fun G collects => run.turned.defined G ((mem_collected_iff gathered).2 collects)
  case typed =>
    intro s symbol
    obtain ⟨e, here, rfl⟩ := List.mem_map.1 ((mem_emitted_iff initial gathered).2 symbol)
    exact arrayType_eq gathered ▸ run.turned.typed e here
  case own => exact fun front => run.turned.own ((mem_front_iff initial gathered).2 front)
  case still => exact fun s mem has => run.still known turn gathered redirected mem has
  case start => exact fun mem => run.start_level known turn gathered redirected mem
  case stop => exact run.stop_outside known turn gathered redirected
  case last =>
    rintro ⟨s, mem, has⟩ same
    obtain ⟨k, _, G, memG, name⟩ := InRun.leads turn gathered redirected mem has
    have emitted : N.newName Mk F.sectionName ∈ g.emitted.map Prod.fst :=
      (mem_emitted_iff initial gathered).2 (.inr same)
    obtain ⟨A, memA, nameA⟩ := run.turned.alias_of_emitted (.inr rfl) emitted
    exact Module.alias_not_global (run.lasting memA) memG (nameA.trans name.symm)
  case earlier => exact fun A memA mem => run.earlier_kept known turn gathered redirected memA mem

/-- A run ends whose turns emit symbols that fit, of defined globals, none behind one that is the array. -/
lemma run_ends
    (each : ∀ F Mk, (F, Mk) ∈ turns N (InitializeZephyrSectionFinders M) M → Redirectable N S F Mk) :
    ∃ M', collectLinkerScriptSections N M = .ok M' := by
  have ends : ∀ (finders : List SectionFinder) (M : Module), (∀ F ∈ finders, F.Initial) →
      (∀ F Mk, (F, Mk) ∈ turns N finders M → Redirectable N S F Mk) →
      ∃ M', finders.foldlM (collectFinder N) M = .ok M' := by
    intro finders
    induction finders with
    | nil => exact fun M _ _ => ⟨M, rfl⟩
    | cons F finders ih =>
      intro M initial each
      have fits := each F M (.head _)
      have own := initial F (.head _)
      obtain ⟨g, gathered, _⟩ := gather_ok F M
      obtain ⟨M1, first⟩ := turn_ends (N := N) own gathered
        (fun G mem => fits.defined G ((mem_collected_iff gathered).1 mem))
        (fun e mem => arrayType_eq gathered ▸ fits.typed e.1
          ((mem_emitted_iff own gathered).1 (List.mem_map_of_mem mem)))
        (fun mem => fits.own ((mem_front_iff own gathered).1 mem))
      rw [turns, first] at each
      rw [List.foldlM_cons, bind_ok first]
      exact ih M1 (fun F mem => initial F (.tail _ mem)) fun F Mk mem => each F Mk (.tail _ mem)
  exact ends _ M (fun F mem => initial_of_mem mem) each

/-- A declared symbol is redirected if the turns meet their conditions. -/
lemma redirected_of_redirectable
    (each : ∀ F Mk, (F, Mk) ∈ turns N (InitializeZephyrSectionFinders M) M → Redirectable N S F Mk)
    (turn : (F, Mk) ∈ turns N (InitializeZephyrSectionFinders M) M) (gathered : gather F Mk = .ok g)
    (limit : g.collected.length ≤ maxOperands) (ran : collectLinkerScriptSections N M = .ok M')
    {e : String × Nat} (mem : e ∈ g.places) (in_set : e.1 ∈ S) :
    Redirected M' e.1 (N.newName Mk F.sectionName) g.collected.length e.2 := by
  obtain ⟨post, M1, run⟩ := inRun_of_turn turn gathered ran
  have fits := each F Mk turn
  have initial := initial_of_turn turn
  have grown := (gathers_of_gather gathered).grown
  have has : F.HasSymbol Mk e.1 := (mem_places_iff initial gathered).1 (List.mem_map_of_mem mem)
  obtain ⟨G, found⟩ := Option.isSome_iff_exists.1 (fits.still e.1 in_set has)
  obtain ⟨memG, name⟩ := Module.getNamedGlobal_some found
  have placed : e ∈ g.emitted ∧ e.2 ≤ g.collected.length := by
    rcases List.mem_cons.1 mem with rfl | mem
    · rw [grown.start] at in_set
      have some := (levels_nonempty_iff gathered).2 (fits.start in_set)
      refine ⟨List.mem_append_left _ (List.mem_append_left _ ?_), Nat.zero_le _⟩
      rw [if_neg some]
      exact .head _
    · rcases List.mem_append.1 mem with level | stop
      · obtain ⟨i, _, _, _, place⟩ := mem_levelPlaces level
        exact ⟨List.mem_append_left _ (List.mem_append_right _ level), place ▸ g.before_le i⟩
      · cases List.mem_singleton.1 stop
        rw [grown.stop] at in_set
        exact absurd in_set fits.stop
  have alias_ := run.turned.alias_mem placed.1 memG name
  constructor
  · exact ⟨_, run.lasting alias_, rfl, rfl, rfl, GA_position _ _ _ placed.2 limit⟩
  · have here : N.newName Mk F.sectionName ∉ g.emitted.map Prod.fst := by
      intro emitted
      rcases (mem_emitted_iff initial gathered).1 emitted with front | stop
      · exact fits.own front
      · exact fits.last ⟨e.1, in_set, has⟩ stop
    obtain ⟨A, memA, nameA⟩ := run.turned.array_kept here
    refine ⟨A, run_kept run.later memA ?_ run.rest, nameA⟩
    -- the alias is there at the later turns
    rintro ⟨F', Mk'⟩ later g' gathered' emitted
    have turn' := run.turn_later later
    have symbol := (mem_emitted_iff (initial_of_turn turn') gathered').1 emitted
    obtain ⟨between, _, split, ran'⟩ := run_of_turn later
    have still := run_aliases (fun F mem => run.later F (split ▸ List.mem_append_left _ mem)) ran' alias_
    exact (each F' Mk' turn').earlier _ still in_set (nameA ▸ symbol)

/-- The symbols of a set are redirected if and only if each turn meets its conditions. -/
lemma redirects_iff (known : S ⊆ M.declared)
    (limit : ∀ F Mk g, (F, Mk) ∈ turns N (InitializeZephyrSectionFinders M) M → gather F Mk = .ok g →
      g.collected.length ≤ maxOperands) :
    Redirects N M S ↔
      ∀ F Mk, (F, Mk) ∈ turns N (InitializeZephyrSectionFinders M) M → Redirectable N S F Mk := by
  constructor
  · exact fun all F Mk turn => redirectable_of_redirects known all turn
  · intro each
    obtain ⟨M', ran⟩ := run_ends each
    exact ⟨M', ran, fun F Mk g turn gathered e mem in_set =>
      redirected_of_redirectable each turn gathered (limit F Mk g turn gathered) ran mem in_set⟩

/-- A turn collects no more globals than the module has. -/
lemma collected_le (turn : (F, Mk) ∈ turns N (InitializeZephyrSectionFinders M) M)
    (gathered : gather F Mk = .ok g) : g.collected.length ≤ M.globals.length := by
  have inv := gathers_of_gather gathered
  have nodup : g.collected.Nodup := List.Nodup.of_map _ (inv.grouped.nodup g.finder.nodup)
  calc g.collected.length
    _ ≤ (Mk.globals.filter F.Matches).length := (nodup.subperm (inv.grouped.subset _)).length_le
    _ ≤ (M.globals.filter F.Matches).length := (turn_matching turn).length_le
    _ ≤ M.globals.length := List.length_filter_le _ _

/-- Every declared start, level and end symbol becomes an alias for its place if and only if each turn
meets its conditions. -/
theorem symbols_redirected_iff (N : Naming) (M : Module)
    (limit : ∀ F Mk g, (F, Mk) ∈ turns N (InitializeZephyrSectionFinders M) M → gather F Mk = .ok g →
      g.collected.length ≤ maxOperands) :
    SymbolsRedirected N M ↔
      ∀ F Mk, (F, Mk) ∈ turns N (InitializeZephyrSectionFinders M) M →
        Redirectable N M.declared F Mk :=
  redirects_iff (fun _ declared => declared) limit

/-- The conditions of a turn, told from what it gathers. -/
def Gathered.Redirectable (g : Gathered) (N : Naming) (S : Set String) (F : SectionFinder) (M : Module) :
    Prop :=
  (∀ G ∈ g.collected, G.initializer.isSome) ∧
  (∀ s ∈ g.emitted.map Prod.fst, Convertible (g.elemType M) M s) ∧
  N.newName M F.sectionName ∉ g.front.map Prod.fst ∧
  (∀ s ∈ g.places.map Prod.fst, s ∈ S → (M.getNamedGlobal s).isSome) ∧
  (F.start ∈ S → g.finder.list ≠ []) ∧ F.stop ∉ S ∧ N.newName M F.sectionName ≠ F.stop ∧
  ∀ A ∈ M.aliases, A.name ∈ S → A.area ∉ g.emitted.map Prod.fst

instance (s : String) : Decidable (s ∈ M.declared) :=
  inferInstanceAs (Decidable ((M.getNamedGlobal s).isSome = true))

instance (Ty : IRType) (s : String) : Decidable (Convertible Ty M s) :=
  inferInstanceAs (Decidable (∀ G ∈ M.globals, G.name = s → _))

instance [∀ s, Decidable (s ∈ S)] : Decidable (g.Redirectable N S F M) :=
  inferInstanceAs (Decidable (_ ∧ _ ∧ _ ∧ _ ∧ _ ∧ _ ∧ _ ∧ _))

/-- What a turn gathers decides its conditions. -/
lemma redirectable_of_gathered (initial : F.Initial) (gathered : gather F M = .ok g)
    (holds : g.Redirectable N S F M) : Redirectable N S F M := by
  obtain ⟨defined, typed, own, still, start, stop, last, earlier⟩ := holds
  constructor
  case defined => exact fun G collects => defined G ((mem_collected_iff gathered).2 collects)
  case typed =>
    exact fun s symbol => arrayType_eq gathered ▸ typed s ((mem_emitted_iff initial gathered).2 symbol)
  case own => exact fun front => own ((mem_front_iff initial gathered).2 front)
  case still => exact fun s mem has => still s ((mem_places_iff initial gathered).2 has) mem
  case start => exact fun mem => (levels_nonempty_iff gathered).1 (start mem)
  case stop => exact stop
  case last => exact fun _ => last
  case earlier =>
    exact fun A memA mem symbol => earlier A memA mem ((mem_emitted_iff initial gathered).2 symbol)

/-- Tasks of two levels with the symbols of an empty level before, between and behind them. -/
def declaredTasks : Module where
  globals := [hwEvent "a" ".native_PRE_BOOT_21" "{a}", hwEvent "b" ".native_PRE_BOOT_22" "{b}",
    hwEvent "c" ".native_FIRST_SLEEP1" "{c}", eventsSymbol "__native_PRE_BOOT_1_tasks_start",
    eventsSymbol "__native_PRE_BOOT_2_tasks_start", eventsSymbol "__native_PRE_BOOT_3_tasks_start",
    eventsSymbol "__native_FIRST_SLEEP_tasks_start", eventsSymbol "__native_ON_EXIT_tasks_start"]
  aliases := []
  functions := []
  nodup := by decide

/-- In the module of two tasks, all symbols can be redirected. -/
lemma tasks_redirectable : ∀ turn ∈ turns longest (InitializeZephyrSectionFinders declaredTasks)
    declaredTasks, ∀ g ∈ (gather turn.1 turn.2).toOption,
      g.Redirectable longest declaredTasks.declared turn.1 turn.2 := by
  decide

/-- All declared symbols of the tasks are redirected. -/
theorem symbols_redirected_iff_tasks : SymbolsRedirected longest declaredTasks := by
  refine (symbols_redirected_iff longest declaredTasks ?_).2 fun F Mk turn => ?_
  · exact fun F Mk g turn gathered => (collected_le turn gathered).trans (by decide)
  · obtain ⟨g, gathered, _⟩ := gather_ok F Mk
    have checked := tasks_redirectable (F, Mk) turn g (by rw [gathered]; rfl)
    exact redirectable_of_gathered (initial_of_turn turn) gathered checked

/-- A task of the first level, whose symbol is declared as `extern char`. -/
def charLevel : Module where
  globals := [hwEvent "a" ".native_PRE_BOOT_11" "{a}",
    ⟨"__native_PRE_BOOT_1_tasks_start", "", .named "i8", none, nofun⟩]
  aliases := []
  functions := []
  nodup := by decide

/-- The aliasee for a symbol of type `char` is null. -/
theorem char_level_null : collectLinkerScriptSections longest charLevel = .error .undefined ∧
    ¬ SymbolsRedirected longest charLevel := by
  have ran : collectLinkerScriptSections longest charLevel = .error .undefined := rfl
  refine ⟨ran, fun all => ?_⟩
  obtain ⟨M', ran', _⟩ := all
  cases ran.symm.trans ran'

end Irx.Sections
