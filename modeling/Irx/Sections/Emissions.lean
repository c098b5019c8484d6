import Irx.Sections.Levels

/-!
# The symbols of a turn as one list

The symbols that a turn emits, each with its offset, make up one list without repetition
(`Gathered.emitted`). The turn ends exactly if every global with one of these names is of the element type or
an array, and none but the last of them is the array of the turn itself; it then turns exactly these
globals into aliases (`Converted`).
-/

namespace Irx.Sections
open Irx.Lib SectionFinder

variable {N : Naming} {M M' M1 M2 : Module} {F : SectionFinder} {g : Gathered} {Ty : IRType}
variable {values : List Constant} {count : Nat} {area s : String} {e : String × Nat}
variable {l : List (String × Nat)}

/-- Whatever global has the name can become an alias. -/
def Convertible (Ty : IRType) (M : Module) (s : String) : Prop :=
  ∀ G ∈ M.globals, G.name = s → G.valueType = Ty ∨ G.valueType.isArrayTy

/-- The globals with a name of the list have become aliases into the array, at the offsets of the list. -/
structure Converted (l : List (String × Nat)) (area : String) (count : Nat) (M M' : Module) : Prop where
  globals : ∀ G, G ∈ M'.globals ↔ G ∈ M.globals ∧ G.name ∉ l.map Prod.fst
  aliases : ∀ A, A ∈ M'.aliases ↔ A ∈ M.aliases ∨
    ∃ e ∈ l, ∃ G ∈ M.globals, G.name = e.1 ∧ A = GA e.1 G.valueType area count e.2

/-- The name belongs to a global or an alias. -/
def Taken (M : Module) (n : String) : Prop :=
  (∃ G ∈ M.globals, G.name = n) ∨ ∃ A ∈ M.aliases, A.name = n

/-- A taken name is in the symbol table. -/
lemma Taken.mem_names {n : String} (taken : Taken M n) : n ∈ M.names := by
  rcases taken with ⟨G, mem, rfl⟩ | ⟨A, mem, rfl⟩
  · exact List.mem_append_left _ (List.mem_map_of_mem mem)
  · exact List.mem_append_right _ (List.mem_append_left _ (List.mem_map_of_mem mem))

namespace Converted

/-- Without symbols nothing is converted. -/
lemma nil : Converted [] area count M M where
  globals _ := ⟨fun mem => ⟨mem, List.not_mem_nil⟩, fun mem => mem.1⟩
  aliases _ := ⟨.inl, fun mem => mem.elim id fun h => nomatch h.choose_spec.1⟩

/-- The first symbol and then the others. -/
lemma cons (first : Converted [e] area count M M1) (rest : Converted l area count M1 M2)
    (new : e.1 ∉ l.map Prod.fst) : Converted (e :: l) area count M M2 where
  globals G := by
    rw [rest.globals, first.globals, List.map_singleton, List.mem_singleton, List.map_cons,
      List.mem_cons, not_or, and_assoc]
  aliases A := by
    rw [rest.aliases, first.aliases]
    constructor
    · rintro ((old | ⟨e', mem, G, memG, name, rfl⟩) | ⟨e', mem, G, memG, name, rfl⟩)
      · exact .inl old
      · cases List.mem_singleton.1 mem
        exact .inr ⟨e, .head _, G, memG, name, rfl⟩
      · exact .inr ⟨e', .tail _ mem, G, ((first.globals G).1 memG).1, name, rfl⟩
    · rintro (old | ⟨e', mem, G, memG, name, rfl⟩)
      · exact .inl (.inl old)
      · rcases List.mem_cons.1 mem with rfl | mem
        · exact .inl (.inr ⟨e', .head _, G, memG, name, rfl⟩)
        · -- the first symbol is none of the others
          refine .inr ⟨e', mem, G, (first.globals G).2 ⟨memG, ?_⟩, name, rfl⟩
          intro here
          rw [List.map_singleton, List.mem_singleton, name] at here
          exact new (here ▸ List.mem_map_of_mem mem)

/-- A taken name stays taken. -/
lemma taken {n : String} (con : Converted l area count M M') (before : Taken M n) : Taken M' n := by
  rcases before with ⟨G, mem, rfl⟩ | ⟨A, mem, rfl⟩
  · rcases Classical.em (G.name ∈ l.map Prod.fst) with there | other
    · obtain ⟨e, mem', name⟩ := List.mem_map.1 there
      exact .inr ⟨_, (con.aliases _).2 (.inr ⟨e, mem', G, mem, name.symm, rfl⟩), name⟩
    · exact .inl ⟨G, (con.globals G).2 ⟨mem, other⟩, rfl⟩
  · exact .inr ⟨A, (con.aliases A).2 (.inl mem), rfl⟩

/-- A name of the list that was taken is the name of an alias. -/
lemma alias_of_taken {n : String} (con : Converted l area count M M') (before : Taken M n)
    (mem : n ∈ l.map Prod.fst) : ∃ A ∈ M'.aliases, A.name = n := by
  rcases con.taken before with ⟨G, there, rfl⟩ | there
  · exact absurd mem ((con.globals G).1 there).2
  · exact there

/-- A global of another name is left. -/
lemma isSome {n : String} (con : Converted l area count M M') (other : n ∉ l.map Prod.fst)
    (there : (M.getNamedGlobal n).isSome) : (M'.getNamedGlobal n).isSome := by
  obtain ⟨G, found⟩ := Option.isSome_iff_exists.1 there
  obtain ⟨mem, rfl⟩ := Module.getNamedGlobal_some found
  rw [Module.getNamedGlobal_of_mem ((con.globals G).2 ⟨mem, other⟩)]
  rfl

/-- No global of a name of the list is left. -/
lemma not_isSome {n : String} (con : Converted l area count M M') (mem : n ∈ l.map Prod.fst) :
    ¬ (M'.getNamedGlobal n).isSome := by
  intro there
  obtain ⟨G, found⟩ := Option.isSome_iff_exists.1 there
  obtain ⟨still, rfl⟩ := Module.getNamedGlobal_some found
  exact ((con.globals G).1 still).2 mem

end Converted

/-- One symbol with its offset. -/
def emit (Ty : IRType) (values : List Constant) (area : String) (M : Module) (e : String × Nat) :
    Except Abort Module :=
  emitLinkerScriptGlobalsOffset M e.1 values (SectionGV area Ty values) e.2

/-- A declared symbol that has been replaced. -/
lemma converted_replace {G : GlobalVariable} (mem : G ∈ M.globals) (name : G.name = e.1) :
    Converted [e] area count M (M.replace (GA e.1 G.valueType area count e.2) mem name.symm) where
  globals G' := by
    rw [List.map_singleton, List.mem_singleton]
    refine List.mem_filter.trans (and_congr_right fun _ => ?_)
    exact decide_eq_true_iff
  aliases A := by
    refine List.mem_append.trans (or_congr_right ?_)
    rw [List.mem_singleton]
    constructor
    · rintro rfl
      exact ⟨e, .head _, G, mem, name, rfl⟩
    · rintro ⟨e', mem', G', memG', name', rfl⟩
      cases List.mem_singleton.1 mem'
      rw [List.inj_on_of_nodup_map M.globals_nodup mem memG' (name.trans name'.symm)]

/-- A symbol that is not declared changes nothing. -/
lemma converted_missing (missing : M.getNamedGlobal e.1 = none) : Converted [e] area count M M where
  globals G := by
    refine ⟨fun mem => ⟨mem, fun here => ?_⟩, fun mem => mem.1⟩
    rw [List.map_singleton, List.mem_singleton] at here
    rw [← here, Module.getNamedGlobal_of_mem mem] at missing
    cases missing
  aliases A := by
    refine ⟨.inl, fun mem => mem.elim id ?_⟩
    rintro ⟨e', mem', G, memG, name, _⟩
    cases List.mem_singleton.1 mem'
    rw [← name, Module.getNamedGlobal_of_mem memG] at missing
    cases missing

/-- While there is the array, a symbol that can become an alias is emitted. -/
lemma emit_ok (values : List Constant) (there : (M.getNamedGlobal area).isSome) (fits : Convertible Ty M e.1) :
    ∃ M', emit Ty values area M e = .ok M' ∧ Converted [e] area values.length M M' := by
  rw [emit, emitLinkerScriptGlobalsOffset_array there]
  split
  · rename_i missing
    exact ⟨M, rfl, converted_missing missing⟩
  · rename_i G found
    obtain ⟨mem, name⟩ := Module.getNamedGlobal_some found
    rw [if_pos (fits G mem name)]
    exact ⟨_, rfl, converted_replace mem name⟩

/-- A declared symbol of another type has no aliasee. -/
lemma emit_unfit {G : GlobalVariable} (mem : G ∈ M.globals) (name : G.name = e.1)
    (unfit : ¬ (G.valueType = Ty ∨ G.valueType.isArrayTy)) :
    emit Ty values area M e ≠ .ok M' := by
  intro ran
  have there := array_of_emitLinkerScriptGlobalsOffset ran
  rw [emit, emitLinkerScriptGlobalsOffset_array there] at ran
  split at ran
  · rename_i missing
    rw [← name, Module.getNamedGlobal_of_mem mem] at missing
    cases missing
  · rename_i G' found
    rw [← name, Module.getNamedGlobal_of_mem mem] at found
    cases found
    rw [if_neg unfit] at ran
    cases ran

/-- A symbol that is emitted finds the array and can become an alias. -/
lemma emit_eq_ok (ran : emit Ty values area M e = .ok M') :
    Convertible Ty M e.1 ∧ Converted [e] area values.length M M' := by
  have fits : Convertible Ty M e.1 := by
    intro G mem name
    apply Classical.byContradiction
    intro unfit
    exact emit_unfit mem name unfit ran
  obtain ⟨M1, ran', con⟩ := emit_ok _ (array_of_emitLinkerScriptGlobalsOffset ran) fits
  cases ran.symm.trans ran'
  exact ⟨fits, con⟩

/-- Symbols with different names, none of them the array, are emitted if each of them can be. -/
lemma emits_ok (values : List Constant) (nodup : (l.map Prod.fst).Nodup)
    (there : (M.getNamedGlobal area).isSome) (own : area ∉ l.map Prod.fst)
    (fits : ∀ e ∈ l, Convertible Ty M e.1) :
    ∃ M', l.foldlM (emit Ty values area) M = .ok M' ∧ Converted l area values.length M M' := by
  induction l generalizing M with
  | nil => exact ⟨M, rfl, .nil⟩
  | cons e l ih =>
    obtain ⟨new, nodup⟩ := List.nodup_cons.1 nodup
    rw [List.map_cons, List.mem_cons, not_or] at own
    obtain ⟨M1, first, con⟩ := emit_ok values there (fits e (.head _))
    have still := con.isSome (by simpa using own.1) there
    obtain ⟨M', rest, con'⟩ := ih (M := M1) nodup still own.2 fun e' mem G memG =>
      fits e' (.tail _ mem) G ((con.globals G).1 memG).1
    exact ⟨M', by rw [List.foldlM_cons, bind_ok first, rest], con.cons con' new⟩

/-- Symbols that are emitted one after the other can each become an alias. -/
lemma emits_eq_ok (nodup : (l.map Prod.fst).Nodup)
    (ran : l.foldlM (emit Ty values area) M = .ok M') :
    (∀ e ∈ l, Convertible Ty M e.1) ∧ Converted l area values.length M M' := by
  induction l generalizing M with
  | nil =>
    cases ran
    exact ⟨nofun, .nil⟩
  | cons e l ih =>
    obtain ⟨new, nodup⟩ := List.nodup_cons.1 nodup
    rw [List.foldlM_cons] at ran
    obtain ⟨M1, first, rest⟩ := bind_eq_ok.1 ran
    obtain ⟨fits, con⟩ := emit_eq_ok first
    obtain ⟨others, con'⟩ := ih nodup rest
    refine ⟨fun e' mem => ?_, con.cons con' new⟩
    rcases List.mem_cons.1 mem with rfl | mem
    · exact fits
    · intro G memG name
      refine others e' mem G ((con.globals G).2 ⟨memG, fun here => ?_⟩) name
      rw [List.map_singleton, List.mem_singleton, name] at here
      exact new (here ▸ List.mem_map_of_mem mem)

/-- A symbol that is emitted behind others finds the array, so none of them was it. -/
lemma emits_own (nodup : (l.map Prod.fst).Nodup)
    (ran : (l ++ [e]).foldlM (emit Ty values area) M = .ok M') : area ∉ l.map Prod.fst := by
  rw [List.foldlM_append] at ran
  obtain ⟨M1, front, back⟩ := bind_eq_ok.1 ran
  rw [List.foldlM_cons] at back
  obtain ⟨M2, last, _⟩ := bind_eq_ok.1 back
  have there := array_of_emitLinkerScriptGlobalsOffset last
  exact fun mem => (emits_eq_ok nodup front).2.not_isSome mem there

/-! ### The list of a turn -/

/-- The symbol of a level with its place. A level without a name has none. -/
def levelPlace (F : SectionFinder) (level : String × Nat) : Option (String × Nat) :=
  if level.1 = "" then none else (F.name level.1).toOption.map fun s => (s, level.2)

/-- The symbols of the levels with their places. -/
def Gathered.levelPlaces (g : Gathered) : List (String × Nat) :=
  (g.finder.list.zip g.indices).filterMap (levelPlace g.finder)

/-- The symbols of a turn before the end symbol. -/
def Gathered.front (g : Gathered) : List (String × Nat) :=
  (if g.finder.list = [] then [] else [(g.finder.start, 0)]) ++ g.levelPlaces

/-- The symbols of a turn with the offsets that they are emitted at. -/
def Gathered.emitted (g : Gathered) : List (String × Nat) :=
  g.front ++ [(g.finder.stop, g.collected.length + 1)]

/-- Every level has a name for its symbol. -/
lemma name_ok {F' : SectionFinder} {L : String} (initial : F.Initial) (grown : Grown F F')
    (mem : L ∈ F'.list) : ∃ s, F'.name L = .ok s := by
  cases initial with
  | native known =>
    cases grown_native grown
    exact ⟨_, name_level known mem⟩
  | static object =>
    rw [name, grown.kind]
    exact ⟨_, rfl⟩

/-- The levels are emitted as their symbols. -/
lemma emitLevels_eq_emits {levels : List (String × Nat)}
    (named : ∀ level ∈ levels, ∃ s, F.name level.1 = .ok s) :
    levels.foldlM (emitLevels F values (SectionGV area Ty values)) M =
      (levels.filterMap (levelPlace F)).foldlM (emit Ty values area) M := by
  induction levels generalizing M with
  | nil => rfl
  | cons level levels ih =>
    have rest : ∀ M, levels.foldlM (emitLevels F values (SectionGV area Ty values)) M =
        (levels.filterMap (levelPlace F)).foldlM (emit Ty values area) M :=
      fun M => ih fun level mem => named level (.tail _ mem)
    rw [List.foldlM_cons, emitLevels, List.filterMap_cons, levelPlace]
    split
    · rw [ok_bind, rest]
    · obtain ⟨s, e⟩ := named level (.head _)
      rw [e]
      show (emit Ty values area M (s, level.2) >>= fun M =>
          levels.foldlM (emitLevels F values (SectionGV area Ty values)) M) =
        emit Ty values area M (s, level.2) >>= fun M =>
          (levels.filterMap (levelPlace F)).foldlM _ M
      exact congrArg _ (funext rest)

/-- A turn emits its list. -/
lemma emitSymbols_eq_emits (initial : F.Initial) (grown : Grown F g.finder)
    (length : values.length = g.collected.length) :
    emitSymbols g values (SectionGV area Ty values) M =
      g.emitted.foldlM (emit Ty values area) M := by
  have named : ∀ level ∈ g.finder.list.zip g.indices, ∃ s, g.finder.name level.1 = .ok s :=
    fun level mem => name_ok initial grown (List.of_mem_zip mem).1
  have start : ∀ M, emitStart g values (SectionGV area Ty values) M =
      (if g.finder.list = [] then [] else [(g.finder.start, 0)]).foldlM
        (emit Ty values area) M := by
    intro M
    cases levels : g.finder.list with
    | nil =>
      rw [emitStart, Gathered.indices, levels]
      rfl
    | cons level rest =>
      rw [emitStart, Gathered.indices, levels, List.length_cons, List.range_succ_eq_map,
        List.map_cons]
      simp [emit]
  rw [emitSymbols, Gathered.emitted, Gathered.front, List.append_assoc, List.foldlM_append, start]
  congr 1
  funext M1
  rw [List.foldlM_append, Gathered.levelPlaces, emitLevels_eq_emits named, length]
  congr 1
  funext M2
  rw [List.foldlM_cons]
  simp [emit]

/-- The symbol and the place of a level. -/
lemma levelPlace_eq_some {level : String × Nat} (place : levelPlace F level = some e) :
    F.name level.1 = .ok e.1 ∧ e.2 = level.2 := by
  rw [levelPlace] at place
  split at place
  · exact nomatch place
  · cases named : F.name level.1 with
    | error _ =>
      rw [named] at place
      exact nomatch place
    | ok s =>
      rw [named] at place
      cases place
      exact ⟨rfl, rfl⟩

/-- A level symbol is that of a level of the finder, at the place behind the earlier levels. -/
lemma mem_levelPlaces (mem : e ∈ g.levelPlaces) :
    ∃ i L, g.finder.list[i]? = some L ∧ g.finder.name L = .ok e.1 ∧ e.2 = g.before i := by
  obtain ⟨level, there, place⟩ := List.mem_filterMap.1 mem
  obtain ⟨i, at_⟩ := List.mem_iff_getElem?.1 there
  obtain ⟨known, index⟩ := List.getElem?_zip_eq_some.1 at_
  obtain ⟨named, offset⟩ := levelPlace_eq_some place
  refine ⟨i, level.1, known, named, offset.trans ?_⟩
  exact Option.some.inj (index.symm.trans (g.indices_getElem? known))

/-- The symbol of a level is one that the finder can have for a level. -/
lemma label_of_place (initial : F.Initial) (grown : Grown F g.finder) (mem : e ∈ g.levelPlaces) :
    F.Label e.1 := by
  obtain ⟨i, L, known, named, _⟩ := mem_levelPlaces mem
  exact initial.label grown ⟨L, List.mem_of_getElem? known, named⟩

/-- Different levels of a finder have different symbols. -/
lemma name_unique (initial : F.Initial) (grown : Grown F g.finder) {L L' : String}
    (mem : L ∈ g.finder.list) (mem' : L' ∈ g.finder.list) (named : g.finder.name L = .ok s)
    (named' : g.finder.name L' = .ok s) : L = L' := by
  cases initial with
  | native known =>
    rw [grown_native grown] at mem mem' named named'
    exact name_injective known mem mem' named named'
  | static object =>
    rw [SectionFinder.name, grown.kind] at named named'
    exact (String.append_left_inj _).1 ((Except.ok.inj named).trans (Except.ok.inj named').symm)

/-- No level symbol is emitted twice. -/
lemma levelPlaces_nodup (initial : F.Initial) (grown : Grown F g.finder) :
    (g.levelPlaces.map Prod.fst).Nodup := by
  have lengths : g.finder.list.length ≤ g.indices.length := by
    rw [Gathered.indices, List.length_map, List.length_range]
  have levels : ((g.finder.list.zip g.indices).map Prod.fst).Nodup := by
    rw [List.map_fst_zip lengths]
    exact g.finder.nodup
  rw [Gathered.levelPlaces, List.Nodup, List.pairwise_map, List.pairwise_filterMap]
  rw [List.Nodup, List.pairwise_map] at levels
  apply levels.imp_of_mem
  intro level level' mem mem' ne e place e' place' same
  have named := (levelPlace_eq_some place).1
  rw [same] at named
  exact ne (name_unique initial grown (List.of_mem_zip mem).1 (List.of_mem_zip mem').1 named
    (levelPlace_eq_some place').1)

/-- No boundary symbol of a finder is one of its level symbols. -/
lemma boundary_not_label (initial : F.Initial) (mem : s ∈ F.boundary) : ¬ F.Label s := by
  cases initial with
  | native known => exact fun label => level_not_boundary _ known s label mem
  | static object => exact static_not_label mem

/-- The symbols of levels are labels. -/
lemma label_of_mem (initial : F.Initial) (grown : Grown F g.finder)
    (mem : s ∈ g.levelPlaces.map Prod.fst) : F.Label s := by
  obtain ⟨e, place, rfl⟩ := List.mem_map.1 mem
  exact label_of_place initial grown place

/-- The start is no label and not the end. -/
lemma start_not_behind (initial : F.Initial) (grown : Grown F g.finder) :
    g.finder.start ∉ g.levelPlaces.map Prod.fst ++ [g.finder.stop] := by
  rw [grown.start]
  intro mem
  rcases List.mem_append.1 mem with mem | mem
  · exact boundary_not_label initial (.head _) (label_of_mem initial grown mem)
  · rw [List.mem_singleton, grown.stop] at mem
    exact initial.stop_apart.1 mem

/-- The names of the symbols of a turn. -/
lemma emitted_names (g : Gathered) : g.emitted.map Prod.fst =
    (if g.finder.list = [] then [] else [g.finder.start]) ++
      (g.levelPlaces.map Prod.fst ++ [g.finder.stop]) := by
  rw [Gathered.emitted, Gathered.front, List.append_assoc, List.map_append, List.map_append]
  split
  · rfl
  · rfl

/-- No symbol is emitted twice in a turn. -/
lemma emitted_nodup (initial : F.Initial) (grown : Grown F g.finder) :
    (g.emitted.map Prod.fst).Nodup := by
  have stop : (g.levelPlaces.map Prod.fst ++ [g.finder.stop]).Nodup := by
    apply (levelPlaces_nodup initial grown).append (List.nodup_singleton _)
    rw [List.disjoint_singleton, grown.stop]
    exact fun mem => initial.stop_apart.2 (label_of_mem initial grown mem)
  rw [emitted_names]
  split
  · exact stop
  · exact List.nodup_cons.2 ⟨start_not_behind initial grown, stop⟩

/-- The end symbol is the last one, and none of those before it. -/
lemma front_nodup (initial : F.Initial) (grown : Grown F g.finder) :
    (g.front.map Prod.fst).Nodup := by
  have nodup := emitted_nodup initial grown
  rw [Gathered.emitted, List.map_append] at nodup
  exact nodup.of_append_left

/-- The symbols of a turn are those of its finder. -/
lemma emitted_symbol (initial : F.Initial) (grown : Grown F g.finder)
    (mem : s ∈ g.emitted.map Prod.fst) : s ∈ F.boundary ∨ F.Label s := by
  rw [emitted_names, List.mem_append, List.mem_append, List.mem_singleton] at mem
  rcases mem with mem | mem | rfl
  · split at mem
    · exact nomatch mem
    · rw [List.mem_singleton, grown.start] at mem
      exact .inl (mem ▸ .head _)
  · exact .inr (label_of_mem initial grown mem)
  · rw [grown.stop]
    exact .inl (.tail _ (.head _))

/-! ### The symbols of a turn, told from the module -/

/-- A symbol of a level that has a place in the array. -/
def SectionFinder.LevelSymbol (F : SectionFinder) (M : Module) (s : String) : Prop :=
  ∃ L, F.LevelIn M L ∧ L ≠ "" ∧ F.name L = .ok s

/-- The turn emits the symbol before the end symbol: the start, if there is a level, or a level. -/
def SectionFinder.Front (F : SectionFinder) (M : Module) (s : String) : Prop :=
  (s = F.start ∧ ∃ L, F.LevelIn M L) ∨ F.LevelSymbol M s

/-- A symbol that the turn emits. -/
def SectionFinder.Symbol (F : SectionFinder) (M : Module) (s : String) : Prop :=
  F.Front M s ∨ s = F.stop

/-- A grown finder names the symbols as before. -/
lemma SectionFinder.Grown.name {F' : SectionFinder} (initial : F.Initial) (grown : Grown F F') :
    F'.name = F.name := by
  cases initial with
  | native known => rw [grown_native grown]
  | static object =>
    funext L
    rw [SectionFinder.name, grown.kind]
    rfl

/-- The level symbols that a turn emits. -/
lemma mem_levelPlaces_iff (initial : F.Initial) (gathered : gather F M = .ok g) :
    s ∈ g.levelPlaces.map Prod.fst ↔ F.LevelSymbol M s := by
  have same := (gathers_of_gather gathered).grown.name initial
  constructor
  · intro mem
    obtain ⟨e, place, rfl⟩ := List.mem_map.1 mem
    obtain ⟨level, there, place⟩ := List.mem_filterMap.1 place
    refine ⟨level.1, (mem_levels_iff gathered).1 (List.of_mem_zip there).1, ?_,
      same ▸ (levelPlace_eq_some place).1⟩
    rintro none
    rw [levelPlace, if_pos none] at place
    cases place
  · rintro ⟨L, known, filled, named⟩
    obtain ⟨i, level⟩ := List.mem_iff_getElem?.1 ((mem_levels_iff gathered).2 known)
    have here : (L, g.before i) ∈ g.finder.list.zip g.indices :=
      List.mem_iff_getElem?.2 ⟨i, List.getElem?_zip_eq_some.2 ⟨level, g.indices_getElem? level⟩⟩
    refine List.mem_map.2 ⟨(s, g.before i), List.mem_filterMap.2 ⟨_, here, ?_⟩, rfl⟩
    rw [levelPlace, if_neg filled, same, named]
    rfl

/-- A turn has a level exactly if its module tells one. -/
lemma levels_nonempty_iff (gathered : gather F M = .ok g) :
    g.finder.list ≠ [] ↔ ∃ L, F.LevelIn M L := by
  constructor
  · intro some
    obtain ⟨L, mem⟩ := List.exists_mem_of_ne_nil _ some
    exact ⟨L, (mem_levels_iff gathered).1 mem⟩
  · rintro ⟨L, known⟩
    exact List.ne_nil_of_mem ((mem_levels_iff gathered).2 known)

/-- The symbols that a turn emits before the end symbol. -/
lemma mem_front_iff (initial : F.Initial) (gathered : gather F M = .ok g) :
    s ∈ g.front.map Prod.fst ↔ F.Front M s := by
  rw [Gathered.front, List.map_append, List.mem_append, mem_levelPlaces_iff initial gathered,
    SectionFinder.Front, ← levels_nonempty_iff gathered]
  refine or_congr_left ?_
  split
  case isTrue empty => simp [empty]
  case isFalse some => simp [some, (gathers_of_gather gathered).grown.start]

/-- The symbols that a turn emits. -/
lemma mem_emitted_iff (initial : F.Initial) (gathered : gather F M = .ok g) :
    s ∈ g.emitted.map Prod.fst ↔ F.Symbol M s := by
  rw [Gathered.emitted, List.map_append, List.mem_append, mem_front_iff initial gathered,
    SectionFinder.Symbol]
  simp [(gathers_of_gather gathered).grown.stop]

end Irx.Sections
