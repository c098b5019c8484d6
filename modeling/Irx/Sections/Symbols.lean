import Irx.Sections.Gather
import Irx.Lib.Fold

/-!
# What a turn leaves of a module

A turn adds the array and turns declared symbols of its finder into aliases: `Emits` collects what
holds of the other globals and of the aliases, whatever symbols were declared.
-/

namespace Irx.Sections
open Irx.Lib

/-- Some of the symbols of a set have become aliases. -/
structure Emits (S : Set String) (M M' : Module) : Prop where
  fewer : M'.globals.Sublist M.globals
  kept : ∀ G ∈ M.globals, G.name ∉ S → G ∈ M'.globals
  aliases : M.aliases ⊆ M'.aliases

namespace Emits

variable {S T : Set String} {M M1 M2 : Module}

/-- Nothing is emitted. -/
lemma refl : Emits S M M := ⟨.refl _, fun _ mem _ => mem, fun _ mem => mem⟩

/-- Some symbols, and then others. -/
lemma trans (first : Emits S M M1) (second : Emits T M1 M2) : Emits (S ∪ T) M M2 :=
  ⟨second.fewer.trans first.fewer,
    fun G mem out => second.kept G (first.kept G mem fun h => out (.inl h)) fun h => out (.inr h),
    fun _ mem => second.aliases (first.aliases mem)⟩

/-- Some symbols are some of more. -/
lemma mono (sub : S ⊆ T) (emits : Emits S M M1) : Emits T M M1 :=
  ⟨emits.fewer, fun G mem out => emits.kept G mem fun h => out (sub h), emits.aliases⟩

end Emits

variable {N : Naming} {M M' : Module} {F : SectionFinder} {Ty : IRType} {values : List Constant}
variable {area sec : String} {offset1 : Nat}

/-- The array of another name than all globals has been erased. -/
lemma emitLinkerScriptGlobalsOffset_erased (gone : M.getNamedGlobal area = none) :
    emitLinkerScriptGlobalsOffset M sec values (SectionGV area Ty values) offset1 =
      .error .undefined := by
  rw [emitLinkerScriptGlobalsOffset, if_pos]
  exact Option.isNone_iff_eq_none.2 gone

/-- As long as there is the array, it is enough to look at the symbol. -/
lemma emitLinkerScriptGlobalsOffset_array (there : (M.getNamedGlobal area).isSome) :
    emitLinkerScriptGlobalsOffset M sec values (SectionGV area Ty values) offset1 =
      match found : M.getNamedGlobal sec with
      | none => .ok M
      | some offsetGV =>
        if offsetGV.valueType = Ty ∨ offsetGV.valueType.isArrayTy then
          .ok (M.replace (GA sec offsetGV.valueType area values.length offset1)
            (Module.getNamedGlobal_some found).1 (Module.getNamedGlobal_some found).2.symm)
        else .error .undefined := by
  rw [emitLinkerScriptGlobalsOffset, if_neg]
  · rfl
  · exact fun gone => Option.isSome_iff_ne_none.1 there (Option.isNone_iff_eq_none.1 gone)

/-- A symbol is emitted only while there is the array. -/
lemma array_of_emitLinkerScriptGlobalsOffset
    (ran : emitLinkerScriptGlobalsOffset M sec values (SectionGV area Ty values) offset1 = .ok M') :
    (M.getNamedGlobal area).isSome := by
  cases there : M.getNamedGlobal area with
  | none =>
    rw [emitLinkerScriptGlobalsOffset_erased there] at ran
    cases ran
  | some G => rfl

/-- A symbol that is not declared changes nothing, and a declared one becomes an alias. -/
lemma emitLinkerScriptGlobalsOffset_cases
    (ran : emitLinkerScriptGlobalsOffset M sec values (SectionGV area Ty values) offset1 = .ok M') :
    (M.getNamedGlobal sec = none ∧ M' = M) ∨
    (∃ G, M.getNamedGlobal sec = some G ∧
      GA sec G.valueType area values.length offset1 ∈ M'.aliases ∧ Emits {sec} M M') := by
  rw [emitLinkerScriptGlobalsOffset_array (array_of_emitLinkerScriptGlobalsOffset ran)] at ran
  split at ran
  case h_1 none =>
    cases ran
    exact .inl ⟨none, rfl⟩
  case h_2 G found =>
    refine .inr ⟨G, found, ?_⟩
    split at ran
    case isFalse => cases ran
    case isTrue =>
      cases ran
      refine ⟨List.mem_append_right _ (.head _), List.filter_sublist, ?_, ?_⟩
      · intro G' mem out
        exact List.mem_filter.2 ⟨mem, decide_eq_true out⟩
      · exact fun A mem => List.mem_append_left _ mem

/-- Of a module, only the symbol is touched. -/
lemma emitLinkerScriptGlobalsOffset_emits
    (ran : emitLinkerScriptGlobalsOffset M sec values (SectionGV area Ty values) offset1 = .ok M') :
    Emits {sec} M M' := by
  obtain ⟨_, rfl⟩ | ⟨_, _, _, emits⟩ := emitLinkerScriptGlobalsOffset_cases ran
  · exact .refl
  · exact emits

/-- The level symbols of a finder. -/
def SectionFinder.levelSymbols (F : SectionFinder) : Set String :=
  {s | ∃ level ∈ F.list, F.name level = .ok s}

/-- The symbols of the levels become aliases, and no others. -/
lemma emitLevels_emits {levels : List (String × Nat)} {S : Set String}
    (known : ∀ level ∈ levels, ∀ s, F.name level.1 = .ok s → s ∈ S)
    (ran : levels.foldlM (emitLevels F values (SectionGV area Ty values)) M = .ok M') :
    Emits S M M' := by
  refine foldlM_keeps (P := fun M' => Emits S M M') ?_ .refl ran
  intro M1 level mem M2 before step
  rw [emitLevels] at step
  split at step
  case isTrue =>
    cases step
    exact before
  case isFalse =>
    obtain ⟨name, named, step⟩ := bind_eq_ok.1 step
    have one := emitLinkerScriptGlobalsOffset_emits step
    refine (before.trans one).mono ?_
    rintro s (h | rfl)
    · exact h
    · exact known level mem _ named

/-- What the symbols of a finder amount to: the start is left out when there is no level. -/
lemma emitSymbols_eq_ok {g : Gathered}
    (ran : emitSymbols g values (SectionGV area Ty values) M = .ok M') :
    ∃ M1 M2, ((g.finder.list = [] ∧ M1 = M) ∨
        (g.finder.list ≠ [] ∧ emitLinkerScriptGlobalsOffset M g.finder.start values
          (SectionGV area Ty values) 0 = .ok M1)) ∧
      Emits g.finder.levelSymbols M1 M2 ∧
      emitLinkerScriptGlobalsOffset M2 g.finder.stop values (SectionGV area Ty values)
        (values.length + 1) = .ok M' := by
  rw [emitSymbols] at ran
  obtain ⟨M1, first, ran⟩ := bind_eq_ok.1 ran
  obtain ⟨M2, second, third⟩ := bind_eq_ok.1 ran
  have known : ∀ level ∈ g.finder.list.zip g.indices, ∀ s, g.finder.name level.1 = .ok s →
      s ∈ g.finder.levelSymbols :=
    fun level mem s named => ⟨level.1, (List.of_mem_zip mem).1, named⟩
  refine ⟨M1, M2, ?_, emitLevels_emits known second, third⟩
  cases levels : g.finder.list with
  | nil =>
    rw [emitStart, Gathered.indices, levels] at first
    cases first
    exact .inl ⟨rfl, rfl⟩
  | cons level rest =>
    rw [emitStart, Gathered.indices, levels, List.length_cons, List.range_succ_eq_map,
      List.map_cons] at first
    exact .inr ⟨by simp, first⟩

/-- All symbols of a finder. -/
def SectionFinder.symbols (F : SectionFinder) : Set String :=
  {F.start} ∪ F.levelSymbols ∪ {F.stop}

/-- Only symbols of the finder are touched. -/
lemma emitSymbols_emits {g : Gathered}
    (ran : emitSymbols g values (SectionGV area Ty values) M = .ok M') : Emits g.finder.symbols M M' := by
  obtain ⟨M1, M2, first, second, third⟩ := emitSymbols_eq_ok ran
  have start : Emits {g.finder.start} M M1 := by
    obtain ⟨_, rfl⟩ | ⟨_, ran⟩ := first
    · exact .refl
    · exact emitLinkerScriptGlobalsOffset_emits ran
  exact (start.trans second).trans (emitLinkerScriptGlobalsOffset_emits third)

/-- What a turn that ends has done. -/
lemma collectFinder_eq_ok (ran : collectFinder N M F = .ok M') :
    ∃ g values, gather F M = .ok g ∧ g.values = .ok values ∧
      emitSymbols g values (SectionGV (N.newName M F.sectionName) (g.elemType M) values)
        (emitLinkerScriptGlobal N M F.sectionName (g.elemType M) values) = .ok M' := by
  rw [collectFinder] at ran
  obtain ⟨⟨g, values, M1⟩, first, rest⟩ := bind_eq_ok.1 ran
  rw [emitArea] at first
  obtain ⟨g', gathered, first⟩ := bind_eq_ok.1 first
  obtain ⟨values', valued, first⟩ := bind_eq_ok.1 first
  cases first
  exact ⟨g, values, gathered, valued, rest⟩

/-- Every finder with a turn is in the list, and what every turn keeps holds when its turn comes. -/
lemma turns_keep {P : Module → Prop} {finders : List SectionFinder}
    (keeps : ∀ M, ∀ F ∈ finders, ∀ M', P M → collectFinder N M F = .ok M' → P M')
    (init : P M) {Mk : Module} (turn : (F, Mk) ∈ turns N finders M) : P Mk := by
  induction finders generalizing M with
  | nil => cases turn
  | cons F' finders ih =>
    obtain e | turn := List.mem_cons.1 turn
    · cases e
      exact init
    · cases first : collectFinder N M F' with
      | error e =>
        rw [first] at turn
        cases turn
      | ok M1 =>
        rw [first] at turn
        exact ih (fun M F mem => keeps M F (.tail _ mem)) (keeps M F' (.head _) M1 init first) turn

/-- The finder after a run of others has its turn on what they leave. -/
lemma turn_of_run {pre post : List SectionFinder} {Mk : Module}
    (ran : pre.foldlM (collectFinder N) M = .ok Mk) : (F, Mk) ∈ turns N (pre ++ F :: post) M := by
  induction pre generalizing M with
  | nil =>
    cases ran
    exact .head _
  | cons F' pre ih =>
    obtain ⟨M1, first, ran⟩ := bind_eq_ok.1 ran
    rw [List.cons_append, turns, first]
    exact .tail _ (ih ran)

/-- In a run that ends every finder has a turn. -/
lemma turn_of_mem {finders : List SectionFinder} (mem : F ∈ finders)
    (ran : finders.foldlM (collectFinder N) M = .ok M') : ∃ Mk, (F, Mk) ∈ turns N finders M := by
  obtain ⟨pre, post, rfl⟩ := List.append_of_mem mem
  rw [List.foldlM_append] at ran
  obtain ⟨Mk, before, _⟩ := bind_eq_ok.1 ran
  exact ⟨Mk, turn_of_run before⟩

end Irx.Sections
