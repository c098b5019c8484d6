import Irx.Sections.Bounds

/-!
# Places of levels

The place of a level in the array of a section is behind the entries of the earlier levels. An alias leads
there, whichever levels are empty: the place of an element is the same when an index that equals the
length is written as the start of the next array. The symbols of native levels are told from all others.
-/

namespace Irx.Sections
open Irx.Lib SectionFinder

/-- The number of entries of the levels before the `i`-th one. -/
def Gathered.before (g : Gathered) (i : Nat) : Nat :=
  ((g.finder.list.take i).flatMap fun level => (g.GVs level).values).length

/-- The most elements of a constant array: a constant counts its operands in 27 bits. -/
def maxOperands : Nat := 134217727

/-- The symbol is an alias for the `k`-th element of the array. -/
def StartsAt (M : Module) (symbol area : String) (count k : Nat) : Prop :=
  ∃ A ∈ M.aliases, A.name = symbol ∧ A.area = area ∧ A.count = count ∧ A.position = k

variable {N : Naming} {M Mk M' : Module} {F : SectionFinder} {g : Gathered} {conf : SectionTypeConfig}
variable {Ty : IRType} {count i k : Nat} {area L symbol : String} {G : GlobalVariable}

/-! ### Positions -/

/-- An index at most as large as the length is the place of the alias. -/
lemma GA_position (sec : String) (valueType : IRType) (area : String) (le : k ≤ count)
    (limit : count ≤ maxOperands) : (GA sec valueType area count k).position = k := by
  rw [maxOperands] at limit
  rw [GA, GlobalAlias.position, gepIndices]
  split
  case isTrue last =>
    -- the start of the next array
    rw [last.2, signed32, signed32]
    simp
  case isFalse inside =>
    have lt : k < 2147483648 := by omega
    have small : k % 4294967296 = k := Nat.mod_eq_of_lt (by omega)
    simp only [small, signed32]
    simp [lt]

/-- The next level begins behind the entries of a level. -/
lemma Gathered.before_succ (g : Gathered) (level : g.finder.list[i]? = some L) :
    g.before (i + 1) = g.before i + (g.GVs L).values.length := by
  rw [before, before, List.take_add_one, level, List.flatMap_append, List.length_append]
  simp

/-- No level begins behind the end of the array. -/
lemma Gathered.before_le (g : Gathered) (i : Nat) : g.before i ≤ g.collected.length := by
  rw [before, collected]
  conv_rhs => rw [← List.take_append_drop i g.finder.list, List.flatMap_append, List.length_append]
  exact Nat.le_add_right _ _

/-- The recorded index of a level is its place. -/
lemma Gathered.indices_getElem? (g : Gathered) (level : g.finder.list[i]? = some L) :
    g.indices[i]? = some (g.before i) := by
  have lt : i < g.finder.list.length := (List.getElem?_eq_some_iff.1 level).1
  rw [indices, List.getElem?_map, List.getElem?_range lt]
  rfl

/-- The entries of a level are those from its place to the place of the next level. -/
lemma Gathered.entries_of_level (g : Gathered) (level : g.finder.list[i]? = some L) :
    (g.collected.drop (g.before i)).take (g.before (i + 1) - g.before i) = (g.GVs L).values := by
  obtain ⟨lt, own⟩ := List.getElem?_eq_some_iff.1 level
  have split : g.finder.list = g.finder.list.take i ++ L :: g.finder.list.drop (i + 1) := by
    rw [← own, ← List.drop_eq_getElem_cons lt, List.take_append_drop]
  rw [g.before_succ level, Nat.add_sub_cancel_left, before, collected]
  conv_lhs => rw [split]
  rw [List.flatMap_append, List.flatMap_cons, ← split, List.drop_left, List.take_left]

/-! ### The symbols of native levels -/

/-- No level of a section begins with another one, and none is empty. -/
lemma levelOf_level : ∀ conf ∈ configs, ∀ L ∈ conf.INITLIST,
    L ≠ "" ∧ (native conf).levelOf L = some L := by decide

/-- The symbol of a native level. -/
lemma name_level (known : conf ∈ configs) (mem : L ∈ conf.INITLIST) :
    (native conf).name L = .ok (conf.namePrefix ++ L ++ conf.namePostfix) := by
  obtain ⟨_, own⟩ := levelOf_level conf known L mem
  simp only [name, own]
  rfl

/-- The symbol of a level is none of the boundary symbols of its finder. -/
lemma level_not_boundary : ∀ conf ∈ configs, ∀ s ∈ levelNames conf, s ∉ (native conf).boundary := by
  decide

/-- A native finder learns no level. -/
lemma grown_native {F' : SectionFinder} (grown : Grown (native conf) F') : F' = native conf := by
  obtain ⟨kind, list, nodup⟩ := F'
  cases grown.kind
  cases grown.native conf rfl
  rfl

/-- Different levels have different symbols. -/
lemma name_injective (known : conf ∈ configs) {L' : String} (mem : L ∈ conf.INITLIST)
    (mem' : L' ∈ conf.INITLIST) (named : (native conf).name L = .ok symbol)
    (named' : (native conf).name L' = .ok symbol) : L = L' := by
  rw [name_level known mem] at named
  rw [name_level known mem'] at named'
  have same := (Except.ok.inj named).trans (Except.ok.inj named').symm
  exact (String.append_right_inj _).1 ((String.append_left_inj _).1 same)

/-- Native sections share no level symbol. -/
lemma level_other_native {conf' : SectionTypeConfig} (known : conf ∈ configs)
    (known' : conf' ∈ configs) (ne : conf ≠ conf') (mem : symbol ∈ levelNames conf) :
    symbol ∉ (native conf').boundary ∧ symbol ∉ levelNames conf' := by
  have apart : ∀ conf ∈ configs, ∀ conf' ∈ configs, conf.sectionName ≠ conf'.sectionName →
      ∀ s ∈ levelNames conf, s ∉ (native conf').boundary ∧ s ∉ levelNames conf' := by decide
  have nodup : (configs.map SectionTypeConfig.sectionName).Nodup := by decide
  refine apart conf known conf' known' (fun same => ne ?_) symbol mem
  exact List.inj_on_of_nodup_map nodup known known' same

/-- The symbol of a level belongs to no other finder. -/
lemma level_other (known : conf ∈ configs) (mem : symbol ∈ levelNames conf) (initial : F.Initial)
    (ne : F ≠ native conf) : symbol ∉ F.boundary ∧ ¬ F.Label symbol := by
  obtain ⟨start, stop, area⟩ := native_ends conf known symbol (List.mem_append_right _ mem)
  cases initial with
  | native known' =>
    exact level_other_native known known' (fun same => ne (same ▸ rfl)) mem
  | static object =>
    refine ⟨fun there => ?_, area⟩
    obtain ends | ends := static_boundary there
    · exact start ends
    · exact stop ends

end Irx.Sections
