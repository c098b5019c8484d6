import Irx.Exec.Callee

/-!
# Names and addresses

The lookups of the API that go from a name to an interpreter address and back. Those of functions are
inverse to each other in every reachable state (`function_round_trip`). Those of globals use the map of
the execution engine, which holds interpreter addresses after `updateGlobalMappings` (`globals_placed`),
but the way back looks a host address up in it: it finds the global exactly if the two addresses are one
(`getGlobalValueAtAddress_iff`).
-/

namespace Irx.Exec
open Irx.Lib System

section Embedding

variable (M : Memory.Module) (s : Memory.MyInterpreter)

/-- `Module::getFunction`. What has no name is not in the symbol table. -/
def getFunction (Name : String) : Option Memory.Function :=
  if Name = "" then none else M.functions.find? fun F => F.name = Name

/-- `FindFunctionNamed`; `0` says that there is no such function. -/
def FindFunctionNamed (FunctionName : String) : Except Abort Nat :=
  match (getFunction M FunctionName).filter fun F => !F.isDeclaration with
  | none => .ok 0
  | some F => s.allocator.vptr2vvptr F.address

/-- `findFunctionByVVPtr`: the address is translated, and the host address looked up. -/
def findFunctionByVVPtr (vvptr : Nat) : Except Abort String := do
  let vptr ← Memory.vvptr2vptr s.allocator vvptr
  .ok ((findFunctionByVPtr M vptr).getD "")

/-- `ExecutionEngine::FindGlobalVariableNamed`, in the current mapping. -/
def FindGlobalVariableNamed (Name : String) : Option Memory.GlobalVariable :=
  (if Name = "" then none else s.globals.find? fun GV => GV.name = Name).filter
    fun GV => !GV.isDeclaration

/-- `irx_get_global_addr`: the address of the global of the name, or null. -/
def irx_get_global_addr (name : String) : Nat :=
  match FindGlobalVariableNamed s name with
  | some GV => GV.pointer
  | none => 0

/-- `ExecutionEngine::getGlobalValueAtAddress`, the inverse of the current mapping. -/
def engineGlobalValueAtAddress (Addr : Nat) : Option String :=
  (s.globals.find? fun GV => GV.pointer = Addr && Addr != 0).map Memory.GlobalVariable.name

/-- `getGlobalValueAtAddress`: the address is translated before it is looked up. -/
def getGlobalValueAtAddress (vvptr : Nat) : Except Abort String := do
  let vptr ← Memory.vvptr2vptr s.allocator vvptr
  .ok ((engineGlobalValueAtAddress s vptr).getD "")

/-- The symbol table: what has a name has a name of its own. -/
structure UniqueNames : Prop where
  functions : ((M.functions.map Memory.Function.name).filter fun name => name ≠ "").Nodup
  globals : ((M.globals.map Memory.GlobalVariable.name).filter fun name => name ≠ "").Nodup

/-- The mapping has an exact inverse: no address belongs to two names. -/
def ExactInverse : Prop :=
  ∀ GV ∈ s.globals, ∀ GV' ∈ s.globals, GV.pointer ≠ 0 → GV.pointer = GV'.pointer → GV.name = GV'.name

instance : Decidable (ExactInverse s) :=
  inferInstanceAs (Decidable (∀ GV ∈ s.globals, ∀ GV' ∈ s.globals, GV.pointer ≠ 0 →
    GV.pointer = GV'.pointer → GV.name = GV'.name))

/-- The globals with the addresses that `updateGlobalMappings` gives them from an address on. -/
def placed : Nat → List Memory.GlobalVariable → List Memory.GlobalVariable
  | _, [] => []
  | bump, g :: gs =>
    if g.mapped then { g with pointer := bump } :: placed (bump + Memory.stride g.allocSize) gs
    else g :: placed bump gs

end Embedding

variable {M : Memory.Module} {s : Memory.MyInterpreter} {a : Memory.MapAllocator}
variable {A : Memory.AddressSpace} {f : Memory.Function} {g g' : Memory.GlobalVariable}
variable {blocks : List Memory.Block} {gs gs' : List Memory.GlobalVariable}

/-- No two values of a list have one name. -/
lemma eq_of_named {α : Type*} {name : α → String} {l : List α} {x y : α}
    (unique : ((l.map name).filter fun n => n ≠ "").Nodup) (memx : x ∈ l) (memy : y ∈ l)
    (named : name x ≠ "") (same : name y = name x) : y = x := by
  rw [List.filter_map] at unique
  have inx : x ∈ l.filter ((fun n => n ≠ "") ∘ name) :=
    List.mem_filter.2 ⟨memx, decide_eq_true named⟩
  have iny : y ∈ l.filter ((fun n => n ≠ "") ∘ name) :=
    List.mem_filter.2 ⟨memy, decide_eq_true (same ▸ named)⟩
  exact List.inj_on_of_nodup_map unique iny inx same

/-- A search for a name finds the one value of the name. -/
lemma find?_named {α : Type*} {name : α → String} {l : List α} {x : α}
    (unique : ((l.map name).filter fun n => n ≠ "").Nodup) (mem : x ∈ l) (named : name x ≠ "") :
    (l.find? fun y => name y = name x) = some x := by
  obtain ⟨y, found⟩ : ∃ y, (l.find? fun y => name y = name x) = some y :=
    Option.isSome_iff_exists.1 (List.find?_isSome.2 ⟨x, mem, decide_eq_true rfl⟩)
  have same : name y = name x := of_decide_eq_true (List.find?_some found :)
  rw [found, eq_of_named unique mem (List.mem_of_find?_eq_some found) named same]

/-! ### Functions -/

/-- The name of a defined function leads to an address that leads back to it. -/
lemma find_function (run : (Memory.api M).Outcome (.ok s)) (unique : UniqueNames M)
    (mem : f ∈ M.functions) (defined : f.isDeclaration = false) (named : f.name ≠ "")
    (nonnull : f.address ≠ 0) :
    ∃ vvptr, FindFunctionNamed M s f.name = .ok vvptr ∧ vvptr ≠ 0 ∧
      findFunctionByVVPtr M s vvptr = .ok f.name := by
  have mapped : f.mapped = true := by
    rw [Memory.Function.mapped, defined, bne_iff_ne.2 nonnull]
    rfl
  obtain ⟨vvptr, there, back⟩ := Memory.function_translate run mem mapped
  refine ⟨vvptr, ?_, ?_, ?_⟩
  · have found : getFunction M f.name = some f :=
      (if_neg named).trans (find?_named unique.functions mem named)
    rw [FindFunctionNamed, found, Option.filter_some, defined]
    exact there
  · -- null is no interpreter address, and it is not the address of the function
    intro null
    obtain ⟨base, mark, A, extra, inv⟩ := Memory.outcome_invariant run
    rw [null, inv.rep.vvptr2vptr_outside (.inl (by decide))] at back
    exact nonnull (Except.ok.inj back).symm
  · rw [findFunctionByVVPtr, bind_ok back, findFunctionByVPtr_of_mem mem mapped]
    rfl

/-- In every reachable state the name of a defined function leads to an address that is not null, this
address leads back to the name, and no other function has it. -/
theorem function_round_trip (run : (Memory.api M).Outcome (.ok s)) (unique : UniqueNames M)
    (nonnull : ∀ f ∈ M.functions, f.isDeclaration = false → f.address ≠ 0) (mem : f ∈ M.functions)
    (defined : f.isDeclaration = false) (named : f.name ≠ "") :
    ∃ vvptr, FindFunctionNamed M s f.name = .ok vvptr ∧ vvptr ≠ 0 ∧
      findFunctionByVVPtr M s vvptr = .ok f.name ∧
      ∀ f' ∈ M.functions, f'.isDeclaration = false → f'.name ≠ "" → f' ≠ f →
        FindFunctionNamed M s f'.name ≠ .ok vvptr := by
  obtain ⟨vvptr, there, ne, back⟩ := find_function run unique mem defined named (nonnull f mem defined)
  refine ⟨vvptr, there, ne, back, ?_⟩
  intro f' mem' defined' named' other there'
  obtain ⟨vvptr', e, _, back'⟩ :=
    find_function run unique mem' defined' named' (nonnull f' mem' defined')
  -- one address would lead back to both names
  cases there'.symm.trans e
  have same : f'.name = f.name := Except.ok.inj (back'.symm.trans back)
  exact other (eq_of_named unique.functions mem mem' named same)

/-- The module has no name twice. -/
lemma dlist_names : UniqueNames Memory.dlistModule := ⟨by decide, by decide⟩

/-- The functions of the module after one `structAlloc`. -/
theorem function_round_trip_dlist :
    ∃ vvptr, FindFunctionNamed Memory.dlistModule Memory.dlistState "main" = .ok vvptr ∧ vvptr ≠ 0 ∧
      findFunctionByVVPtr Memory.dlistModule Memory.dlistState vvptr = .ok "main" ∧
      ∀ f' ∈ Memory.dlistModule.functions, f'.isDeclaration = false → f'.name ≠ "" →
        f' ≠ ⟨"main", false, 0x7f0000003000⟩ →
        FindFunctionNamed Memory.dlistModule Memory.dlistState f'.name ≠ .ok vvptr :=
  function_round_trip Memory.dlist_run dlist_names (by decide)
    (f := ⟨"main", false, 0x7f0000003000⟩) (by decide) rfl (by decide)

/-! ### Globals -/

/-- Placing globals keeps their names. -/
@[simp] lemma map_placed_name (bump : Nat) :
    (placed bump gs).map Memory.GlobalVariable.name = gs.map Memory.GlobalVariable.name := by
  induction gs generalizing bump with
  | nil => rfl
  | cons g gs ih =>
    rw [placed]
    split
    · exact congrArg (g.name :: ·) (ih _)
    · exact congrArg (g.name :: ·) (ih _)

/-- The loop over the globals gives out the addresses from the bump address on. -/
lemma mapGlobals_placed {a' : Memory.MapAllocator} {rest : List Nat} (r : Memory.Represents a A)
    (fits : ∀ g ∈ gs, g.mapped = true →
      g.allocSize < 9223372036854775808 ∧ g.pointer + g.allocSize < 18446744073709551616)
    (nd : (A.blocks.map Memory.Block.vptr ++
      ((gs.filter Memory.GlobalVariable.mapped).map Memory.GlobalVariable.pointer ++ rest)).Nodup)
    (e : Memory.mapGlobals gs a = .ok (gs', a')) : gs' = placed A.bump gs := by
  induction gs generalizing a A gs' with
  | nil =>
    cases e
    rfl
  | cons g gs ih =>
    have fits' := fun x hx => fits x (List.mem_cons_of_mem g hx)
    rw [Memory.mapGlobals] at e
    rw [placed]
    cases m : g.mapped with
    | false =>
      rw [List.filter_cons_of_neg (by simp [m])] at nd
      rw [m, if_neg Bool.false_ne_true] at e
      rw [if_neg Bool.false_ne_true]
      obtain ⟨⟨gs1, a1⟩, later, e⟩ := bind_eq_ok.1 e
      cases e
      rw [ih r fits' nd later]
    | true =>
      rw [List.filter_cons_of_pos m, List.map_cons, List.cons_append] at nd
      rw [m, if_pos rfl] at e
      rw [if_pos rfl]
      obtain ⟨⟨alloc, a1⟩, first, e⟩ := bind_eq_ok.1 e
      obtain ⟨⟨gs1, a2⟩, later, e⟩ := bind_eq_ok.1 e
      cases e
      obtain ⟨small, fit⟩ := fits g List.mem_cons_self m
      have nonnull : g.pointer ≠ 0 := by
        rw [Memory.GlobalVariable.mapped, Bool.and_eq_true, bne_iff_ne] at m
        exact m.2
      have new : g.pointer ∉ A.blocks.map Memory.Block.vptr := by
        intro mem
        exact (List.nodup_append'.1 nd).2.2 mem List.mem_cons_self
      obtain ⟨_, full⟩ | ⟨room, a3, added, r', _, _⟩ := r.add (r.hostGives nonnull small fit new)
      · cases first.symm.trans full
      · cases first.symm.trans added
        rw [ih r' fits' ?_ later]
        · rfl
        · rw [Memory.AddressSpace.grow_blocks, List.map_append, List.append_assoc]
          exact nd

/-- No call of the API moves a global. -/
lemma globals_kept {s0 s1 : Memory.MyInterpreter} {c : Memory.Call} (e : c.run M s0 = .ok s1) :
    s1.globals = s0.globals := by
  have malloc : ∀ vmem size, (s0.malloc vmem size).map Prod.snd = .ok s1 → s1.globals = s0.globals := by
    intro vmem size e
    cases ran : s0.malloc vmem size with
    | error =>
      rw [ran] at e
      cases e
    | ok answer =>
      rw [ran] at e
      cases e
      obtain ⟨⟨alloc, a1⟩, _, e⟩ := bind_eq_ok.1 ran
      cases e
      rfl
  cases c with
  | structAlloc name vmem => exact malloc vmem (M.structSize name) e
  | malloc size vmem => exact malloc vmem size e
  | resetExtraAllocations =>
    obtain ⟨a1, _, e⟩ := bind_eq_ok.1 (e : s0.resetExtraAllocations = .ok s1)
    obtain ⟨a2, _, e⟩ := bind_eq_ok.1 e
    cases e
    rfl

/-- In every reachable state the globals are where `updateGlobalMappings` put them. -/
lemma globals_placed (run : (Memory.api M).Outcome (.ok s)) :
    s.globals = placed Memory.startAddr M.globals := by
  refine run.holds (P := fun s => s.globals = placed Memory.startAddr M.globals) (E := fun _ => True)
    ?_ ?_
  · change Holds _ _ (Memory.createInterpreter M)
    cases e : Memory.createInterpreter M with
    | error => trivial
    | ok s0 =>
      obtain ⟨⟨gs', a'⟩, mapped, e⟩ := bind_eq_ok.1 e
      obtain ⟨a1, _, e⟩ := bind_eq_ok.1 e
      cases e
      exact mapGlobals_placed .empty M.fits M.distinct mapped
  · intro s0 c there _
    change Holds _ _ (c.run M s0)
    cases e : c.run M s0 with
    | error => trivial
    | ok s1 => exact (globals_kept e).trans there

/-- In every reachable state the blocks of the globals are there. -/
lemma globals_moved (run : (Memory.api M).Outcome (.ok s)) :
    ∃ A, Memory.Represents s.allocator A ∧
      List.Forall₂ (Memory.Moved A.blocks) M.globals (placed Memory.startAddr M.globals) := by
  have holds := Memory.outcome_base
    (Q := fun base => List.Forall₂ (Memory.Moved base) M.globals (placed Memory.startAddr M.globals))
    run ?_
  · obtain ⟨base, mark, A, extra, moved, inv⟩ := holds
    have sub : base ⊆ A.blocks := by
      rw [inv.blocks]
      exact List.subset_append_left _ _
    exact ⟨A, inv.rep, moved.imp fun _ _ moved => moved.mono sub⟩
  · intro s0 A created inv
    obtain e | ⟨s1, A1, e, inv1, moved⟩ := Memory.createInterpreter_spec M
    · cases created.symm.trans e
    · cases created.symm.trans e
      have first : (Memory.api M).Outcome (.ok s0) := created ▸ (Outcome.start : (Memory.api M).Outcome _)
      rw [globals_placed first] at moved
      have sub : A1.blocks ⊆ A.blocks :=
        fun b mem => inv.rep.live_iff.1 (inv1.rep.live_iff.2 mem)
      exact moved.imp fun _ _ moved => moved.mono sub

/-- The entry of a name in the moved globals belongs to the global of the name. -/
lemma find?_moved {name : String} (moved : List.Forall₂ (Memory.Moved blocks) gs gs')
    (e : (gs.find? fun GV => GV.name = name) = some g) :
    ∃ g', (gs'.find? fun GV => GV.name = name) = some g' ∧ Memory.Moved blocks g g' := by
  induction moved with
  | nil => cases e
  | @cons g1 g1' gs gs' here _ ih =>
    have same : g1'.name = g1.name := by
      cases here with
      | mapped => rfl
      | unmapped => rfl
    rw [List.find?_cons] at e ⊢
    rw [same]
    by_cases hit : g1.name = name
    · rw [decide_eq_true hit] at e ⊢
      cases e
      exact ⟨g1', rfl, here⟩
    · rw [decide_eq_false hit] at e ⊢
      exact ih e

/-- What is found at an address is a global there. -/
lemma engineGlobalValueAtAddress_mem {Addr : Nat} {name : String}
    (e : engineGlobalValueAtAddress s Addr = some name) :
    ∃ GV ∈ s.globals, GV.name = name ∧ GV.pointer = Addr ∧ Addr ≠ 0 := by
  obtain ⟨GV, found, same⟩ := Option.map_eq_some_iff.1 e
  have here := List.find?_some found
  rw [Bool.and_eq_true, decide_eq_true_iff, bne_iff_ne] at here
  exact ⟨GV, List.mem_of_find?_eq_some found, same, here⟩

/-- A global is found at its own address. -/
lemma engineGlobalValueAtAddress_pointer (inverse : ExactInverse s) (mem : g ∈ s.globals)
    (nonnull : g.pointer ≠ 0) : engineGlobalValueAtAddress s g.pointer = some g.name := by
  cases e : engineGlobalValueAtAddress s g.pointer with
  | none =>
    have absent := List.find?_eq_none.1 (Option.map_eq_none_iff.1 e) g mem
    rw [decide_eq_true rfl, bne_iff_ne.2 nonnull] at absent
    exact absurd rfl absent
  | some name =>
    obtain ⟨GV, memGV, same, address, _⟩ := engineGlobalValueAtAddress_mem e
    rw [← same, inverse g mem GV memGV nonnull address.symm]

/-- A name that is not empty was found. -/
lemma eq_some_of_getD {o : Option String} {name : String} (named : name ≠ "")
    (e : Except.ok (ε := Abort) (o.getD "") = .ok name) : o = some name := by
  cases o with
  | none => exact absurd (Except.ok.inj e).symm named
  | some name' => exact congrArg some (Except.ok.inj e)

/-- In every reachable state, looking a global up by name and then by address finds it exactly if its
memory in the host is at the address that the interpreter gives it. -/
theorem getGlobalValueAtAddress_iff (run : (Memory.api M).Outcome (.ok s)) (unique : UniqueNames M)
    (inverse : ExactInverse s) (mem : g ∈ M.globals) (defined : g.isDeclaration = false)
    (named : g.name ≠ "") :
    getGlobalValueAtAddress s (irx_get_global_addr s g.name) = .ok g.name ↔
      g.mapped = true ∧ g ∈ placed Memory.startAddr M.globals := by
  have globals := globals_placed run
  obtain ⟨A, rep, moved⟩ := globals_moved run
  obtain ⟨g', found, moved⟩ := find?_moved moved (find?_named unique.globals mem named)
  rw [← globals] at found ⊢
  have mem' := List.mem_of_find?_eq_some found
  have same : g'.name = g.name := of_decide_eq_true (List.find?_some found :)
  have alone : ∀ h ∈ s.globals, h.name = g.name → h = g' := by
    intro h memh e
    have unique' := unique.globals
    rw [← map_placed_name Memory.startAddr, ← globals] at unique'
    exact eq_of_named unique' mem' memh (same ▸ named) (e.trans same.symm)
  have address : irx_get_global_addr s g.name = g'.pointer := by
    have defined' : g'.isDeclaration = false := by
      cases moved with
      | mapped => exact defined
      | unmapped => exact defined
    rw [irx_get_global_addr, FindGlobalVariableNamed, if_neg named, found, Option.filter_some, defined']
    rfl
  rw [address, getGlobalValueAtAddress]
  cases moved with
  | unmapped unmapped =>
    -- there is no memory, and null is no address
    have null : g.pointer = 0 := by
      rw [Memory.GlobalVariable.mapped, defined] at unmapped
      simpa using unmapped
    rw [null, bind_ok (rep.vvptr2vptr_outside (.inl (by decide)))]
    constructor
    · intro e
      obtain ⟨_, _, _, _, nonnull⟩ := engineGlobalValueAtAddress_mem (eq_some_of_getD named e)
      exact absurd rfl nonnull
    · rintro ⟨mapped, _⟩
      exact absurd (unmapped.symm.trans mapped) Bool.false_ne_true
  | @mapped b mapped memb vptr size =>
    have back : Memory.vvptr2vptr s.allocator b.vvptr = .ok g.pointer := by
      rw [Memory.vvptr2vptr, rep.has memb le_rfl (Nat.le_add_right _ _), if_pos rfl,
        rep.vvptr2vptr_start memb, vptr]
    rw [bind_ok back]
    constructor
    · intro e
      -- the entry found is that of the global, so the address looked up is its interpreter address
      obtain ⟨GV, memGV, e, address, _⟩ := engineGlobalValueAtAddress_mem (eq_some_of_getD named e)
      have there : b.vvptr = g.pointer := by rw [← address, alone GV memGV e]
      rw [there] at mem'
      exact ⟨mapped, mem'⟩
    · rintro ⟨_, memg⟩
      have nonnull : g.pointer ≠ 0 := by
        rw [Memory.GlobalVariable.mapped, Bool.and_eq_true, bne_iff_ne] at mapped
        exact mapped.2
      rw [engineGlobalValueAtAddress_pointer inverse memg nonnull]
      rfl

/-- A module whose global the host has put to where the addresses of the interpreter start. -/
def lowModule : Memory.Module where
  globals := [⟨"t", false, 288, 0x50000000⟩]
  functions := [⟨"main", false, 0x7f0000003000⟩]
  structSize := fun _ => 0
  fits := by decide
  fits_function := by decide
  distinct := by decide

/-- The interpreter of the module as it was created. -/
def lowState : Memory.MyInterpreter :=
  match Memory.createInterpreter lowModule with
  | .error _ => ⟨{}, [], []⟩
  | .ok s => s

/-- In this module the address of the global leads back to it. -/
theorem getGlobalValueAtAddress_low :
    getGlobalValueAtAddress lowState (irx_get_global_addr lowState "t") = .ok "t" :=
  (getGlobalValueAtAddress_iff (M := lowModule) (s := lowState) (g := ⟨"t", false, 288, 0x50000000⟩) .start
    ⟨by decide, by decide⟩ (by decide) (by decide) rfl (by decide)).2 ⟨rfl, by decide⟩

/-- The address of the threads does not lead back to them. -/
theorem getGlobalValueAtAddress_threads :
    (Memory.api Memory.dlistModule).Outcome (.ok Memory.dlistState) ∧
      UniqueNames Memory.dlistModule ∧ ExactInverse Memory.dlistState ∧
      ⟨"t", false, 288, 0x7f0000001000⟩ ∈ Memory.dlistModule.globals ∧
      irx_get_global_addr Memory.dlistState "t" = 0x50000000 ∧
      getGlobalValueAtAddress Memory.dlistState (irx_get_global_addr Memory.dlistState "t") = .ok "" :=
  ⟨Memory.dlist_run, dlist_names, by decide, by decide, rfl, rfl⟩

end Irx.Exec
