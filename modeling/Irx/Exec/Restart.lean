import Irx.Exec.Dispatch
import Irx.Exec.Initialize

/-!
# Globals after a reset

`Process` is the interpreter together with the host memory, the operands of the constants and the flags of
the globals. Between its creation and a reset interpreted code may leave any memory and any operands
(`Event.execute`). The reset runs `InitializeGlobals` over the memory it finds, so it restores the bytes
that an initializer gives a value and leaves those of undefined parts and of padding as the interpreted
code left them (`reset_restores_initializers`).
-/

namespace Irx.Exec
open Irx.Lib System
open Memory (dlistModule)

/-- A module, what it says of its globals, and its constant expressions. Only definitions have an
initializer. -/
structure Program (Ty : Type) where
  module : Memory.Module
  definitions : List (Definition Ty)
  graph : ConstantGraph
  defined : ∀ (i : Nat) (g : Memory.GlobalVariable) (d : Definition Ty), module.globals[i]? = some g →
    definitions[i]? = some d → d.initializer.isSome = true → g.isDeclaration = false

/-- The interpreter, the flags of the globals, the operands of the constants and the host memory. -/
structure Process (Ty : Type) where
  interpreter : Memory.MyInterpreter
  definitions : List (Definition Ty)
  operands : Operands
  memory : Bytes

/-- What happens between two calls of a client. -/
inductive Event where
  | structAlloc (name : String) (vmem : Nat)
  | malloc (size vmem : Nat)
  | execute (operands : Operands) (memory : Bytes)
  | resetExtraAllocations

section Embedding

variable {Ty GV Mem : Type} (T : Target Ty GV) (E : Engine GV Mem) (P : Program Ty)

/-- `createInterpreter`, on the memory that the engine allocated. -/
def createInterpreter (memory : Bytes) : Except Abort (Process Ty) := do
  let I ← Memory.createInterpreter P.module
  let operands : Operands := fun u => some (P.graph.operand u)
  let isThreadLocal := savedFlags P.module.globals P.definitions
  let value := getConstantValue T E P.module P.graph I.allocator operands
  let (definitions, memory) ← InitializeGlobals T E I.allocator value isThreadLocal I.globals
    (P.definitions.map Definition.faked) memory
  .ok ⟨I, definitions, operands, memory⟩

/-- `resetExtraAllocations`: the blocks are reset, and the globals initialized again. -/
def Process.resetExtraAllocations (p : Process Ty) : Except Abort (Process Ty) := do
  let I ← p.interpreter.resetExtraAllocations
  let value := getConstantValue T E P.module P.graph I.allocator p.operands
  let (definitions, memory) ← InitializeGlobals T E I.allocator value (fun _ => none) I.globals
    p.definitions p.memory
  .ok { p with interpreter := I, definitions := definitions, memory := memory }

/-- One event. -/
def Process.step (p : Process Ty) : Event → Except Abort (Process Ty)
  | .structAlloc name vmem => do
    let (_, I) ← p.interpreter.structAlloc P.module name vmem
    .ok { p with interpreter := I }
  | .malloc size vmem => do
    let (_, I) ← p.interpreter.malloc vmem size
    .ok { p with interpreter := I }
  | .execute operands memory => .ok { p with operands := operands, memory := memory }
  | .resetExtraAllocations => p.resetExtraAllocations T E P

/-- The answers a host can give. -/
def Process.HostAllowed (p : Process Ty) : Event → Prop
  | .structAlloc name vmem =>
    Memory.HostGives p.interpreter.allocator vmem (P.module.structSize name)
  | .malloc size vmem => Memory.HostGives p.interpreter.allocator vmem size
  | .execute _ _ => True
  | .resetExtraAllocations => True

/-- The interpreter on a host memory, driven by its client. -/
def process (memory : Bytes) : System Abort (Process Ty) Event where
  start := createInterpreter T E P memory
  step p event := p.step T E P event
  allowed p event := p.HostAllowed P event

/-- No global with an initializer and this name is thread-local. Only globals without a name can share
one. -/
def Program.Own (name : String) : Prop :=
  ∀ (i : Nat) (g : Memory.GlobalVariable) (d : Definition Ty), P.module.globals[i]? = some g →
    P.definitions[i]? = some d → g.name = name → d.initializer.isSome = true → d.isThreadLocal = false

/-- The byte of the host memory has a value in the initializer of a global. -/
def Program.Initializes (x : Nat) : Prop :=
  ∃ (i : Nat) (g : Memory.GlobalVariable) (d : Definition Ty) (init : Init Ty),
    P.module.globals[i]? = some g ∧ P.definitions[i]? = some d ∧ d.initializer = some init ∧
      g.mapped = true ∧ x ∈ init.cells T g.pointer

end Embedding

variable {Ty GV Mem : Type} {T : Target Ty GV} {E : Engine GV Mem} {P : Program Ty} {m0 : Bytes}
variable {p0 p p' : Process Ty} {A : Memory.AddressSpace}

/-- Allocators with the same maps give constants the same values. -/
lemma getConstantValue_congr {M : Memory.Module} {G : ConstantGraph} {a a' : Memory.MapAllocator}
    (same : Memory.SameMaps a a') (ops : Operands) :
    getConstantValue T E M G a ops = getConstantValue T E M G a' ops := by
  have plain : ∀ C, E.getConstantValue' M a C ops = E.getConstantValue' M a' C ops := by
    intro C
    have guest : guestAddress a = guestAddress a' := by
      funext vptr
      rw [guestAddress, guestAddress, same.vptr2vvptr]
    rw [Engine.getConstantValue', Engine.getConstantValue', guest]
  have nested : ∀ depth C, constantValue T E M a ops depth C = constantValue T E M a' ops depth C := by
    intro depth
    induction depth with
    | zero =>
      intro C
      cases C with
      | constantExpr => rfl
      | plain => exact congrArg Except.ok (plain _)
      | globalAlias => exact congrArg Except.ok (plain _)
    | succ depth ih =>
      intro C
      cases C with
      | constantExpr =>
        rw [constantValue, constantValue]
        simp only [ih]
      | plain => exact congrArg Except.ok (plain _)
      | globalAlias => exact congrArg Except.ok (plain _)
  funext C
  exact nested _ C

/-- Initializing depends on the addresses of the allocator only. -/
lemma InitializeGlobals_congr {value : Constant → Except Abort GV} {a a' : Memory.MapAllocator}
    {flags : Flags} (same : Memory.SameMaps a a') (gs : List Memory.GlobalVariable)
    (ds : List (Definition Ty)) (m : Bytes) :
    InitializeGlobals T E a value flags gs ds m = InitializeGlobals T E a' value flags gs ds m := by
  induction gs generalizing ds m with
  | nil => cases ds <;> rfl
  | cons g gs ih =>
    cases ds with
    | nil => rfl
    | cons d ds =>
      have here : ∀ d m, initializeGlobal T E a value flags g d m =
          initializeGlobal T E a' value flags g d m := by
        intro d m
        rw [initializeGlobal, initializeGlobal, same.has, same.vvptr2vptr]
      rw [InitializeGlobals, InitializeGlobals, here]
      simp only [ih]

/-- What no event changes: the flags and addresses of the globals, and the blocks below the frozen
address. -/
structure Kept (p0 : Process Ty) (A : Memory.AddressSpace) (p : Process Ty) : Prop where
  definitions : p.definitions = p0.definitions
  globals : p.interpreter.globals = p0.interpreter.globals
  space : ∃ A' extra, Memory.Invariant A.blocks A.bump p.interpreter A' extra

/-- A reset of the interpreter goes back to the maps it was created with. -/
lemma Kept.reset (kept : Kept p0 A p) (inv : Memory.Invariant A.blocks A.bump p0.interpreter A []) :
    ∃ I, p.interpreter.resetExtraAllocations = .ok I ∧ I.globals = p0.interpreter.globals ∧
      Memory.SameMaps I.allocator p0.interpreter.allocator ∧
      ∃ A', Memory.Invariant A.blocks A.bump I A' [] := by
  obtain ⟨A1, extra, inv1⟩ := kept.space
  obtain ⟨I, A2, e, blocks, _, inv2⟩ := inv1.reset
  refine ⟨I, e, ?_, inv2.rep.sameMaps inv.rep blocks, A2, inv2⟩
  rw [Memory.MyInterpreter.resetExtraAllocations] at e
  obtain ⟨a1, _, e⟩ := bind_eq_ok.1 e
  obtain ⟨a2, _, e⟩ := bind_eq_ok.1 e
  cases e
  exact kept.globals

/-- An allocation changes none of this. -/
lemma Kept.malloc (kept : Kept p0 A p) {vmem size : Nat} {alloc : Memory.IrxAlloc}
    {I : Memory.MyInterpreter} (host : Memory.HostGives p.interpreter.allocator vmem size)
    (e : p.interpreter.malloc vmem size = .ok (alloc, I)) : Kept p0 A { p with interpreter := I } := by
  obtain ⟨A1, extra, inv⟩ := kept.space
  refine ⟨kept.definitions, ?_, ?_⟩
  · rw [Memory.MyInterpreter.malloc] at e
    obtain ⟨⟨_, a⟩, _, e⟩ := bind_eq_ok.1 e
    cases e
    exact kept.globals
  · rcases inv.malloc host with ⟨_, failed⟩ | ⟨room, I', e', inv'⟩
    · cases e.symm.trans failed
    · cases e.symm.trans e'
      exact ⟨_, _, inv'⟩

/-- The creation, taken apart. -/
lemma createInterpreter_spec (created : createInterpreter T E P m0 = .ok p0) :
    ∃ A, Memory.Invariant A.blocks A.bump p0.interpreter A [] ∧
      List.Forall₂ (Memory.Moved A.blocks) P.module.globals p0.interpreter.globals ∧
      p0.operands = (fun u => some (P.graph.operand u)) ∧
      InitializeGlobals T E p0.interpreter.allocator
        (getConstantValue T E P.module P.graph p0.interpreter.allocator p0.operands)
        (savedFlags P.module.globals P.definitions) p0.interpreter.globals
        (P.definitions.map Definition.faked) m0 = .ok (p0.definitions, p0.memory) := by
  rw [createInterpreter] at created
  obtain ⟨I, e, created⟩ := bind_eq_ok.1 created
  obtain ⟨⟨definitions, memory⟩, initialized, created⟩ := bind_eq_ok.1 created
  cases created
  rcases Memory.createInterpreter_spec P.module with failed | ⟨I', A, e', inv, moved⟩
  · cases e.symm.trans failed
  · cases e.symm.trans e'
    exact ⟨A, inv, moved, rfl, initialized⟩

/-- A reset in a state that was kept, in terms of the maps at creation. -/
lemma Kept.resetExtraAllocations (kept : Kept p0 A p)
    (inv : Memory.Invariant A.blocks A.bump p0.interpreter A []) :
    ∃ I, I.globals = p0.interpreter.globals ∧ (∃ A', Memory.Invariant A.blocks A.bump I A' []) ∧
      p.resetExtraAllocations T E P = (InitializeGlobals T E p0.interpreter.allocator
        (getConstantValue T E P.module P.graph p0.interpreter.allocator p.operands) (fun _ => none)
        p0.interpreter.globals p0.definitions p.memory >>= fun result =>
          .ok { p with interpreter := I, definitions := result.1, memory := result.2 }) := by
  obtain ⟨I, e, globals, same, space⟩ := kept.reset inv
  refine ⟨I, globals, space, ?_⟩
  rw [Process.resetExtraAllocations, bind_ok e, getConstantValue_congr same, globals,
    kept.definitions]
  simp only [InitializeGlobals_congr same]

/-- Every event keeps what is kept. -/
lemma Kept.step (kept : Kept p0 A p) (inv : Memory.Invariant A.blocks A.bump p0.interpreter A [])
    {event : Event} (host : p.HostAllowed P event) (e : p.step T E P event = .ok p') :
    Kept p0 A p' := by
  cases event with
  | structAlloc name vmem =>
    obtain ⟨⟨alloc, I⟩, served, e⟩ := bind_eq_ok.1 e
    cases e
    exact kept.malloc host served
  | malloc size vmem =>
    obtain ⟨⟨alloc, I⟩, served, e⟩ := bind_eq_ok.1 e
    cases e
    exact kept.malloc host served
  | execute operands memory =>
    cases e
    exact ⟨kept.definitions, kept.globals, kept.space⟩
  | resetExtraAllocations =>
    obtain ⟨I, globals, ⟨A', inv'⟩, ran⟩ := kept.resetExtraAllocations (T := T) (E := E) (P := P) inv
    obtain ⟨⟨definitions, memory⟩, initialized, e⟩ := bind_eq_ok.1 (ran.symm.trans e)
    cases e
    exact ⟨(InitializeGlobals_kept initialized).2 rfl, globals, A', [], inv'⟩

/-- No run changes any of this. -/
lemma kept_of_run (created : createInterpreter T E P m0 = .ok p0)
    (inv : Memory.Invariant A.blocks A.bump p0.interpreter A [])
    (run : (process T E P m0).Outcome (.ok p)) : Kept p0 A p := by
  refine run.holds (P := Kept p0 A) (E := fun _ => True) ?_ ?_
  · show Holds _ _ (createInterpreter T E P m0)
    rw [created]
    exact ⟨rfl, rfl, A, [], inv⟩
  · intro p event kept host
    show Holds _ _ (p.step T E P event)
    cases e : p.step T E P event with
    | error => trivial
    | ok p' => exact kept.step inv host e

/-- Related to an item of a list is the item there of the other list. -/
lemma forall₂_right {α β : Type} {R : α → β → Prop} {l : List α} {l' : List β} {i : Nat} {a : α}
    (related : List.Forall₂ R l l') (e : l[i]? = some a) : ∃ b, l'[i]? = some b ∧ R a b := by
  induction related generalizing i with
  | nil => cases e
  | cons here _ ih =>
    cases i with
    | zero =>
      cases e
      exact ⟨_, rfl, here⟩
    | succ i => exact ih e

/-- Taking a definition for a declaration keeps its initializer. -/
lemma Definition.faked_initializer (d : Definition Ty) : d.faked.initializer = d.initializer := by
  rw [Definition.faked]
  split
  · rfl
  · rfl

/-- Where a global with an initializer is after the creation, and the flag it is left with. -/
lemma global_initialized (inv : Memory.Invariant A.blocks A.bump p0.interpreter A [])
    (moved : List.Forall₂ (Memory.Moved A.blocks) P.module.globals p0.interpreter.globals)
    {value : Constant → Except Abort GV}
    (initialized : InitializeGlobals T E p0.interpreter.allocator value
      (savedFlags P.module.globals P.definitions) p0.interpreter.globals
      (P.definitions.map Definition.faked) m0 = .ok (p0.definitions, p0.memory))
    {i : Nat} {g : Memory.GlobalVariable} {d : Definition Ty} {init : Init Ty}
    (eg : P.module.globals[i]? = some g) (ed : P.definitions[i]? = some d)
    (initializer : d.initializer = some init) (mapped : g.mapped = true) :
    ∃ g' d' flag, p0.interpreter.globals[i]? = some g' ∧ Found p0.interpreter.allocator g' g.pointer ∧
      p0.definitions[i]? = some d' ∧ d'.initializer = some init ∧ d'.isThreadLocal = flag ∧
      savedFlags P.module.globals P.definitions g.name = some flag := by
  obtain ⟨g', eg', move⟩ := forall₂_right moved eg
  cases move with
  | unmapped unmapped => cases mapped.symm.trans unmapped
  | @mapped b _ memb vptr size =>
    have found : Found p0.interpreter.allocator { g with pointer := b.vvptr } g.pointer := by
      refine ⟨inv.rep.has memb le_rfl (Nat.le_add_right _ _), ?_, ?_⟩
      · exact (inv.rep.vvptr2vptr_start memb).trans (congrArg Except.ok vptr)
      · exact vptr ▸ inv.rep.nonnull b memb
    have ed' : (P.definitions.map Definition.faked)[i]? = some d.faked := by
      rw [List.getElem?_map, ed]
      rfl
    have kept := InitializeGlobals_restored initialized eg' ed'
      (d.faked_initializer.trans initializer) found
    obtain ⟨flag, saved⟩ := savedFlags_isSome eg ed (Option.isSome_of_eq_some initializer)
    refine ⟨_, _, flag, eg', found, kept, d.faked_initializer.trans initializer, ?_, saved⟩
    show (savedFlags P.module.globals P.definitions g.name).getD _ = flag
    rw [saved]
    rfl

/-- A global that is found after the creation is one with memory. -/
lemma original_of_found (inv : Memory.Invariant A.blocks A.bump p0.interpreter A [])
    (moved : List.Forall₂ (Memory.Moved A.blocks) P.module.globals p0.interpreter.globals)
    {value : Constant → Except Abort GV}
    (initialized : InitializeGlobals T E p0.interpreter.allocator value
      (savedFlags P.module.globals P.definitions) p0.interpreter.globals
      (P.definitions.map Definition.faked) m0 = .ok (p0.definitions, p0.memory))
    {i : Nat} {g' : Memory.GlobalVariable} {d' : Definition Ty} {init : Init Ty} {GA : Nat}
    (eg' : p0.interpreter.globals[i]? = some g') (ed' : p0.definitions[i]? = some d')
    (initializer : d'.initializer = some init) (found : Found p0.interpreter.allocator g' GA) :
    ∃ g d, P.module.globals[i]? = some g ∧ P.definitions[i]? = some d ∧ d.initializer = some init ∧
      g.mapped = true ∧ GA = g.pointer := by
  obtain ⟨g, eg, move⟩ := forall₂_right moved.flip eg'
  have kept := congrArg (·[i]?) (InitializeGlobals_kept initialized).1
  simp only [List.getElem?_map, List.map_map, ed', Option.map_some] at kept
  obtain ⟨d, ed, same⟩ := Option.map_eq_some_iff.1 kept.symm
  have initializer' : d.initializer = some init := by
    rw [← d.faked_initializer, ← initializer]
    exact same
  have defined := P.defined i g d eg ed (Option.isSome_of_eq_some initializer')
  cases move with
  | @mapped b mapped memb vptr size =>
    cases (inv.rep.vvptr2vptr_start memb).symm.trans found.address
    exact ⟨g, d, eg, ed, initializer', mapped, vptr⟩
  | unmapped unmapped =>
    -- a definition without memory has the null pointer, which no allocator knows
    have null : g'.pointer = 0 := by
      rw [Memory.GlobalVariable.mapped, defined] at unmapped
      simpa using unmapped
    have absent := inv.rep.has_outside (k := 0) (.inl (by decide))
    rw [← null, found.has] at absent
    cases absent

/-- The reset initializes every global that has a name of its own. -/
lemma mem_globalCells (inv : Memory.Invariant A.blocks A.bump p0.interpreter A [])
    (moved : List.Forall₂ (Memory.Moved A.blocks) P.module.globals p0.interpreter.globals)
    {value : Constant → Except Abort GV}
    (initialized : InitializeGlobals T E p0.interpreter.allocator value
      (savedFlags P.module.globals P.definitions) p0.interpreter.globals
      (P.definitions.map Definition.faked) m0 = .ok (p0.definitions, p0.memory))
    {i x : Nat} {g : Memory.GlobalVariable} {d : Definition Ty} {init : Init Ty}
    (eg : P.module.globals[i]? = some g) (ed : P.definitions[i]? = some d)
    (initializer : d.initializer = some init) (mapped : g.mapped = true) (own : P.Own g.name)
    (inside : x ∈ init.cells T g.pointer) :
    x ∈ globalCells T p0.interpreter.allocator p0.interpreter.globals p0.definitions := by
  obtain ⟨g', d', flag, eg', found, ed', initializer', isThreadLocal, saved⟩ :=
    global_initialized inv moved initialized eg ed initializer mapped
  obtain ⟨j, gj, dj, egj, edj, named, isSomej, same⟩ := savedFlags_of saved
  have off : flag = false := same.symm.trans (own j gj dj egj edj named isSomej)
  exact ⟨i, g', d', init, g.pointer, eg', ed', initializer', isThreadLocal.trans off, found, inside⟩

/-- The reset initializes nothing else. -/
lemma initializes_of_mem (inv : Memory.Invariant A.blocks A.bump p0.interpreter A [])
    (moved : List.Forall₂ (Memory.Moved A.blocks) P.module.globals p0.interpreter.globals)
    {value : Constant → Except Abort GV}
    (initialized : InitializeGlobals T E p0.interpreter.allocator value
      (savedFlags P.module.globals P.definitions) p0.interpreter.globals
      (P.definitions.map Definition.faked) m0 = .ok (p0.definitions, p0.memory)) {x : Nat}
    (mem : x ∈ globalCells T p0.interpreter.allocator p0.interpreter.globals p0.definitions) :
    P.Initializes T x := by
  obtain ⟨i, g', d', init, GA, eg', ed', initializer, _, found, inside⟩ := mem
  obtain ⟨g, d, eg, ed, initializer', mapped, rfl⟩ :=
    original_of_found inv moved initialized eg' ed' initializer found
  exact ⟨i, g, d, init, eg, ed, initializer', mapped, inside⟩

/-- A reset restores the initializers. In every run, if the operands of the constants are those of the
creation, the reset succeeds and gives every byte that has a value in the initializer of a global that is
not thread-local the value it had right after the creation; the bytes without a value, those of undefined
parts and of padding, stay as the interpreted code left them. -/
theorem reset_restores_initializers {Ty GV Mem : Type} {T : Target Ty GV} {E : Engine GV Mem}
    {P : Program Ty} {m0 : Bytes} {p0 p : Process Ty} (created : createInterpreter T E P m0 = .ok p0)
    (run : (process T E P m0).Outcome (.ok p)) (parsed : p.operands = p0.operands) :
    ∃ p', p.resetExtraAllocations T E P = .ok p' ∧
      (∀ (i : Nat) (g : Memory.GlobalVariable) (d : Definition Ty) (init : Init Ty) (off : Nat),
        P.module.globals[i]? = some g → P.definitions[i]? = some d → g.mapped = true →
        d.initializer = some init → P.Own g.name → init.Covers T off →
        p'.memory (g.pointer + off) = p0.memory (g.pointer + off)) ∧
      ∀ x, ¬ P.Initializes T x → p'.memory x = p.memory x := by
  obtain ⟨A, inv, moved, operands, initialized⟩ := createInterpreter_spec created
  have kept := kept_of_run created inv run
  obtain ⟨I, _, _, ran⟩ := kept.resetExtraAllocations (T := T) (E := E) (P := P) inv
  -- the reset is the creation's initialization once more, over another memory
  have settled := InitializeGlobals_settled initialized
  have first : initializeAgain T E p0.interpreter.allocator _ p0.interpreter.globals p0.definitions m0 =
      .ok p0.memory := congrArg (Except.map Prod.snd) settled
  obtain ⟨memory, again, inside, outside⟩ :=
    (InitializeGlobals_overwrites settled).again first p.memory
  rw [parsed] at ran
  rw [initializeAgain] at again
  cases result : InitializeGlobals T E p0.interpreter.allocator
      (getConstantValue T E P.module P.graph p0.interpreter.allocator p0.operands) (fun _ => none)
      p0.interpreter.globals p0.definitions p.memory with
  | error =>
    rw [result] at again
    cases again
  | ok result' =>
    rw [result] at again ran
    cases again
    refine ⟨_, ran, ?_, ?_⟩
    · intro i g d init off eg ed mapped initializer own covers
      have mem := mem_globalCells inv moved initialized eg ed initializer mapped own
        ⟨off, covers, rfl⟩
      exact inside _ mem
    · intro x none
      exact outside x fun mem => none (initializes_of_mem inv moved initialized mem)

/-- A target whose types are their sizes and whose structure elements are four bytes apart. -/
def dlistTarget : Target Nat Nat where
  getTypeAllocSize := id
  getTypeStoreSize := id
  getElementOffset := fun _ i => 4 * i
  isArrayTy := fun _ => false
  isPointerTy := fun _ => false
  isFirstClassType := fun _ => true
  isGetElementPtr := fun _ => false
  accumulateConstantOffset := fun _ _ => 0
  storedSize := id
  StoreValueToMemory := fun Val size => ⟨littleEndian size Val, length_littleEndian _ _⟩

/-- A byte and a word with padding between them. -/
def dlistThread : Init Nat := .struct 96 [.value 1 (.plain "prio"), .value 4 (.plain "state")]

/-- The threads of the module: one initialized, one undefined, one zero. -/
def dlistThreads : Init Nat := .array 96 [dlistThread, .undef, .aggregateZero 96]

/-- The program with the threads. -/
def dlistProgram : Program Nat where
  module := dlistModule
  definitions := [⟨some dlistThreads, false⟩, ⟨none, false⟩]
  graph := noConstants
  defined := by
    rintro (_ | _ | i) g d eg ed initialized
    · cases eg
      rfl
    · cases ed
      cases initialized
    · cases eg

/-- Its process, as it was created. -/
def dlistProcess : Process Nat :=
  match createInterpreter dlistTarget dlistEngine dlistProgram (fun _ => 0) with
  | .ok p => p
  | .error _ => ⟨⟨{}, [], []⟩, [], fun _ => none, fun _ => 0⟩

/-- The process after interpreted code has filled the memory. -/
def filled : Process Nat := { dlistProcess with memory := fun _ => 7 }

/-- The process is created. -/
lemma dlist_created :
    createInterpreter dlistTarget dlistEngine dlistProgram (fun _ => 0) = .ok dlistProcess := by
  have runs : (createInterpreter dlistTarget dlistEngine dlistProgram fun _ => 0).isOk = true := by
    decide +kernel
  cases e : createInterpreter dlistTarget dlistEngine dlistProgram fun _ => 0 with
  | error =>
    rw [e] at runs
    cases runs
  | ok p => rw [dlistProcess, e]

/-- The run in which the threads are filled. -/
lemma filled_run : (process dlistTarget dlistEngine dlistProgram (fun _ => 0)).Outcome (.ok filled) := by
  have created := Outcome.start (S := process dlistTarget dlistEngine dlistProgram (fun _ => 0))
  rw [show (process dlistTarget dlistEngine dlistProgram (fun _ => 0)).start = .ok dlistProcess from
    dlist_created] at created
  exact Outcome.step (S := process dlistTarget dlistEngine dlistProgram (fun _ => 0))
    (i := .execute dlistProcess.operands fun _ => 7) created trivial

/-- The second field of the first thread is initialized. -/
lemma dlistThreads_covers : dlistThreads.Covers dlistTarget 4 := by
  have word : (Init.value 4 (.plain "state")).Covers dlistTarget 0 := .value (by decide)
  have thread : dlistThread.Covers dlistTarget (4 * 1 + 0) := .struct (i := 1) rfl word
  have threads : dlistThreads.Covers dlistTarget (elementPlace dlistTarget 96 0 + (4 * 1 + 0)) :=
    .array rfl thread
  exact threads

/-- The name of the threads belongs to no thread-local global. -/
lemma dlist_own : dlistProgram.Own "t" := by
  rintro (_ | _ | i) g d eg ed _ initialized
  · cases ed
    rfl
  · cases ed
    cases initialized
  · cases ed

/-- The first byte of the word in the first thread is restored. -/
theorem reset_restores_initializers_dlist : ∃ p',
    filled.resetExtraAllocations dlistTarget dlistEngine dlistProgram = .ok p' ∧
      p'.memory (0x7f0000001000 + 4) = dlistProcess.memory (0x7f0000001000 + 4) := by
  have parsed : filled.operands = dlistProcess.operands := by rw [filled]
  obtain ⟨p', ran, inside, _⟩ := reset_restores_initializers dlist_created filled_run parsed
  have byte := inside 0 ⟨"t", false, 288, 0x7f0000001000⟩ ⟨some dlistThreads, false⟩ dlistThreads 4 rfl
    rfl rfl rfl dlist_own dlistThreads_covers
  dsimp only at byte
  exact ⟨p', ran, byte⟩

/-- The padding before the word is not: it is zero when the interpreter is created, and after a reset it
still holds what the interpreted code wrote. -/
theorem padding_not_restored :
    (process dlistTarget dlistEngine dlistProgram (fun _ => 0)).Outcome (.ok filled) ∧
      dlistProcess.memory 0x7f0000001001 = 0 ∧
      ((filled.resetExtraAllocations dlistTarget dlistEngine dlistProgram).toOption.map fun p' =>
        p'.memory 0x7f0000001001) = some 7 :=
  ⟨filled_run, by decide +kernel, by decide +kernel⟩

end Irx.Exec
