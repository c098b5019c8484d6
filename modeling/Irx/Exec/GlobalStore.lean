import Irx.Exec.Lookup
import Irx.Exec.Untyped

/-!
# Globals as a store

`irx_set_global` copies bytes into the host memory of a global variable, `irx_get_global_var` loads a value of
the type of the variable from there. A client that only allocates, sets globals and resets sees a `Store`: the
contents of the globals by name, which a reset takes back to the initializers. The process refines the store
in every run, so a global is read as it was set last, or initialized (`global_store`).
-/

namespace Irx.Exec
open Irx.Lib System
open Memory (dlistModule)

section Embedding

variable {Ty GV Mem : Type} (T : Target Ty GV) (E : Engine GV Mem) (P : Program Ty)
variable (load : Ty → Bytes → Nat → Except Abort GV) (getValueType : String → Ty)
variable (s : Memory.MyInterpreter)

/-- `irx_set_global`. A name that the engine does not find has no memory to copy to. -/
def irx_set_global (name : String) (Memory : List UInt8) (m : Bytes) : Except Abort Bytes := do
  let Addr ← s.allocator.vvptr2vptr (irx_get_global_addr s name)
  if Addr = 0 then .error .undefined else .ok (write m Addr Memory)

/-- `irx_get_global_var`, where the type is that of the variable which the engine finds at the address. -/
def irx_get_global_var (name : String) (m : Bytes) : Except Abort GV := do
  let VVAddr := irx_get_global_addr s name
  let Addr ← s.allocator.vvptr2vptr VVAddr
  match engineGlobalValueAtAddress s VVAddr with
  | none => .error .undefined
  | some GVar => LoadValueFromMemory T E load (getValueType GVar) m Addr

/-- A call of a client that does not run interpreted code. -/
inductive ClientCall where
  | structAlloc (name : String) (vmem : Nat)
  | malloc (size vmem : Nat)
  | irx_set_global (name : String) (Memory : List UInt8)
  | resetExtraAllocations

/-- A call of a client, on the process. -/
def Process.client (p : Process Ty) : ClientCall → Except Abort (Process Ty)
  | .structAlloc name vmem => p.step T E P (.structAlloc name vmem)
  | .malloc size vmem => p.step T E P (.malloc size vmem)
  | .irx_set_global name Memory => do
    let memory ← irx_set_global p.interpreter name Memory p.memory
    p.step T E P (.execute p.operands memory)
  | .resetExtraAllocations => p.step T E P .resetExtraAllocations

/-- The host can serve the request, and no more bytes are set than the variable has. -/
def Process.ClientAllowed (p : Process Ty) : ClientCall → Prop
  | .structAlloc name vmem => p.HostAllowed P (.structAlloc name vmem)
  | .malloc size vmem => p.HostAllowed P (.malloc size vmem)
  | .irx_set_global name Memory =>
    ∃ g ∈ P.module.globals, g.name = name ∧ g.mapped = true ∧ Memory.length ≤ g.allocSize
  | .resetExtraAllocations => True

/-! ### The store -/

/-- The contents of the globals: a name and an offset to a byte. -/
abbrev Store := String → Nat → UInt8

/-- The bytes that a reset takes back: those with a value in an initializer that is used. -/
def Program.Restores (name : String) (off : Nat) : Prop :=
  ∃ (i : Nat) (g : Memory.GlobalVariable) (d : Definition Ty) (init : Init Ty),
    P.module.globals[i]? = some g ∧ P.definitions[i]? = some d ∧ g.name = name ∧ g.mapped = true ∧
      d.initializer = some init ∧ d.isThreadLocal = false ∧ init.Covers T off

open Classical in
/-- What a call means for the store. -/
noncomputable def Store.client (initial σ : Store) : ClientCall → Store
  | .structAlloc _ _ => σ
  | .malloc _ _ => σ
  | .irx_set_global name Memory => fun n off => if n = name then Memory[off]?.getD (σ n off) else σ n off
  | .resetExtraAllocations => fun n off => if P.Restores T n off then initial n off else σ n off

/-- The contents that the process has given its globals. -/
def Process.contents (p : Process Ty) : Store := fun name off =>
  match P.module.globals.find? fun g => g.name = name with
  | some g => p.memory (g.pointer + off)
  | none => 0

/-- The process after its creation, and beside it the store. -/
noncomputable def clients (p0 : Process Ty) : System Abort (Process Ty × Store) ClientCall where
  start := .ok (p0, p0.contents P)
  step := fun (p, σ) call => do
    let p ← p.client T E P call
    .ok (p, Store.client T P (p0.contents P) σ call)
  allowed := fun (p, _) call => p.ClientAllowed P call

/-- Every global has a name and memory of its own, with room for its initializer, and no declaration is at an
address of the interpreter. -/
structure Program.Separate : Prop where
  named : ∀ g ∈ P.module.globals, g.name ≠ ""
  unique : (P.module.globals.map Memory.GlobalVariable.name).Nodup
  apart : ∀ g ∈ P.module.globals, ∀ g' ∈ P.module.globals, g.mapped = true → g'.mapped = true →
    g.name ≠ g'.name → g.pointer + g.allocSize ≤ g'.pointer ∨ g'.pointer + g'.allocSize ≤ g.pointer
  inside : ∀ (i : Nat) (g : Memory.GlobalVariable) (d : Definition Ty) (init : Init Ty) (off : Nat),
    P.module.globals[i]? = some g → P.definitions[i]? = some d → d.initializer = some init →
      init.Covers T off → off < g.allocSize
  foreign : ∀ g ∈ P.module.globals, g.mapped = false →
    g.pointer < Memory.startAddr ∨ Memory.endAddr < g.pointer

/-- The process has the contents of the store in the memory of its globals. -/
def Shows (p : Process Ty) (σ : Store) : Prop :=
  ∀ g ∈ P.module.globals, g.mapped = true → ∀ off < g.allocSize, p.memory (g.pointer + off) = σ g.name off

end Embedding

variable {Ty GV Mem : Type} {T : Target Ty GV} {E : Engine GV Mem} {P : Program Ty} {m0 : Bytes}
variable {load : Ty → Bytes → Nat → Except Abort GV} {getValueType : String → Ty}
variable {p0 p p' : Process Ty} {A : Memory.AddressSpace} {σ : Store} {g g' : Memory.GlobalVariable}
variable {ty : Ty} {m m' : Bytes} {a a' : Nat}

/-- A load reads the bytes of its type. -/
lemma LoadValueFromMemory_congr (reads : ∀ ty m m' a a', (∀ i < T.getTypeStoreSize ty,
      m (a + i) = m' (a' + i)) → load ty m a = load ty m' a')
    (same : ∀ i < T.getTypeStoreSize ty, m (a + i) = m' (a' + i)) :
    LoadValueFromMemory T E load ty m a = LoadValueFromMemory T E load ty m' a' := by
  have le : storeBytes T ty ≤ T.getTypeStoreSize ty := Nat.mod_le _ _
  have bytes : read m a (storeBytes T ty) = read m' a' (storeBytes T ty) :=
    read_congr fun i lt => same i (lt.trans_le le)
  rw [LoadValueFromMemory, LoadValueFromMemory, bytes, reads ty m m' a a' same]

namespace Program.Separate

/-- The names of a program with separate globals are those of its symbol table. -/
lemma find?_name (sep : P.Separate T) (mem : g ∈ P.module.globals) :
    (P.module.globals.find? fun h => h.name = g.name) = some g := by
  refine find?_named ?_ mem (sep.named g mem)
  exact sep.unique.sublist List.filter_sublist

/-- The globals of a program that keeps them apart have different names. -/
lemma eq_of_name (sep : P.Separate T) (mem : g ∈ P.module.globals) (mem' : g' ∈ P.module.globals)
    (same : g'.name = g.name) : g' = g :=
  List.inj_on_of_nodup_map sep.unique mem' mem same

/-- The place of a global in the module is that of its name. -/
lemma index_eq (sep : P.Separate T) {i j : Nat} (here : P.module.globals[i]? = some g)
    (there : P.module.globals[j]? = some g') (same : g'.name = g.name) : j = i := by
  have names : (P.module.globals.map Memory.GlobalVariable.name)[j]? =
      (P.module.globals.map Memory.GlobalVariable.name)[i]? := by
    rw [List.getElem?_map, List.getElem?_map, here, there, Option.map_some, Option.map_some, same]
  obtain ⟨lt, _⟩ := List.getElem?_eq_some_iff.1 there
  exact (List.getElem?_inj (by rwa [List.length_map]) sep.unique).1 names

/-- A global with this name decides which flag is saved. -/
lemma savedFlag (sep : P.Separate T) {i : Nat} {d : Definition Ty} {flag : Bool}
    (here : P.module.globals[i]? = some g) (defined : P.definitions[i]? = some d)
    (saved : savedFlags P.module.globals P.definitions g.name = some flag) : flag = d.isThreadLocal := by
  obtain ⟨j, g', d', there, defined', named, _, rfl⟩ := savedFlags_of saved
  cases sep.index_eq here there named
  cases defined.symm.trans defined'
  rfl

/-- The name of a global that is not thread-local belongs to no thread-local one. -/
lemma own (sep : P.Separate T) {i : Nat} {d : Definition Ty} (here : P.module.globals[i]? = some g)
    (defined : P.definitions[i]? = some d) (isThreadLocal : d.isThreadLocal = false) : P.Own g.name := by
  intro j g' d' there defined' named _
  cases sep.index_eq here there named
  cases defined.symm.trans defined'
  exact isThreadLocal

/-- Two globals with memory share no byte of it. -/
lemma eq_of_byte (sep : P.Separate T) (mem : g ∈ P.module.globals) (mem' : g' ∈ P.module.globals)
    (mapped : g.mapped = true) (mapped' : g'.mapped = true) {off off' : Nat} (lt : off < g.allocSize)
    (lt' : off' < g'.allocSize) (same : g.pointer + off = g'.pointer + off') : g' = g := by
  refine sep.eq_of_name mem mem' ?_
  by_contra other
  rcases sep.apart g mem g' mem' mapped mapped' (Ne.symm other) with before | behind
  · omega
  · omega

end Program.Separate

/-! ### Lookups -/

/-- No other global has the address of the block of a global. -/
lemma Program.Separate.name_at (sep : P.Separate T)
    (inv : Memory.Invariant A.blocks A.bump p0.interpreter A [])
    (moved : List.Forall₂ (Memory.Moved A.blocks) P.module.globals p0.interpreter.globals)
    (mem : g ∈ P.module.globals) (mapped : g.mapped = true) {b : Memory.Block} (memb : b ∈ A.blocks)
    (vptr : b.vptr = g.pointer) {GV : Memory.GlobalVariable} (memGV : GV ∈ p0.interpreter.globals)
    (address : GV.pointer = b.vvptr) : GV.name = g.name := by
  obtain ⟨i, here⟩ := List.getElem?_of_mem memGV
  obtain ⟨g', there, move⟩ := forall₂_right moved.flip here
  have mem' := List.mem_of_getElem? there
  cases move with
  | unmapped unmapped =>
    -- a declaration is outside of the interpreter
    have outside := sep.foreign GV mem' unmapped
    have low := A.above b memb
    have high : b.vvptr < Memory.endAddr := (Nat.le_add_right _ _).trans_lt (inv.rep.stop_lt memb)
    omega
  | @mapped b' mapped' memb' vptr' size =>
    have same := inv.rep.vvptr2vptr_start memb'
    rw [show b'.vvptr = b.vvptr from address, inv.rep.vvptr2vptr_start memb, vptr, vptr'] at same
    have unique := (List.nodup_append'.1 P.module.distinct).1
    have one := List.inj_on_of_nodup_map unique (List.mem_filter.2 ⟨mem, mapped⟩)
      (List.mem_filter.2 ⟨mem', mapped'⟩) (Except.ok.inj same)
    show g'.name = g.name
    rw [one]

/-- The engine finds a global with memory by its name, at the start of its block, and by this address. -/
lemma Kept.global_found (kept : Kept p0 A p)
    (inv : Memory.Invariant A.blocks A.bump p0.interpreter A [])
    (moved : List.Forall₂ (Memory.Moved A.blocks) P.module.globals p0.interpreter.globals)
    (sep : P.Separate T) (mem : g ∈ P.module.globals) (mapped : g.mapped = true) :
    ∃ vvptr, irx_get_global_addr p.interpreter g.name = vvptr ∧
      p.interpreter.allocator.vvptr2vptr vvptr = .ok g.pointer ∧
      engineGlobalValueAtAddress p.interpreter vvptr = some g.name := by
  obtain ⟨A', extra, inv'⟩ := kept.space
  obtain ⟨g1, found, move⟩ := find?_moved moved (sep.find?_name mem)
  have mem1 := List.mem_of_find?_eq_some found
  cases move with
  | unmapped unmapped => cases mapped.symm.trans unmapped
  | @mapped b _ memb vptr size =>
    have memb' : b ∈ A'.blocks := inv'.blocks ▸ List.mem_append_left _ memb
    have nonnull : b.vvptr ≠ 0 := by
      have positive : 0 < Memory.startAddr := by decide
      exact (positive.trans_le (A.above b memb)).ne'
    refine ⟨b.vvptr, ?_, ?_, ?_⟩
    · have defined : g.isDeclaration = false := by
        rw [Memory.GlobalVariable.mapped, Bool.and_eq_true, Bool.not_eq_true'] at mapped
        exact mapped.1
      rw [irx_get_global_addr, FindGlobalVariableNamed, kept.globals, if_neg (sep.named g mem), found,
        Option.filter_some]
      simp only [defined, Bool.not_false, if_true]
    · rw [inv'.rep.vvptr2vptr_start memb', vptr]
    · cases hit : engineGlobalValueAtAddress p.interpreter b.vvptr with
      | none =>
        have absent := List.find?_eq_none.1 (Option.map_eq_none_iff.1 hit) _ (kept.globals ▸ mem1)
        rw [decide_eq_true rfl, bne_iff_ne.2 nonnull] at absent
        exact absurd rfl absent
      | some name =>
        obtain ⟨GV, memGV, rfl, address, _⟩ := engineGlobalValueAtAddress_mem hit
        rw [sep.name_at inv moved mem mapped memb vptr (kept.globals ▸ memGV) address]

/-! ### Steps -/

/-- A set global has the bytes, and the others have what they had. -/
lemma Shows.set (sep : P.Separate T) (shows : Shows P p σ) (mem : g ∈ P.module.globals)
    (mapped : g.mapped = true) {Memory : List UInt8} (le : Memory.length ≤ g.allocSize)
    (initial : Store) (memory : p'.memory = write p.memory g.pointer Memory) :
    Shows P p' (Store.client T P initial σ (.irx_set_global g.name Memory)) := by
  intro g' mem' mapped' off lt
  rw [memory]
  show _ = if g'.name = g.name then Memory[off]?.getD (σ g'.name off) else σ g'.name off
  by_cases same : g'.name = g.name
  case pos =>
    cases sep.eq_of_name mem mem' same
    rw [if_pos rfl, write, if_pos (Nat.le_add_right _ _), Nat.add_sub_cancel_left,
      shows g mem mapped off lt]
  case neg =>
    rw [if_neg same, ← shows g' mem' mapped' off lt]
    refine write_outside ?_
    rcases sep.apart g mem g' mem' mapped mapped' (Ne.symm same) with before | behind
    · right; omega
    · left; omega

/-- A byte of a global is initialized again exactly if the store takes it back. -/
lemma Program.Separate.restores_iff (sep : P.Separate T)
    (inv : Memory.Invariant A.blocks A.bump p0.interpreter A [])
    (moved : List.Forall₂ (Memory.Moved A.blocks) P.module.globals p0.interpreter.globals)
    {value : Constant → Except Abort GV}
    (initialized : InitializeGlobals T E p0.interpreter.allocator value
      (savedFlags P.module.globals P.definitions) p0.interpreter.globals
      (P.definitions.map Definition.faked) m0 = .ok (p0.definitions, p0.memory))
    (mem : g ∈ P.module.globals) (mapped : g.mapped = true) {off : Nat} (lt : off < g.allocSize) :
    P.Restores T g.name off ↔ g.pointer + off ∈
      globalCells T p0.interpreter.allocator p0.interpreter.globals p0.definitions := by
  constructor
  · rintro ⟨i, g', d, init, here, defined, named, _, initializer, isThreadLocal, covers⟩
    cases sep.eq_of_name mem (List.mem_of_getElem? here) named
    exact mem_globalCells inv moved initialized here defined initializer mapped
      (sep.own here defined isThreadLocal) ⟨off, covers, rfl⟩
  · rintro ⟨i, g1, d1, init, GA, here1, defined1, initializer1, isThreadLocal1, found, inside⟩
    obtain ⟨g', d, here, defined, initializer, mapped', rfl⟩ :=
      original_of_found inv moved initialized here1 defined1 initializer1 found
    obtain ⟨off', covers, same⟩ := inside
    have mem' := List.mem_of_getElem? here
    have lt' := sep.inside i g' d init off' here defined initializer covers
    cases sep.eq_of_byte mem mem' mapped mapped' lt lt' same
    cases Nat.add_left_cancel same
    obtain ⟨_, d2, flag, _, _, defined2, _, flags, saved⟩ :=
      global_initialized inv moved initialized here defined initializer mapped
    cases defined1.symm.trans defined2
    have isThreadLocal : d.isThreadLocal = false := by
      rw [← sep.savedFlag here defined saved, ← flags, isThreadLocal1]
    exact ⟨i, g, d, init, here, defined, rfl, mapped, initializer, isThreadLocal, covers⟩

/-- The initialized bytes are as at the creation, and the others as before. -/
lemma Shows.reset (shows : Shows P p σ) (inv : Memory.Invariant A.blocks A.bump p0.interpreter A [])
    (moved : List.Forall₂ (Memory.Moved A.blocks) P.module.globals p0.interpreter.globals)
    {value : Constant → Except Abort GV}
    (initialized : InitializeGlobals T E p0.interpreter.allocator value
      (savedFlags P.module.globals P.definitions) p0.interpreter.globals
      (P.definitions.map Definition.faked) m0 = .ok (p0.definitions, p0.memory))
    (sep : P.Separate T)
    (inside : ∀ x ∈ globalCells T p0.interpreter.allocator p0.interpreter.globals p0.definitions,
      p'.memory x = p0.memory x)
    (outside : ∀ x ∉ globalCells T p0.interpreter.allocator p0.interpreter.globals p0.definitions,
      p'.memory x = p.memory x) :
    Shows P p' (Store.client T P (p0.contents P) σ .resetExtraAllocations) := by
  classical
  intro g mem mapped off lt
  have restores := sep.restores_iff inv moved initialized mem mapped lt
  show _ = if P.Restores T g.name off then p0.contents P g.name off else σ g.name off
  by_cases cell : P.Restores T g.name off
  case pos =>
    rw [if_pos cell, inside _ (restores.1 cell), Process.contents, sep.find?_name mem]
  case neg =>
    rw [if_neg cell, outside _ fun mem => cell (restores.2 mem), shows g mem mapped off lt]

/-- What every call keeps. -/
structure Serves (P : Program Ty) (p0 : Process Ty) (A : Memory.AddressSpace) (p : Process Ty) (σ : Store) :
    Prop where
  kept : Kept p0 A p
  operands : p.operands = p0.operands
  shows : Shows P p σ

/-- `structAlloc` and `malloc` give out memory that no global has. -/
lemma Serves.malloc (serves : Serves P p0 A p σ) {vmem size : Nat}
    (host : Memory.HostGives p.interpreter.allocator vmem size) :
    p.interpreter.malloc vmem size = .error .exhausted ∨
      ∃ alloc I, p.interpreter.malloc vmem size = .ok (alloc, I) ∧
        Serves P p0 A { p with interpreter := I } σ := by
  obtain ⟨A', extra, inv⟩ := serves.kept.space
  obtain ⟨_, failed⟩ | ⟨room, I, served, _⟩ := inv.malloc host
  · exact .inl failed
  · refine .inr ⟨_, I, served, ?_⟩
    exact ⟨serves.kept.malloc host served, serves.operands, serves.shows⟩

/-- `irx_set_global` finds the memory of the global. -/
lemma Serves.irx_set_global (serves : Serves P p0 A p σ)
    (inv : Memory.Invariant A.blocks A.bump p0.interpreter A [])
    (moved : List.Forall₂ (Memory.Moved A.blocks) P.module.globals p0.interpreter.globals)
    (sep : P.Separate T) (mem : g ∈ P.module.globals) (mapped : g.mapped = true) (Memory : List UInt8) :
    irx_set_global p.interpreter g.name Memory p.memory = .ok (write p.memory g.pointer Memory) := by
  obtain ⟨vvptr, there, back, _⟩ := serves.kept.global_found inv moved sep mem mapped
  have nonnull : g.pointer ≠ 0 := by
    rw [Memory.GlobalVariable.mapped, Bool.and_eq_true, bne_iff_ne] at mapped
    exact mapped.2
  rw [Exec.irx_set_global, there, back, ok_bind, if_neg nonnull]

/-- A reset takes the globals back to what the store takes them back to. -/
lemma Serves.resetExtraAllocations (serves : Serves P p0 A p σ)
    (inv : Memory.Invariant A.blocks A.bump p0.interpreter A [])
    (moved : List.Forall₂ (Memory.Moved A.blocks) P.module.globals p0.interpreter.globals)
    (initialized : InitializeGlobals T E p0.interpreter.allocator
      (getConstantValue T E P.module P.graph p0.interpreter.allocator p0.operands)
      (savedFlags P.module.globals P.definitions) p0.interpreter.globals
      (P.definitions.map Definition.faked) m0 = .ok (p0.definitions, p0.memory))
    (sep : P.Separate T) :
    ∃ p', p.resetExtraAllocations T E P = .ok p' ∧
      Serves P p0 A p' (Store.client T P (p0.contents P) σ .resetExtraAllocations) := by
  obtain ⟨I, globals, ⟨A', inv'⟩, ran⟩ := serves.kept.resetExtraAllocations (T := T) (E := E) (P := P) inv
  have settled := InitializeGlobals_settled initialized
  have first : initializeAgain T E p0.interpreter.allocator _ p0.interpreter.globals p0.definitions m0 =
      .ok p0.memory := congrArg (Except.map Prod.snd) settled
  obtain ⟨memory, again, inside, outside⟩ :=
    (InitializeGlobals_overwrites settled).again first p.memory
  rw [serves.operands] at ran
  rw [initializeAgain] at again
  cases result : InitializeGlobals T E p0.interpreter.allocator
      (getConstantValue T E P.module P.graph p0.interpreter.allocator p0.operands) (fun _ => none)
      p0.interpreter.globals p0.definitions p.memory with
  | error =>
    rw [result] at again
    cases again
  | ok result' =>
    rw [result] at again ran
    cases again
    refine ⟨_, ran, ?_, rfl, ?_⟩
    · exact ⟨(InitializeGlobals_kept result).2 rfl, globals, A', [], inv'⟩
    · exact serves.shows.reset inv moved initialized sep inside outside

/-- Every call a client may make succeeds, if there are addresses left, and keeps the globals as the store
says. -/
lemma Serves.client (serves : Serves P p0 A p σ)
    (inv : Memory.Invariant A.blocks A.bump p0.interpreter A [])
    (moved : List.Forall₂ (Memory.Moved A.blocks) P.module.globals p0.interpreter.globals)
    (initialized : InitializeGlobals T E p0.interpreter.allocator
      (getConstantValue T E P.module P.graph p0.interpreter.allocator p0.operands)
      (savedFlags P.module.globals P.definitions) p0.interpreter.globals
      (P.definitions.map Definition.faked) m0 = .ok (p0.definitions, p0.memory))
    (sep : P.Separate T) {call : ClientCall} (allowed : p.ClientAllowed P call) :
    p.client T E P call = .error .exhausted ∨ ∃ p', p.client T E P call = .ok p' ∧
      Serves P p0 A p' (Store.client T P (p0.contents P) σ call) := by
  cases call with
  | structAlloc name vmem =>
    obtain failed | ⟨alloc, I, served, serves'⟩ := serves.malloc allowed
    · exact .inl (bind_error failed _)
    · exact .inr ⟨_, bind_ok served _, serves'⟩
  | malloc size vmem =>
    obtain failed | ⟨alloc, I, served, serves'⟩ := serves.malloc allowed
    · exact .inl (bind_error failed _)
    · exact .inr ⟨_, bind_ok served _, serves'⟩
  | irx_set_global name Memory =>
    obtain ⟨g, mem, rfl, mapped, le⟩ := allowed
    have written := serves.irx_set_global inv moved sep mem mapped Memory
    refine .inr ⟨_, bind_ok written _, ?_, serves.operands, ?_⟩
    · exact ⟨serves.kept.definitions, serves.kept.globals, serves.kept.space⟩
    · exact serves.shows.set sep mem mapped le _ rfl
  | resetExtraAllocations => exact .inr (serves.resetExtraAllocations inv moved initialized sep)

/-- In every run of a client the process and the store agree. -/
lemma serves_of_run {o : Except Abort (Process Ty × Store)}
    (inv : Memory.Invariant A.blocks A.bump p0.interpreter A [])
    (moved : List.Forall₂ (Memory.Moved A.blocks) P.module.globals p0.interpreter.globals)
    (initialized : InitializeGlobals T E p0.interpreter.allocator
      (getConstantValue T E P.module P.graph p0.interpreter.allocator p0.operands)
      (savedFlags P.module.globals P.definitions) p0.interpreter.globals
      (P.definitions.map Definition.faked) m0 = .ok (p0.definitions, p0.memory))
    (sep : P.Separate T) (run : (clients T E P p0).Outcome o) :
    Holds (fun s => Serves P p0 A s.1 s.2) (· = .exhausted) o := by
  refine run.holds ?_ ?_
  · refine ⟨⟨rfl, rfl, A, [], inv⟩, rfl, ?_⟩
    intro g mem mapped off lt
    show _ = p0.contents P g.name off
    rw [Process.contents, sep.find?_name mem]
  · rintro ⟨p, σ⟩ call serves allowed
    obtain failed | ⟨p', served, serves'⟩ := serves.client inv moved initialized sep allowed
    · rw [show (clients T E P p0).step (p, σ) call = _ from bind_error failed _]
      rfl
    · rw [show (clients T E P p0).step (p, σ) call = _ from bind_ok served _]
      exact serves'

/-- In every run of a client that allocates, sets globals and resets, `irx_get_global_var` returns for every
global with memory what the store has under its name: the bytes it was set to last, those of its
initializer after a reset, and in undefined parts and padding still what was set. The only failure is that
the addresses of the interpreter are exhausted. -/
theorem global_store {Ty GV Mem : Type} {T : Target Ty GV} {E : Engine GV Mem} {P : Program Ty}
    {load : Ty → Bytes → Nat → Except Abort GV} {getValueType : String → Ty} {m0 : Bytes}
    {p0 : Process Ty} {o : Except Abort (Process Ty × Store)}
    (reads : ∀ ty m m' a a', (∀ i < T.getTypeStoreSize ty, m (a + i) = m' (a' + i)) →
      load ty m a = load ty m' a')
    (created : createInterpreter T E P m0 = .ok p0) (sep : P.Separate T)
    (run : (clients T E P p0).Outcome o) :
    o = .error .exhausted ∨ ∃ p σ, o = .ok (p, σ) ∧ ∀ g ∈ P.module.globals, g.mapped = true →
      T.getTypeStoreSize (getValueType g.name) ≤ g.allocSize →
        irx_get_global_var T E load getValueType p.interpreter g.name p.memory =
          LoadValueFromMemory T E load (getValueType g.name) (σ g.name) 0 := by
  obtain ⟨A, inv, moved, _, initialized⟩ := createInterpreter_spec created
  have holds := serves_of_run inv moved initialized sep run
  cases o with
  | error r =>
    cases (holds : r = .exhausted)
    exact .inl rfl
  | ok s =>
    obtain ⟨p, σ⟩ := s
    have serves : Serves P p0 A p σ := holds
    refine .inr ⟨p, σ, rfl, fun g mem mapped le => ?_⟩
    obtain ⟨vvptr, there, back, hit⟩ := serves.kept.global_found inv moved sep mem mapped
    rw [irx_get_global_var, there, bind_ok back]
    simp only [hit]
    refine LoadValueFromMemory_congr reads fun i lt => ?_
    rw [Nat.zero_add]
    exact serves.shows g mem mapped i (lt.trans_le le)

/-- The threads are written inside their array. -/
lemma dlistThreads_inside {off : Nat} (covers : dlistThreads.Covers dlistTarget off) : off < 288 := by
  obtain ⟨_ | _ | _ | i, operand, x, e, inside, rfl⟩ := (covers_array off).1 covers
  · cases e
    obtain ⟨_ | _ | i, operand, y, e, inside, rfl⟩ := (covers_struct x).1 inside
    · cases e
      cases inside with
      | value lt =>
        have byte : y < 1 := lt
        show 0 + (0 + y) < 288
        omega
    · cases e
      cases inside with
      | value lt =>
        have byte : y < 4 := lt
        show 0 + (4 + y) < 288
        omega
    · cases e
  · cases e
    cases inside
  · cases e
    cases inside with
    | aggregateZero lt => exact Nat.add_lt_add_left lt 192
  · cases e

/-- The program keeps its globals apart. -/
lemma dlist_separate : dlistProgram.Separate dlistTarget where
  named := by decide
  unique := by decide
  apart := by decide
  inside := by
    rintro (_ | _ | i) g d init off here defined initializer covers
    · cases here
      cases defined
      cases initializer
      exact dlistThreads_inside covers
    · cases defined
      cases initializer
    · cases here
  foreign := by decide

/-- A load of as many bytes as the type says. -/
def loadBytes (size : Nat) (m : Bytes) (Ptr : Nat) : Except Abort Nat := .ok (unsigned m Ptr size)

/-- The process after the first four bytes of the threads were set. -/
def threadSet : Process Nat :=
  { dlistProcess with memory := write dlistProcess.memory 0x7f0000001000 [1, 2, 3, 4] }

/-- The run in which the thread is set. -/
lemma threadSet_run : (clients dlistTarget dlistEngine dlistProgram dlistProcess).Outcome
    (.ok (threadSet, Store.client dlistTarget dlistProgram (dlistProcess.contents dlistProgram)
      (dlistProcess.contents dlistProgram) (.irx_set_global "t" [1, 2, 3, 4]))) := by
  have created := Outcome.start (S := clients dlistTarget dlistEngine dlistProgram dlistProcess)
  refine created.next (i := .irx_set_global "t" [1, 2, 3, 4]) ?_ ?_
  · exact ⟨⟨"t", false, 288, 0x7f0000001000⟩, List.mem_cons_self, rfl, rfl, by decide⟩
  · have address : dlistProcess.interpreter.allocator.vvptr2vptr
        (irx_get_global_addr dlistProcess.interpreter "t") = .ok 0x7f0000001000 := by decide +kernel
    have written : irx_set_global dlistProcess.interpreter "t" [1, 2, 3, 4] dlistProcess.memory =
        .ok threadSet.memory := by
      rw [irx_set_global, address]
      rfl
    have client : dlistProcess.client dlistTarget dlistEngine dlistProgram
        (.irx_set_global "t" [1, 2, 3, 4]) = .ok threadSet := bind_ok written _
    exact bind_ok client _

/-- The four bytes are read as a word. -/
theorem global_store_dlist : irx_get_global_var dlistTarget dlistEngine loadBytes (fun _ => 4)
    threadSet.interpreter "t" threadSet.memory = .ok 0x04030201 := by
  have reads : ∀ ty m m' a a', (∀ i < dlistTarget.getTypeStoreSize ty, m (a + i) = m' (a' + i)) →
      loadBytes ty m a = loadBytes ty m' a' := by
    intro ty m m' a a' same
    exact congrArg (fun bytes => Except.ok (ofLittleEndian bytes)) (read_congr same)
  obtain failed | ⟨p, σ, e, globals⟩ := @global_store Nat Nat Unit dlistTarget dlistEngine dlistProgram
    loadBytes (fun _ => 4) (fun _ => 0) dlistProcess _ reads dlist_created dlist_separate threadSet_run
  · cases failed
  · obtain ⟨rfl, rfl⟩ := Prod.mk.inj (Except.ok.inj e)
    refine (globals ⟨"t", false, 288, 0x7f0000001000⟩ List.mem_cons_self rfl (by decide)).trans ?_
    simp [LoadValueFromMemory, copied, dlistTarget, loadBytes, unsigned, Lib.read, Store.client,
      List.range_succ, ofLittleEndian]

end Irx.Exec
