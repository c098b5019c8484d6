import Irx.Memory.Allocator
import Irx.Lib.Runs

/-!
# The memory side of the interpreter

Embedding of the parts of `libirx/irinterpreter2-interpreter.cc`, `irinterpreter2-mmap.cc` and
`irinterpreter2-struct.cc` that own memory: `createInterpreter` with `updateGlobalMappings`,
`structAlloc`/`malloc`, and `resetExtraAllocations`. The module is seen through the execution engine,
which has already given every defined global and every function a place in host memory. The contents
of the memory are not part of this layer, so `InitializeGlobals` is the identity here.

`api` is the interpreter driven by its API calls. The host answers each allocation with the address
of a block, and `HostGives` is what a host allocator promises about it.
-/

namespace Irx.Memory
open Irx.Lib

/-- A global variable with the pointer of `getPointerToGlobalIfAvailable`, `0` when there is none. -/
structure GlobalVariable where
  name : String
  isDeclaration : Bool
  allocSize : Nat
  pointer : Nat
  deriving DecidableEq, Repr

/-- The variable has memory that must be mapped. -/
def GlobalVariable.mapped (g : GlobalVariable) : Bool := !g.isDeclaration && g.pointer != 0

/-- A function with the pointer of `getPointerToFunction`, the address of the `Function` object. -/
structure Function where
  name : String
  isDeclaration : Bool
  address : Nat
  deriving DecidableEq, Repr

/-- The function must be mapped. -/
def Function.mapped (f : Function) : Bool := !f.isDeclaration && f.address != 0

/-- A module in an execution engine. The last two fields are what the host gives: the memory of the
globals lies inside the 64-bit address space in objects of less than `2 ^ 63` bytes, and no two
mapped objects have one address. -/
structure Module where
  globals : List GlobalVariable
  functions : List Function
  structSize : String → Nat
  fits : ∀ g ∈ globals, g.mapped = true →
    g.allocSize < 9223372036854775808 ∧ g.pointer + g.allocSize < 18446744073709551616
  fits_function : ∀ f ∈ functions, f.mapped = true → f.address + 1 < 18446744073709551616
  distinct : ((globals.filter GlobalVariable.mapped).map GlobalVariable.pointer ++
    (functions.filter Function.mapped).map Function.address).Nodup

/-- The members of `MyInterpreter` that own memory: the allocator, the extra allocations, and the
globals with their current mapping. -/
structure MyInterpreter where
  allocator : MapAllocator
  allocations : List Nat
  globals : List GlobalVariable

/-- The first loop of `updateGlobalMappings`: each mapped global moves to its interpreter address. -/
def mapGlobals : List GlobalVariable → MapAllocator →
    Except Abort (List GlobalVariable × MapAllocator)
  | [], a => .ok ([], a)
  | g :: gs, a =>
    if g.mapped then do
      let (alloc, a) ← a.add g.pointer g.allocSize
      let (gs, a) ← mapGlobals gs a
      .ok ({ g with pointer := alloc.vvptr } :: gs, a)
    else do
      let (gs, a) ← mapGlobals gs a
      .ok (g :: gs, a)

/-- The second loop of `updateGlobalMappings`. -/
def mapFunctions : List Function → MapAllocator → Except Abort MapAllocator
  | [], a => .ok a
  | f :: fs, a =>
    if f.mapped then do
      let (_, a) ← a.add f.address 1
      mapFunctions fs a
    else mapFunctions fs a

/-- `createInterpreter`: globals and functions get addresses, and the allocator is frozen. -/
def createInterpreter (M : Module) : Except Abort MyInterpreter := do
  let (globals, a) ← mapGlobals M.globals {}
  let a ← mapFunctions M.functions a
  .ok { allocator := a.freeze, allocations := [], globals := globals }

namespace MyInterpreter

/-- `malloc`, where the host returned `vmem`. -/
def malloc (s : MyInterpreter) (vmem size : Nat) : Except Abort (IrxAlloc × MyInterpreter) := do
  let (alloc, a) ← s.allocator.malloc vmem size
  .ok (alloc, { s with allocator := a, allocations := s.allocations ++ [alloc.vvptr] })

/-- `structAlloc`: `malloc` with the size of the named struct. -/
def structAlloc (M : Module) (s : MyInterpreter) (name : String) (vmem : Nat) :
    Except Abort (IrxAlloc × MyInterpreter) :=
  s.malloc vmem (M.structSize name)

/-- The loop of `resetExtraAllocations`. -/
def freeAll : List Nat → MapAllocator → Except Abort MapAllocator
  | [], a => .ok a
  | vvptr :: rest, a => do
    let a ← a.free vvptr
    freeAll rest a

/-- `resetExtraAllocations`: all allocations are freed, and the generator goes back to where it was frozen.
-/
def resetExtraAllocations (s : MyInterpreter) : Except Abort MyInterpreter := do
  let a ← freeAll s.allocations s.allocator
  let a ← a.reset
  .ok { s with allocator := a.freeze, allocations := [] }

end MyInterpreter

/-- What a host allocation of `size` bytes at `vptr` promises: the pointer is not null, the object is
smaller than `2 ^ 63` bytes and ends inside the address space, and no live block has its address. -/
structure HostGives (a : MapAllocator) (vptr size : Nat) : Prop where
  nonnull : vptr ≠ 0
  small : size < 9223372036854775808
  fits : vptr + size < 18446744073709551616
  distinct : ∀ n ∈ a.allocationsHolder, n.data.vptr ≠ vptr

/-- An API call together with the answer of the host. -/
inductive Call where
  | structAlloc (name : String) (vmem : Nat)
  | malloc (size vmem : Nat)
  | resetExtraAllocations

/-- Running one API call. -/
def Call.run (M : Module) (s : MyInterpreter) : Call → Except Abort MyInterpreter
  | .structAlloc name vmem => (s.structAlloc M name vmem).map Prod.snd
  | .malloc size vmem => (s.malloc vmem size).map Prod.snd
  | .resetExtraAllocations => s.resetExtraAllocations

/-- The answers a host can give. -/
def Call.HostAllowed (M : Module) (s : MyInterpreter) : Call → Prop
  | .structAlloc name vmem => HostGives s.allocator vmem (M.structSize name)
  | .malloc size vmem => HostGives s.allocator vmem size
  | .resetExtraAllocations => True

/-- The interpreter as a system driven by its API. -/
def api (M : Module) : System Abort MyInterpreter Call where
  start := createInterpreter M
  step s c := c.run M s
  allowed s c := c.HostAllowed M s

end Irx.Memory
