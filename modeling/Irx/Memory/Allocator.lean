import Irx.Basic
import Irx.Lib.OrderedMap
import Irx.Lib.Scan

/-!
# The allocator of interpreter addresses

Embedding of `libirx/irinterpreter2-mmap.cc`: `IRXAllocator` with its two address maps and its list
of allocation data, `LinearVirtualMemoryAddressGenerator`, and `MapAllocator`. "vv" addresses belong
to the interpreter, "v" addresses to the host process.

The maps hold pointers to nodes of `allocationsHolder`; a node has an identity of its own, so that
comparing two pointers and dereferencing a dangling one are what they are in the source. The host
address that `safe_malloc` returns is an argument of `malloc`. A search in `find` that meets `end()`
counts as "not found".
-/

namespace Irx.Memory
open Irx.Lib

/-- `struct allocation_data`. -/
structure AllocationData where
  vptr : Nat
  size : Nat
  deriving DecidableEq, Repr

/-- A node of `allocationsHolder`: the address the maps point to, and the data. -/
structure HolderNode where
  node : Nat
  data : AllocationData
  deriving DecidableEq, Repr

/-- `AllocationMap`: interpreter addresses to nodes of the holder list. -/
abbrev AllocationMap := OrdMap Nat Nat

/-- `struct allocation`: the two entries found and the data pointer they share. -/
structure Allocation where
  start : Nat × Nat
  stop : Nat × Nat
  data : Nat

/-- `struct irx_alloc`. -/
structure IrxAlloc where
  vvptr : Nat
  vptr : Nat
  size : Nat
  deriving DecidableEq, Repr

/-- `vvsize`, 128 MB. -/
def vvsize : Nat := 0x08000000

/-- The first address. -/
def startAddr : Nat := 0x50000000

/-- The address behind the last one. -/
def endAddr : Nat := startAddr + vvsize

/-- `LinearVirtualMemoryAddressGenerator` without the constants; the top of the stack comes first. -/
structure LinearVirtualMemoryAddressGenerator where
  lastAllocAddr : Nat := startAddr
  freezeStack : List Nat := []
  deriving DecidableEq, Repr

namespace LinearVirtualMemoryAddressGenerator

/-- `next`: hands out the bump address, and exits when the new one is beyond `endAddr`. -/
def next (g : LinearVirtualMemoryAddressGenerator) (size : Nat) :
    Except Abort (Nat × LinearVirtualMemoryAddressGenerator) :=
  let vvmem := g.lastAllocAddr
  let lastAllocAddr := word (g.lastAllocAddr + (word (size + 4) &&& alignMask))
  if lastAllocAddr > endAddr then .error .exhausted
  else .ok (vvmem, { g with lastAllocAddr := lastAllocAddr })

/-- `freeze`: the address is remembered. -/
def freeze (g : LinearVirtualMemoryAddressGenerator) : LinearVirtualMemoryAddressGenerator :=
  { g with freezeStack := g.lastAllocAddr :: g.freezeStack }

/-- `reset`; `top` and `pop` of an empty stack are undefined. -/
def reset (g : LinearVirtualMemoryAddressGenerator) :
    Except Abort LinearVirtualMemoryAddressGenerator :=
  match g.freezeStack with
  | [] => .error .undefined
  | top :: rest => .ok { lastAllocAddr := top, freezeStack := rest }

end LinearVirtualMemoryAddressGenerator

/-- `find_start`: the entry with the greatest key at or below `k`. -/
def findStart (m : AllocationMap) (k : Nat) : Option (Nat × Nat) :=
  scan (fun it => it.1 ≤ k) (fun e it => e.1 < it.1) m.entries

/-- `find_end`: the entry with the least key at or above `k`. -/
def findEnd (m : AllocationMap) (k : Nat) : Option (Nat × Nat) :=
  scan (fun it => it.1 ≥ k) (fun e it => e.1 > it.1) m.entries

/-- `MapAllocator` with the members of `IRXAllocator`. `nextNode` is the address of the next list
node. -/
structure MapAllocator where
  allocationsHolder : List HolderNode := []
  vvmemStart : AllocationMap := .empty
  vvmemEnd : AllocationMap := .empty
  allocations : List Nat := []
  vma : LinearVirtualMemoryAddressGenerator := {}
  nextNode : Nat := 0

namespace MapAllocator

/-- `has`: some range begins at or before the address, and some range ends at or behind it. -/
def has (a : MapAllocator) (vvptr : Nat) : Bool :=
  (findStart a.vvmemStart vvptr).isSome && (findEnd a.vvmemEnd vvptr).isSome

/-- `find`: both searches must end at the same allocation data. -/
def find (a : MapAllocator) (vvptr : Nat) : Option Allocation :=
  match findStart a.vvmemStart vvptr, findEnd a.vvmemEnd vvptr with
  | some start, some stop => if start.2 ≠ stop.2 then none else some ⟨start, stop, start.2⟩
  | _, _ => none

/-- The data behind a node pointer. -/
def deref (a : MapAllocator) (node : Nat) : Except Abort AllocationData :=
  match a.allocationsHolder.find? (fun n => n.node = node) with
  | some n => .ok n.data
  | none => .error .undefined

/-- `put`: a range is handed out and noted in all maps. -/
def put (a : MapAllocator) (vvptr vptr size : Nat) : IrxAlloc × MapAllocator :=
  (⟨vvptr, vptr, size⟩,
    { a with
      allocationsHolder := a.allocationsHolder ++ [⟨a.nextNode, ⟨vptr, size⟩⟩]
      vvmemStart := a.vvmemStart.insert vvptr a.nextNode
      vvmemEnd := a.vvmemEnd.insert (word (vvptr + size)) a.nextNode
      nextNode := a.nextNode + 1 })

/-- `remove`: the maps lose the range that starts at the address. -/
def remove (a : MapAllocator) (vvptr : Nat) : Except Abort MapAllocator :=
  match a.find vvptr with
  | none => .error .undefined
  | some alloc => do
    let data ← a.deref alloc.start.2
    .ok
      { a with
        vvmemStart := a.vvmemStart.erase alloc.start.1
        vvmemEnd := a.vvmemEnd.erase alloc.stop.1
        allocationsHolder := a.allocationsHolder.filter (fun n => n.data.vptr ≠ data.vptr) }

/-- The memory was allocated by `malloc`. -/
def isInternalAllocated (a : MapAllocator) (vptr : Nat) : Bool := a.allocations.contains vptr

/-- The member `vvptr2vptr`; `0` is the null pointer. -/
def vvptr2vptr (a : MapAllocator) (vvptr : Nat) : Except Abort Nat :=
  match a.find vvptr with
  | none => .ok 0
  | some alloc => do
    let data ← a.deref alloc.data
    .ok (word (data.vptr + (vvptr - alloc.start.1)))

/-- `add`: host memory gets an address. -/
def add (a : MapAllocator) (vmem size : Nat) : Except Abort (IrxAlloc × MapAllocator) := do
  let (vvmem, vma) ← a.vma.next size
  if (a.find vvmem).isSome || (a.find (word (vvmem + size + 1))).isSome then
    .error .overlapping
  else .ok (put { a with vma := vma } vvmem vmem size)

/-- `malloc`, where the host returned `vmem`. -/
def malloc (a : MapAllocator) (vmem size : Nat) : Except Abort (IrxAlloc × MapAllocator) :=
  add { a with allocations := a.allocations ++ [vmem] } vmem size

/-- `free`: the block is removed, and its memory is forgotten if `malloc` had allocated it. -/
def free (a : MapAllocator) (vvptr : Nat) : Except Abort MapAllocator :=
  match a.find vvptr with
  | none => .error .undefined
  | some alloc => do
    let data ← a.deref alloc.start.2
    if a.isInternalAllocated data.vptr then
      remove { a with allocations := a.allocations.filter (fun p => p ≠ data.vptr) } vvptr
    else a.remove vvptr

/-- `reset`: the generator goes back. -/
def reset (a : MapAllocator) : Except Abort MapAllocator := do
  let vma ← a.vma.reset
  .ok { a with vma := vma }

/-- `freeze`: the generator remembers its address. -/
def freeze (a : MapAllocator) : MapAllocator := { a with vma := a.vma.freeze }

end MapAllocator

/-- The free function `vvptr2vptr`: an address outside every block stays unchanged. -/
def vvptr2vptr (a : MapAllocator) (vvptr : Nat) : Except Abort Nat :=
  if a.has vvptr then a.vvptr2vptr vvptr else .ok vvptr

end Irx.Memory
