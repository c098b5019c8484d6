import Irx.Memory.Allocator
import Irx.Lib.Chain

/-!
# The ranges in the two maps

`Laid` says which blocks the two maps of an allocator hold: their closed ranges lie one behind the other
and may share end points, and what the holder list has are data of these blocks. From it follows what the
searches find, at addresses of one block, of two neighbours and of none, and what `put`, `remove` and
`free` make of the blocks. Two blocks may have one host pointer, so the data of a block may be gone from
the holder list while its ranges are still in the maps.
-/

namespace Irx.Memory
open Irx.Lib

/-- A live block: its place in the interpreter and in the host, and its holder node. -/
structure Block where
  vvptr : Nat
  vptr : Nat
  size : Nat
  node : Nat
  deriving DecidableEq, Repr

/-- The one-past-the-end address of a block. -/
def Block.stop (b : Block) : Nat := b.vvptr + b.size

/-- The holder node of a block. -/
def Block.holderNode (b : Block) : HolderNode := ⟨b.node, ⟨b.vptr, b.size⟩⟩

/-- The address lies in the closed range of the block. -/
def Block.Contains (b : Block) (k : Nat) : Prop := b.vvptr ≤ k ∧ k ≤ b.stop

instance (b : Block) (k : Nat) : Decidable (b.Contains k) := inferInstanceAs (Decidable (_ ∧ _))

/-- A block contains its start. -/
lemma Block.contains_start (b : Block) : b.Contains b.vvptr := ⟨le_rfl, Nat.le_add_right _ _⟩

/-- What one request moves the bump address by. -/
def stride (size : Nat) : Nat := (size + 4) / 4 * 4

/-- A request moves the address behind its last byte. -/
lemma lt_stride (size : Nat) : size < stride size := by
  rw [stride]
  omega

/-- A request whose sums stay below `2 ^ 64` moves the bump address by its stride, or the generator
exits. -/
lemma next_of_lt {g : LinearVirtualMemoryAddressGenerator} {size : Nat}
    (lt : g.lastAllocAddr + size + 4 < 18446744073709551616) :
    g.next size =
      if g.lastAllocAddr + stride size ≤ endAddr then
        .ok (g.lastAllocAddr, { g with lastAllocAddr := g.lastAllocAddr + stride size })
      else .error .exhausted := by
  have mask : word (size + 4) &&& alignMask = stride size := by
    rw [word_of_lt (by omega), and_alignMask (by omega), stride]
  have sum : word (g.lastAllocAddr + (word (size + 4) &&& alignMask)) =
      g.lastAllocAddr + stride size := by
    rw [mask]
    apply word_of_lt
    rw [stride]
    omega
  rw [LinearVirtualMemoryAddressGenerator.next, sum]
  by_cases room : g.lastAllocAddr + stride size ≤ endAddr
  · rw [if_neg room.not_gt, if_pos room]
  · rw [if_pos (not_le.1 room), if_neg room]

/-- The same for a request that a host allocation can have. -/
lemma next_eq {g : LinearVirtualMemoryAddressGenerator} {size : Nat} (le : g.lastAllocAddr ≤ endAddr)
    (small : size < 9223372036854775808) :
    g.next size =
      if g.lastAllocAddr + stride size ≤ endAddr then
        .ok (g.lastAllocAddr, { g with lastAllocAddr := g.lastAllocAddr + stride size })
      else .error .exhausted := by
  have bound : endAddr = 0x58000000 := by decide
  apply next_of_lt
  omega

/-- The blocks around one of a list. -/
lemma sublist_around {pre post : List Block} {b : Block} :
    (pre ++ post).Sublist (pre ++ b :: post) :=
  List.Sublist.append_left (List.sublist_cons_self _ _) _

/-- The allocator without the entries of a block and the data at its host pointer. -/
def MapAllocator.removed (a : MapAllocator) (b : Block) : MapAllocator :=
  { a with
    vvmemStart := a.vvmemStart.erase b.vvptr
    vvmemEnd := a.vvmemEnd.erase b.stop
    allocationsHolder := a.allocationsHolder.filter (fun n => n.data.vptr ≠ b.vptr) }

/-- The allocator without the host pointer of a block in its list of own allocations. -/
def MapAllocator.disowned (a : MapAllocator) (b : Block) : MapAllocator :=
  { a with allocations := a.allocations.filter (fun p => p ≠ b.vptr) }

/-- The maps hold the ranges of the blocks, in their order, and the holder list data of the blocks. -/
structure Laid (a : MapAllocator) (bs : List Block) : Prop where
  row : Row Block.vvptr Block.stop bs
  start : a.vvmemStart.entries = bs.map (fun b => (b.vvptr, b.node))
  stop : a.vvmemEnd.entries = bs.map (fun b => (b.stop, b.node))
  nodes : (bs.map Block.node).Nodup
  fresh : ∀ b ∈ bs, b.node < a.nextNode
  held : ∀ n ∈ a.allocationsHolder, ∃ b ∈ bs, b.holderNode = n

namespace Laid

variable {a : MapAllocator} {bs pre post : List Block} {b c : Block} {k : Nat}

/-- A new allocator has no ranges. -/
lemma empty : Laid {} [] where
  row := ⟨.nil, List.forall_mem_nil _⟩
  start := rfl
  stop := rfl
  nodes := .nil
  fresh := List.forall_mem_nil _
  held := List.forall_mem_nil _

/-! ### The searches -/

/-- No start is found if all blocks start behind the address. -/
lemma findStart_eq_none_iff (laid : Laid a bs) :
    findStart a.vvmemStart k = none ↔ ∀ b ∈ bs, k < b.vvptr := by
  rw [findStart, scan_eq_none_iff, laid.start, List.forall_mem_map]
  exact forall₂_congr fun b _ => decide_eq_false_iff_not.trans not_le

/-- No end is found if all blocks end before the address. -/
lemma findEnd_eq_none_iff (laid : Laid a bs) :
    findEnd a.vvmemEnd k = none ↔ ∀ b ∈ bs, b.stop < k := by
  rw [findEnd, scan_eq_none_iff, laid.stop, List.forall_mem_map]
  exact forall₂_congr fun b _ => decide_eq_false_iff_not.trans not_le

/-- `has` fails below all blocks and above all blocks only. -/
lemma has_eq_false_iff (laid : Laid a bs) :
    a.has k = false ↔ (∀ b ∈ bs, k < b.vvptr) ∨ ∀ b ∈ bs, b.stop < k := by
  rw [MapAllocator.has, Bool.and_eq_false_iff, Option.isSome_eq_false_iff, Option.isNone_iff_eq_none,
    Option.isSome_eq_false_iff, Option.isNone_iff_eq_none, laid.findStart_eq_none_iff,
    laid.findEnd_eq_none_iff]

/-- In a block there is something. -/
lemma has (laid : Laid a bs) (mem : b ∈ bs) (inside : b.Contains k) : a.has k = true := by
  rw [← Bool.not_eq_false, laid.has_eq_false_iff]
  rintro (below | above)
  · exact (below b mem).not_ge inside.1
  · exact (above b mem).not_ge inside.2

/-- The search for a start finds the block of an address of one block only. -/
lemma findStart_alone (laid : Laid a bs) (mem : b ∈ bs) (inside : b.Contains k)
    (alone : ∀ c ∈ bs, c.Contains k → c = b) :
    findStart a.vvmemStart k = some (b.vvptr, b.node) := by
  rw [findStart, laid.start]
  refine scan_eq_some (List.mem_map_of_mem mem) (decide_eq_true inside.1) ?_
  intro y hy py
  obtain ⟨c, memc, rfl⟩ := List.mem_map.1 hy
  have only : c.vvptr ≤ k → k ≤ c.stop → c = b := fun lo hi => alone c memc ⟨lo, hi⟩
  rcases laid.row.greatest_lo mem memc inside.2 only (of_decide_eq_true py) with rfl | lt
  · exact .inl rfl
  · exact .inr ⟨decide_eq_true lt, decide_eq_false lt.not_gt⟩

/-- The search for an end finds the block of an address of one block only. -/
lemma findEnd_alone (laid : Laid a bs) (mem : b ∈ bs) (inside : b.Contains k)
    (alone : ∀ c ∈ bs, c.Contains k → c = b) :
    findEnd a.vvmemEnd k = some (b.stop, b.node) := by
  rw [findEnd, laid.stop]
  refine scan_eq_some (List.mem_map_of_mem mem) (decide_eq_true inside.2) ?_
  intro y hy py
  obtain ⟨c, memc, rfl⟩ := List.mem_map.1 hy
  have only : c.vvptr ≤ k → k ≤ c.stop → c = b := fun lo hi => alone c memc ⟨lo, hi⟩
  rcases laid.row.least_hi mem memc inside.1 only (of_decide_eq_true py) with rfl | lt
  · exact .inl rfl
  · exact .inr ⟨decide_eq_true lt, decide_eq_false lt.not_gt⟩

/-- Where only one block is, it is found. -/
lemma find_alone (laid : Laid a bs) (mem : b ∈ bs) (inside : b.Contains k)
    (alone : ∀ c ∈ bs, c.Contains k → c = b) :
    a.find k = some ⟨(b.vvptr, b.node), (b.stop, b.node), b.node⟩ := by
  rw [MapAllocator.find, laid.findStart_alone mem inside alone, laid.findEnd_alone mem inside alone]
  exact if_neg (not_not_intro rfl)

/-- What `find` finds is a block around the address. -/
lemma contains_of_find (laid : Laid a bs) {alloc : Allocation} (found : a.find k = some alloc) :
    ∃ b ∈ bs, b.Contains k ∧ alloc = ⟨(b.vvptr, b.node), (b.stop, b.node), b.node⟩ := by
  rw [MapAllocator.find] at found
  cases start : findStart a.vvmemStart k with
  | none =>
    rw [start] at found
    cases found
  | some x =>
    cases stop : findEnd a.vvmemEnd k with
    | none =>
      rw [start, stop] at found
      cases found
    | some y =>
      rw [start, stop] at found
      simp only [ne_eq, ite_not] at found
      split at found
      case isTrue same =>
        cases found
        rw [findStart, laid.start] at start
        rw [findEnd, laid.stop] at stop
        obtain ⟨memx, lo⟩ := mem_of_scan_eq_some start
        obtain ⟨memy, hi⟩ := mem_of_scan_eq_some stop
        obtain ⟨b, memb, rfl⟩ := List.mem_map.1 memx
        obtain ⟨c, memc, rfl⟩ := List.mem_map.1 memy
        cases List.inj_on_of_nodup_map laid.nodes memb memc same
        exact ⟨b, memb, ⟨of_decide_eq_true lo, of_decide_eq_true hi⟩, rfl⟩
      case isFalse => cases found

/-- Outside every block the two searches of `find` do not meet. -/
lemma find_hole (laid : Laid a bs) (hole : ∀ b ∈ bs, ¬ b.Contains k) : a.find k = none := by
  cases found : a.find k with
  | none => rfl
  | some alloc =>
    obtain ⟨b, mem, inside, _⟩ := laid.contains_of_find found
    exact absurd inside (hole b mem)

/-! ### The data -/

/-- The node of a block that is held leads to its memory. -/
lemma deref (laid : Laid a bs) (mem : b ∈ bs) (held : b.holderNode ∈ a.allocationsHolder) :
    a.deref b.node = .ok ⟨b.vptr, b.size⟩ := by
  obtain ⟨n, found⟩ : ∃ n, a.allocationsHolder.find? (fun n => n.node = b.node) = some n :=
    Option.isSome_iff_exists.1 (List.find?_isSome.2 ⟨_, held, decide_eq_true rfl⟩)
  have same := List.find?_some found
  rw [decide_eq_true_eq] at same
  obtain ⟨c, memc, rfl⟩ := laid.held n (List.mem_of_find?_eq_some found)
  cases List.inj_on_of_nodup_map laid.nodes memc mem same
  rw [MapAllocator.deref, found]
  rfl

/-- The node of a block that is no longer held leads nowhere. -/
lemma deref_dangling (laid : Laid a bs) (mem : b ∈ bs) (gone : b.holderNode ∉ a.allocationsHolder) :
    a.deref b.node = .error .undefined := by
  have none : a.allocationsHolder.find? (fun n => n.node = b.node) = none := by
    rw [List.find?_eq_none]
    intro n memn same
    obtain ⟨c, memc, rfl⟩ := laid.held n memn
    cases List.inj_on_of_nodup_map laid.nodes memc mem (of_decide_eq_true same)
    exact gone memn
  rw [MapAllocator.deref, none]

/-! ### `put`, `remove` and `free` -/

/-- `put` of a range with a place between the others. -/
lemma put (laid : Laid a (pre ++ post)) {vvptr vptr size : Nat} (stop : word (vvptr + size) = vvptr + size)
    (placed : (pre ++ ⟨vvptr, vptr, size, a.nextNode⟩ :: post).Pairwise
      (Precedes Block.vvptr Block.stop)) :
    Laid (a.put vvptr vptr size).2 (pre ++ ⟨vvptr, vptr, size, a.nextNode⟩ :: post) := by
  have parts := List.pairwise_append.1 placed
  have lower : ∀ c ∈ pre, Precedes Block.vvptr Block.stop c ⟨vvptr, vptr, size, a.nextNode⟩ :=
    fun c memc => parts.2.2 c memc _ (.head _)
  have higher := (List.pairwise_cons.1 parts.2.1).1
  constructor
  case row => exact ⟨placed, fun c _ => Nat.le_add_right _ _⟩
  case start =>
    have entries := laid.start
    rw [List.map_append] at entries
    rw [List.map_append, List.map_cons]
    refine OrdMap.insert_between entries ?_ ?_
    · exact List.forall_mem_map.2 fun c memc => (lower c memc).2.1
    · exact List.forall_mem_map.2 fun c memc => (higher c memc).2.1
  case stop =>
    have entries := laid.stop
    rw [List.map_append] at entries
    rw [List.map_append, List.map_cons]
    show (a.vvmemEnd.insert (word (vvptr + size)) a.nextNode).entries = _
    rw [stop]
    refine OrdMap.insert_between entries ?_ ?_
    · exact List.forall_mem_map.2 fun c memc => (lower c memc).2.2
    · exact List.forall_mem_map.2 fun c memc => (higher c memc).2.2
  case nodes =>
    rw [List.map_append, List.map_cons, List.nodup_middle, List.nodup_cons, ← List.map_append]
    refine ⟨fun mem => ?_, laid.nodes⟩
    obtain ⟨c, memc, e⟩ := List.mem_map.1 mem
    exact (laid.fresh c memc).ne e
  case fresh =>
    intro c memc
    rcases List.mem_cons.1 (List.perm_middle.mem_iff.1 memc) with rfl | memc
    · exact Nat.lt_succ_self _
    · exact Nat.lt_succ_of_lt (laid.fresh c memc)
  case held =>
    intro n memn
    rcases List.mem_append.1 memn with old | new
    · obtain ⟨c, memc, e⟩ := laid.held n old
      exact ⟨c, List.perm_middle.mem_iff.2 (.tail _ memc), e⟩
    · rw [List.mem_singleton.1 new]
      exact ⟨_, List.perm_middle.mem_iff.2 (.head _), rfl⟩

/-- What the allocator owns in the host plays no part. -/
lemma withAllocations (laid : Laid a bs) (ps : List Nat) : Laid { a with allocations := ps } bs :=
  ⟨laid.row, laid.start, laid.stop, laid.nodes, laid.fresh, laid.held⟩

/-- Disowning host memory moves no range. -/
lemma disowned (laid : Laid a bs) (b : Block) : Laid (a.disowned b) bs := laid.withAllocations _

/-- The generator plays no part. -/
lemma withGenerator (laid : Laid a bs) (vma : LinearVirtualMemoryAddressGenerator) :
    Laid { a with vma := vma } bs :=
  ⟨laid.row, laid.start, laid.stop, laid.nodes, laid.fresh, laid.held⟩

/-- Removing a block leaves the others. -/
lemma removed (laid : Laid a (pre ++ b :: post)) : Laid (a.removed b) (pre ++ post) := by
  have sub : (pre ++ post).Sublist (pre ++ b :: post) := sublist_around
  constructor
  case row => exact ⟨laid.row.before.sublist sub, fun c memc => laid.row.proper c (sub.subset memc)⟩
  case start =>
    have entries := laid.start
    rw [List.map_append, List.map_cons] at entries
    exact (OrdMap.erase_middle entries).trans (List.map_append ..).symm
  case stop =>
    have entries := laid.stop
    rw [List.map_append, List.map_cons] at entries
    exact (OrdMap.erase_middle entries).trans (List.map_append ..).symm
  case nodes => exact laid.nodes.sublist (sub.map _)
  case fresh => exact fun c memc => laid.fresh c (sub.subset memc)
  case held =>
    intro n memn
    obtain ⟨memn, other⟩ := List.mem_filter.1 memn
    obtain ⟨c, memc, rfl⟩ := laid.held n memn
    rcases List.mem_cons.1 (List.perm_middle.mem_iff.1 memc) with rfl | memc
    · exact absurd rfl (of_decide_eq_true other)
    · exact ⟨c, memc, rfl⟩

/-- `remove` of the start of a block that shares it with no other one. -/
lemma remove (laid : Laid a bs) (mem : b ∈ bs) (alone : ∀ c ∈ bs, c.Contains b.vvptr → c = b)
    (held : b.holderNode ∈ a.allocationsHolder) : a.remove b.vvptr = .ok (a.removed b) := by
  rw [MapAllocator.remove, laid.find_alone mem b.contains_start alone]
  change (do let data ← a.deref b.node; _) = _
  rw [laid.deref mem held]
  rfl

/-- `free` of the start of a block that shares it with no other one. -/
lemma free (laid : Laid a bs) (mem : b ∈ bs) (alone : ∀ c ∈ bs, c.Contains b.vvptr → c = b)
    (held : b.holderNode ∈ a.allocationsHolder) :
    a.free b.vvptr = .ok ((a.disowned b).removed b) := by
  have start : a.free b.vvptr =
      if a.isInternalAllocated b.vptr then (a.disowned b).remove b.vvptr else a.remove b.vvptr := by
    rw [MapAllocator.free, laid.find_alone mem b.contains_start alone]
    change (do let data ← a.deref b.node; _) = _
    rw [laid.deref mem held]
    rfl
  rw [start]
  cases internal : a.isInternalAllocated b.vptr with
  | true => exact (laid.disowned b).remove mem alone held
  | false =>
    have same : a.disowned b = a := by
      have all : a.allocations.filter (fun p => p ≠ b.vptr) = a.allocations := by
        refine List.filter_eq_self.2 fun p memp => decide_eq_true ?_
        rintro rfl
        exact absurd (List.contains_iff_mem.2 memp) (Bool.eq_false_iff.1 internal)
      rw [MapAllocator.disowned, all]
    rw [same]
    exact laid.remove mem alone held

/-- `free` of a block whose data are gone is undefined. -/
lemma free_dangling (laid : Laid a bs) (mem : b ∈ bs) (alone : ∀ c ∈ bs, c.Contains b.vvptr → c = b)
    (gone : b.holderNode ∉ a.allocationsHolder) : a.free b.vvptr = .error .undefined := by
  rw [MapAllocator.free, laid.find_alone mem b.contains_start alone]
  exact bind_error (laid.deref_dangling mem gone) _

end Laid

end Irx.Memory
