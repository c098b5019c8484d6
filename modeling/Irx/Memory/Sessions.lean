import Irx.Memory.AddressSpace

/-!
# The allocator in direct use

A `Session` is a `MapAllocator` together with a record of its use: which blocks are live, which were given
to `add` and which obtained by `malloc`, and what was released to the host. Operations come in any order,
with any host pointers; only objects of `2 ^ 63` bytes and more do not exist.

The overlap check of `add` asks whether the first address of the new range, or the one after its end, lies
in a block. After a `reset` the new range can contain a whole older block, which neither address notices.
Where this does not happen all ranges stay disjoint (`ranges_disjoint`).
-/

namespace Irx.Memory
open Irx.Lib System

/-- An allocator and the record of its use. A release is the data record and the pointer that `::free`
is called with. -/
structure Session where
  allocator : MapAllocator := {}
  live : List Block := []
  given : List Block := []
  obtained : List Block := []
  released : List (Nat × Nat) := []

/-- A call of the allocator; `vmem` is the pointer given, or the one `safe_malloc` returns. -/
inductive Operation where
  | add (vmem size : Nat)
  | malloc (vmem size : Nat)
  | free (b : Block)
  | freeze
  | reset

/-- What `free` of an address releases to the host. -/
def MapAllocator.releases (a : MapAllocator) (vvptr : Nat) : List (Nat × Nat) :=
  match a.find vvptr with
  | none => []
  | some alloc =>
    match a.deref alloc.start.2 with
    | .error _ => []
    | .ok data => if a.isInternalAllocated data.vptr then [(alloc.data, data.vptr)] else []

/-- The block of an answer. -/
def MapAllocator.answered (a : MapAllocator) (alloc : IrxAlloc) : Block :=
  ⟨alloc.vvptr, alloc.vptr, alloc.size, a.nextNode⟩

namespace Session

/-- An operation, with the blocks that are live behind it. -/
def step (s : Session) : Operation → Except Abort Session
  | .add vmem size => do
    let (alloc, a) ← s.allocator.add vmem size
    let b := s.allocator.answered alloc
    .ok { s with allocator := a, live := s.live ++ [b], given := s.given ++ [b] }
  | .malloc vmem size => do
    let (alloc, a) ← s.allocator.malloc vmem size
    let b := s.allocator.answered alloc
    .ok { s with allocator := a, live := s.live ++ [b], obtained := s.obtained ++ [b] }
  | .free b => do
    let a ← s.allocator.free b.vvptr
    .ok { s with
      allocator := a
      live := s.live.erase b
      released := s.released ++ s.allocator.releases b.vvptr }
  | .freeze => .ok { s with allocator := s.allocator.freeze }
  | .reset => do
    let a ← s.allocator.reset
    .ok { s with allocator := a }

/-- Only live blocks are freed, and a reset has its freeze. -/
def Allowed (s : Session) : Operation → Prop
  | .add _ size => size < 9223372036854775808
  | .malloc _ size => size < 9223372036854775808
  | .free b => b ∈ s.live
  | .freeze => True
  | .reset => s.allocator.vma.freezeStack ≠ []

end Session

/-- The allocator in use, from its creation on. -/
def sessions : System Abort Session Operation where
  start := .ok {}
  step s op := s.step op
  allowed s op := s.Allowed op

/-- A block inside the range of a request does not stay unnoticed: a block contains the first address of
the range or the one after its end, or there is no room for the request. -/
def MapAllocator.Noticed (a : MapAllocator) (blocks : List Block) (size : Nat) : Prop :=
  (∃ b ∈ blocks, a.vma.lastAllocAddr ≤ b.vvptr ∧ b.stop ≤ a.vma.lastAllocAddr + size) →
    (∃ b ∈ blocks, b.Contains a.vma.lastAllocAddr ∨ b.Contains (a.vma.lastAllocAddr + size + 1)) ∨
      endAddr < a.vma.lastAllocAddr + stride size

instance (a : MapAllocator) (blocks : List Block) (size : Nat) : Decidable (a.Noticed blocks size) :=
  inferInstanceAs (Decidable (_ → _))

/-- No request takes a range around a live block unnoticed. -/
def Session.Noticed (s : Session) : Operation → Prop
  | .add _ size => s.allocator.Noticed s.live size
  | .malloc _ size => s.allocator.Noticed s.live size
  | _ => True

/-- The block that a request gets. -/
def MapAllocator.newBlock (a : MapAllocator) (vptr size : Nat) : Block :=
  ⟨a.vma.lastAllocAddr, vptr, size, a.nextNode⟩

/-- The allocator with the block of a request. -/
def MapAllocator.grown (a : MapAllocator) (vptr size : Nat) : MapAllocator :=
  (MapAllocator.put
    { a with vma := { a.vma with lastAllocAddr := a.vma.lastAllocAddr + stride size } }
    a.vma.lastAllocAddr vptr size).2

namespace Laid

variable {a : MapAllocator} {bs pre post : List Block} {b : Block} {k vptr size : Nat}

/-- No address lies in two blocks of a chain. -/
lemma alone (chain : Chain Block.vvptr Block.stop bs) (mem : b ∈ bs) (inside : b.Contains k) :
    ∀ c ∈ bs, c.Contains k → c = b := by
  intro c memc inside'
  by_contra ne
  exact Set.disjoint_left.1 (chain.disjoint memc mem ne) inside' inside

/-- Something is found exactly inside a block. -/
lemma find_isSome_iff (laid : Laid a bs) (chain : Chain Block.vvptr Block.stop bs) :
    (a.find k).isSome ↔ ∃ b ∈ bs, b.Contains k := by
  constructor
  · intro found
    obtain ⟨alloc, found⟩ := Option.isSome_iff_exists.1 found
    obtain ⟨b, mem, inside, _⟩ := laid.contains_of_find found
    exact ⟨b, mem, inside⟩
  · rintro ⟨b, mem, inside⟩
    rw [laid.find_alone mem inside (alone chain mem inside)]
    rfl

/-- A new range that notices what is inside of it has its place among those of the blocks. -/
lemma exists_place (chain : Chain Block.vvptr Block.stop bs) {x : Block}
    (start : ∀ b ∈ bs, ¬ b.Contains x.vvptr) (past : ∀ b ∈ bs, ¬ b.Contains (x.stop + 1))
    (around : ∀ b ∈ bs, ¬ (x.vvptr ≤ b.vvptr ∧ b.stop ≤ x.stop)) :
    ∃ pre post, bs = pre ++ post ∧ Chain Block.vvptr Block.stop (pre ++ x :: post) := by
  have proper : ∀ b : Block, b.vvptr ≤ b.stop := fun b => Nat.le_add_right _ _
  have apart : ∀ b ∈ bs, b.stop < x.vvptr ∨ x.stop < b.vvptr := by
    intro b mem
    have h1 := start b mem
    have h2 := past b mem
    have h3 := around b mem
    have h4 := proper b
    simp only [Block.Contains] at h1 h2
    omega
  have trans : ∀ b ∈ bs, ∀ c ∈ bs, x.stop < b.vvptr → b.stop < c.vvptr → x.stop < c.vvptr :=
    fun b _ c _ first second => (first.trans_le (proper b)).trans second
  obtain ⟨pre, post, e, _, _, placed⟩ := exists_insertion trans chain.before apart
  exact ⟨pre, post, e, placed, fun b _ => proper b⟩

/-- `add` runs out of addresses, exits for an overlap, or puts the new range between the others. -/
lemma add (laid : Laid a bs) (chain : Chain Block.vvptr Block.stop bs)
    (bump : a.vma.lastAllocAddr ≤ endAddr) (small : size < 9223372036854775808)
    (noticed : a.Noticed bs size) :
    a.add vptr size = .error .exhausted ∨ a.add vptr size = .error .overlapping ∨
      a.add vptr size = .ok (⟨a.vma.lastAllocAddr, vptr, size⟩, a.grown vptr size) ∧
      a.vma.lastAllocAddr + stride size ≤ endAddr ∧
      ∃ pre post, bs = pre ++ post ∧ Laid (a.grown vptr size) (pre ++ a.newBlock vptr size :: post) ∧
        Chain Block.vvptr Block.stop (pre ++ a.newBlock vptr size :: post) := by
  have next := next_eq bump small
  have bound : endAddr = 0x58000000 := by decide
  have lt := lt_stride size
  by_cases room : a.vma.lastAllocAddr + stride size ≤ endAddr
  · rw [if_pos room] at next
    have checked : a.add vptr size =
        if (a.find a.vma.lastAllocAddr).isSome || (a.find (a.vma.lastAllocAddr + size + 1)).isSome then
          .error .overlapping
        else .ok (⟨a.vma.lastAllocAddr, vptr, size⟩, a.grown vptr size) := by
      rw [← word_of_lt (n := a.vma.lastAllocAddr + size + 1) (by omega)]
      exact bind_ok next _
    by_cases hit : ∃ b ∈ bs, b.Contains a.vma.lastAllocAddr ∨ b.Contains (a.vma.lastAllocAddr + size + 1)
    · refine .inr (.inl (checked.trans (if_pos ?_)))
      rw [Bool.or_eq_true, laid.find_isSome_iff chain, laid.find_isSome_iff chain]
      obtain ⟨b, mem, inside | inside⟩ := hit
      · exact .inl ⟨b, mem, inside⟩
      · exact .inr ⟨b, mem, inside⟩
    · have start : ∀ b ∈ bs, ¬ b.Contains a.vma.lastAllocAddr :=
        fun b mem inside => hit ⟨b, mem, .inl inside⟩
      have past : ∀ b ∈ bs, ¬ b.Contains (a.vma.lastAllocAddr + size + 1) :=
        fun b mem inside => hit ⟨b, mem, .inr inside⟩
      have around : ∀ b ∈ bs,
          ¬ (a.vma.lastAllocAddr ≤ b.vvptr ∧ b.stop ≤ a.vma.lastAllocAddr + size) := by
        intro b mem inside
        rcases noticed ⟨b, mem, inside⟩ with caught | full
        · exact hit caught
        · exact full.not_ge room
      obtain ⟨pre, post, rfl, placed⟩ := exists_place (x := a.newBlock vptr size) chain start past around
      refine .inr (.inr ⟨checked.trans (if_neg ?_), room, pre, post, rfl, ?_, placed⟩)
      · rw [Bool.or_eq_true, laid.find_isSome_iff chain, laid.find_isSome_iff chain]
        rintro (⟨b, mem, inside⟩ | ⟨b, mem, inside⟩)
        · exact start b mem inside
        · exact past b mem inside
      · exact (laid.withGenerator _).put (word_of_lt (by omega)) placed.row.before
  · rw [if_neg room] at next
    exact .inl (bind_error next _)

end Laid

namespace Session

variable {s s' : Session} {bs : List Block} {b : Block} {vptr size : Nat}

/-- The maps hold the live blocks, their ranges are disjoint, and all addresses handed out or frozen are
the interpreter's. -/
structure Sound (s : Session) (bs : List Block) : Prop where
  laid : Laid s.allocator bs
  chain : Chain Block.vvptr Block.stop bs
  live : bs.Perm s.live
  bump : s.allocator.vma.lastAllocAddr ≤ endAddr
  marks : ∀ mark ∈ s.allocator.vma.freezeStack, mark ≤ endAddr

/-- At the start there is no block. -/
lemma Sound.start : Sound {} [] := ⟨.empty, .nil, .nil, by decide, List.forall_mem_nil _⟩

/-- A request that ran has put its block between the others. -/
lemma Sound.request (sound : Sound s bs) (small : size < 9223372036854775808)
    (noticed : s.allocator.Noticed s.live size) (ps : List Nat) {alloc : IrxAlloc} {a : MapAllocator}
    (ran : MapAllocator.add { s.allocator with allocations := ps } vptr size = .ok (alloc, a)) :
    s.allocator.answered alloc = s.allocator.newBlock vptr size ∧
      a = MapAllocator.grown { s.allocator with allocations := ps } vptr size ∧
      s.allocator.vma.lastAllocAddr + stride size ≤ endAddr ∧
      ∃ pre post, bs = pre ++ post ∧ Laid a (pre ++ s.allocator.newBlock vptr size :: post) ∧
        Chain Block.vvptr Block.stop (pre ++ s.allocator.newBlock vptr size :: post) := by
  have noticed' : MapAllocator.Noticed { s.allocator with allocations := ps } bs size := by
    rw [MapAllocator.Noticed]
    simp only [sound.live.mem_iff]
    exact noticed
  rcases (sound.laid.withAllocations ps).add sound.chain sound.bump small noticed' with
    e | e | ⟨e, room, placed⟩
  · cases ran.symm.trans e
  · cases ran.symm.trans e
  · cases ran.symm.trans e
    exact ⟨rfl, rfl, room, placed⟩

/-- A block that was freed is gone from the maps. -/
lemma Sound.freed (sound : Sound s bs) (live : b ∈ s.live) {a : MapAllocator}
    (ran : s.allocator.free b.vvptr = .ok a) :
    b.holderNode ∈ s.allocator.allocationsHolder ∧ a = (s.allocator.disowned b).removed b ∧
      ∃ pre post, bs = pre ++ b :: post ∧ Laid a (pre ++ post) ∧
        Chain Block.vvptr Block.stop (pre ++ post) := by
  have mem := sound.live.mem_iff.2 live
  have alone := Laid.alone sound.chain mem b.contains_start
  by_cases held : b.holderNode ∈ s.allocator.allocationsHolder
  · cases ran.symm.trans (sound.laid.free mem alone held)
    obtain ⟨pre, post, rfl⟩ := List.append_of_mem mem
    exact ⟨held, rfl, pre, post, rfl, (sound.laid.disowned b).removed,
      sound.chain.sublist sublist_around⟩
  · cases ran.symm.trans (sound.laid.free_dangling mem alone held)

/-- What a step does that returns. -/
inductive Takes (s : Session) : Operation → Session → Prop where
  | add {vmem size : Nat} :
    s.allocator.vma.lastAllocAddr + stride size ≤ endAddr →
    Takes s (.add vmem size) { s with
      allocator := s.allocator.grown vmem size
      live := s.live ++ [s.allocator.newBlock vmem size]
      given := s.given ++ [s.allocator.newBlock vmem size] }
  | malloc {vmem size : Nat} :
    s.allocator.vma.lastAllocAddr + stride size ≤ endAddr →
    Takes s (.malloc vmem size) { s with
      allocator := MapAllocator.grown
        { s.allocator with allocations := s.allocator.allocations ++ [vmem] } vmem size
      live := s.live ++ [s.allocator.newBlock vmem size]
      obtained := s.obtained ++ [s.allocator.newBlock vmem size] }
  | free {b : Block} :
    b.holderNode ∈ s.allocator.allocationsHolder →
    Takes s (.free b) { s with
      allocator := (s.allocator.disowned b).removed b
      live := s.live.erase b
      released := s.released ++ s.allocator.releases b.vvptr }
  | freeze : Takes s .freeze { s with allocator := s.allocator.freeze }
  | reset {mark rest} :
    s.allocator.vma.freezeStack = mark :: rest →
    Takes s .reset { s with allocator := { s.allocator with vma := ⟨mark, rest⟩ } }

/-- An operation that ran takes one step and keeps the session sound. -/
lemma Sound.step {op : Operation} (sound : Sound s bs) (allowed : s.Allowed op) (noticed : s.Noticed op)
    (ran : s.step op = .ok s') : s.Takes op s' ∧ ∃ bs', Sound s' bs' := by
  have insert : ∀ {pre post : List Block} {x : Block}, bs = pre ++ post →
      (pre ++ x :: post).Perm (s.live ++ [x]) := by
    rintro pre post x rfl
    exact (List.perm_middle.trans (sound.live.cons x)).trans (List.perm_append_singleton _ _).symm
  cases op with
  | add vmem size =>
    obtain ⟨⟨alloc, a⟩, added, e⟩ := bind_eq_ok.1 ran
    cases e
    obtain ⟨block, rfl, room, pre, post, e, laid, chain⟩ :=
      sound.request allowed noticed s.allocator.allocations added
    rw [block]
    exact ⟨.add room, _, laid, chain, insert e, room, sound.marks⟩
  | malloc vmem size =>
    obtain ⟨⟨alloc, a⟩, added, e⟩ := bind_eq_ok.1 ran
    cases e
    obtain ⟨block, rfl, room, pre, post, e, laid, chain⟩ :=
      sound.request allowed noticed (s.allocator.allocations ++ [vmem]) added
    rw [block]
    exact ⟨.malloc room, _, laid, chain, insert e, room, sound.marks⟩
  | free b =>
    obtain ⟨a, freed, e⟩ := bind_eq_ok.1 ran
    cases e
    obtain ⟨held, rfl, pre, post, rfl, laid, chain⟩ := sound.freed allowed freed
    refine ⟨.free held, _, laid, chain, ?_, sound.bump, sound.marks⟩
    have moved := (List.perm_cons_erase allowed).symm.trans (sound.live.symm.trans List.perm_middle)
    exact moved.cons_inv.symm
  | freeze =>
    cases ran
    refine ⟨.freeze, bs, sound.laid.withGenerator _, sound.chain, sound.live, sound.bump, ?_⟩
    exact List.forall_mem_cons.2 ⟨sound.bump, sound.marks⟩
  | reset =>
    obtain ⟨a, reset, e⟩ := bind_eq_ok.1 ran
    cases e
    obtain ⟨vma, top, e⟩ := bind_eq_ok.1 reset
    cases e
    rw [LinearVirtualMemoryAddressGenerator.reset] at top
    cases frozen : s.allocator.vma.freezeStack with
    | nil => exact absurd frozen allowed
    | cons mark rest =>
      rw [frozen] at top
      cases top
      have marks := sound.marks
      rw [frozen, List.forall_mem_cons] at marks
      exact ⟨.reset frozen, bs, sound.laid.withGenerator _, sound.chain, sound.live, marks.1, marks.2⟩

/-- No reset goes back to below a live block. -/
def Clear (s : Session) : Operation → Prop
  | .reset => ∀ mark ∈ s.allocator.vma.freezeStack.head?, ∀ b ∈ s.live, b.stop < mark
  | _ => True

/-- The session is sound and all live blocks are below the next address. -/
structure Tight (s : Session) : Prop where
  sound : ∃ bs, Sound s bs
  below : ∀ b ∈ s.live, b.stop < s.allocator.vma.lastAllocAddr

/-- A new session is tight. -/
lemma Tight.start : Tight {} := ⟨⟨[], .start⟩, List.forall_mem_nil _⟩

/-- Above all live blocks there is nothing to notice. -/
lemma Tight.noticed (tight : Tight s) (op : Operation) : s.Noticed op := by
  have nothing : ∀ size, s.allocator.Noticed s.live size := by
    rintro size ⟨b, live, lo, _⟩
    exact absurd (lo.trans (Nat.le_add_right _ _)) (tight.below b live).not_ge
  cases op with
  | add _ size => exact nothing size
  | malloc _ size => exact nothing size
  | free | freeze | reset => exact trivial

/-- An operation that ran takes one step and keeps the session tight. -/
lemma Tight.step {op : Operation} (tight : Tight s) (allowed : s.Allowed op) (clear : s.Clear op)
    (ran : s.step op = .ok s') : s.Takes op s' ∧ Tight s' := by
  obtain ⟨bs, sound⟩ := tight.sound
  obtain ⟨takes, sound'⟩ := sound.step allowed (tight.noticed op) ran
  refine ⟨takes, sound', ?_⟩
  have grown : ∀ vmem size, ∀ c ∈ s.live ++ [s.allocator.newBlock vmem size],
      c.stop < s.allocator.vma.lastAllocAddr + stride size := by
    intro vmem size
    refine forall_mem_snoc (fun c live => Nat.lt_add_right _ (tight.below c live)) ?_
    exact Nat.add_lt_add_left (lt_stride size) _
  cases takes with
  | add _ => exact grown _ _
  | malloc _ => exact grown _ _
  | free _ => exact fun c mem => tight.below c (List.mem_of_mem_erase mem)
  | freeze => exact tight.below
  | reset frozen =>
    rw [Clear, frozen] at clear
    exact clear _ rfl

/-- Live blocks are disjoint. -/
lemma Sound.disjoint (sound : Sound s bs) :
    s.live.Pairwise fun b c => Disjoint (Set.Icc b.vvptr b.stop) (Set.Icc c.vvptr c.stop) := by
  refine (sound.live.pairwise_iff fun {b c} apart => Disjoint.symm apart).1 ?_
  exact sound.chain.before.imp fun {b c} lt => Set.disjoint_left.2 fun k inb inc =>
    ((inb.2.trans_lt lt).trans_le inc.1).false

end Session

/-- In every run in which no request takes a range around a live block unnoticed, the closed ranges of the
live blocks are disjoint: each `add` and `malloc` that returned has kept them so. -/
theorem ranges_disjoint {s : Session} (run : (sessions.under Session.Noticed).Outcome (.ok s)) :
    s.live.Pairwise fun b c => Disjoint (Set.Icc b.vvptr b.stop) (Set.Icc c.vvptr c.stop) := by
  have holds := run.holds (P := fun s => ∃ bs, s.Sound bs) (E := fun _ => True) ⟨[], .start⟩ ?_
  · obtain ⟨bs, sound⟩ := holds
    exact sound.disjoint
  · rintro s op ⟨bs, sound⟩ ⟨allowed, noticed⟩
    show Holds _ _ (s.step op)
    cases ran : s.step op with
    | error e => exact trivial
    | ok s' => exact (sound.step allowed noticed ran).2

/-- The session after operations that all return. -/
def sessionAfter (ops : List Operation) : Session := (ops.foldlM Session.step {}).toOption.getD {}

/-- Two objects given to `add`, and the first one freed. -/
theorem ranges_disjoint_freed : (sessionAfter [.add 0x7f0000001000 16, .add 0x7f0000002000 4,
    .free ⟨0x50000000, 0x7f0000001000, 16, 0⟩]).live.Pairwise fun b c =>
      Disjoint (Set.Icc b.vvptr b.stop) (Set.Icc c.vvptr c.stop) := by
  have small : 16 < 9223372036854775808 ∧ 4 < 9223372036854775808 := by decide
  have empty : MapAllocator.Noticed {} [] 16 := by decide
  have behind : (sessionAfter [.add 0x7f0000001000 16]).allocator.Noticed
      [⟨0x50000000, 0x7f0000001000, 16, 0⟩] 4 := by decide
  have first : (sessions.under Session.Noticed).Outcome
      (.ok (sessionAfter [.add 0x7f0000001000 16])) :=
    Outcome.next .start (i := .add 0x7f0000001000 16) ⟨small.1, empty⟩ rfl
  have second : (sessions.under Session.Noticed).Outcome
      (.ok (sessionAfter [.add 0x7f0000001000 16, .add 0x7f0000002000 4])) :=
    first.next (i := .add 0x7f0000002000 4) ⟨small.2, behind⟩ rfl
  refine ranges_disjoint (second.next (i := .free ⟨0x50000000, 0x7f0000001000, 16, 0⟩) ⟨?_, trivial⟩ rfl)
  exact List.mem_cons_self

/-- Two objects are added after a freeze, the first one is freed, and a larger block takes the addresses
from its start on. The check asks for `0x50000000` and `0x50000041`, the block in between is live. -/
theorem enclosing_range_passes : ∃ s : Session, sessions.Outcome (.ok s) ∧
    s.live = [⟨0x50000014, 0x7f0000002000, 4, 1⟩, ⟨0x50000000, 0x7f0000003000, 64, 2⟩] ∧
    ¬ s.live.Pairwise fun b c => Disjoint (Set.Icc b.vvptr b.stop) (Set.Icc c.vvptr c.stop) := by
  let b : Block := ⟨0x50000000, 0x7f0000001000, 16, 0⟩
  have r1 : sessions.Outcome (.ok (sessionAfter [.freeze])) :=
    Outcome.next .start (i := .freeze) trivial rfl
  have r2 : sessions.Outcome (.ok (sessionAfter [.freeze, .add 0x7f0000001000 16])) :=
    r1.next (i := .add 0x7f0000001000 16) (by decide : 16 < 9223372036854775808) rfl
  have r3 : sessions.Outcome
      (.ok (sessionAfter [.freeze, .add 0x7f0000001000 16, .add 0x7f0000002000 4])) :=
    r2.next (i := .add 0x7f0000002000 4) (by decide : 4 < 9223372036854775808) rfl
  have r4 : sessions.Outcome
      (.ok (sessionAfter [.freeze, .add 0x7f0000001000 16, .add 0x7f0000002000 4, .free b])) :=
    r3.next (i := .free b) (List.mem_cons_self : b ∈ [b, _]) rfl
  have r5 : sessions.Outcome
      (.ok (sessionAfter [.freeze, .add 0x7f0000001000 16, .add 0x7f0000002000 4, .free b, .reset])) :=
    r4.next (i := .reset) (List.cons_ne_nil _ _) rfl
  have r6 : sessions.Outcome (.ok (sessionAfter [.freeze, .add 0x7f0000001000 16,
      .add 0x7f0000002000 4, .free b, .reset, .malloc 0x7f0000003000 64])) :=
    r5.next (i := .malloc 0x7f0000003000 64) (by decide : 64 < 9223372036854775808) rfl
  refine ⟨_, r6, rfl, fun disjoint => ?_⟩
  have pair := (List.pairwise_cons.1 disjoint).1 ⟨0x50000000, 0x7f0000003000, 64, 2⟩ (.head _)
  have inside : (0x50000014 : Nat) ∈ Set.Icc 0x50000000 (0x50000000 + 64) := by decide
  exact Set.disjoint_left.1 pair ⟨le_rfl, Nat.le_add_right _ _⟩ inside

end Irx.Memory
