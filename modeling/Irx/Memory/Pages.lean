import Irx.Memory.Sharing

/-!
# The allocator of pages

`MMapAllocator` takes blocks from `mmap`, whose addresses below `2 ^ 32` serve on both sides. The kernel
gives whole pages that do not overlap, but that may lie directly behind one another. A block of whole
pages then ends where the next one starts, and as ranges include their end the start of the next one lies in
both: `find` comes to nothing there, while all other addresses are found (`page_block_iff`).
-/

namespace Irx.Memory
open Irx.Lib System

/-- `MMapAllocator`. It shares the members of `IRXAllocator`, the address generator among them is not
used. -/
structure MMapAllocator where
  irx : MapAllocator := {}
  extraAllocations : List AllocationData := []

/-- `~0xFFFFFFFFLL`. -/
def highMask : Nat := 0xFFFFFFFF00000000

namespace MMapAllocator

/-- `add`; `m` is the answer of `mmap` if an address has to be reserved. -/
def add (a : MMapAllocator) (vptr size : Nat) (m : Option Nat) :
    Except Abort (IrxAlloc × MMapAllocator) :=
  if vptr &&& highMask ≠ 0 then
    match m with
    | none => .error .exhausted
    | some m =>
      let (alloc, irx) := a.irx.put m vptr (word (size + 1))
      .ok (alloc, { irx := irx, extraAllocations := a.extraAllocations ++ [⟨m, word (size + 1)⟩] })
  else
    let (alloc, irx) := a.irx.put vptr vptr size
    .ok (alloc, { a with irx := irx })

/-- `malloc`, where `mmap` returned `m`, or failed. -/
def malloc (a : MMapAllocator) (m : Option Nat) (size : Nat) :
    Except Abort (IrxAlloc × MMapAllocator) :=
  match m with
  | none => .error .exhausted
  | some m => add { a with irx := { a.irx with allocations := a.irx.allocations ++ [m] } } m size none

/-- `free`, which takes the steps of `MapAllocator::free` with `munmap` in place of `::free`. -/
def free (a : MMapAllocator) (vvptr : Nat) : Except Abort MMapAllocator := do
  let irx ← a.irx.free vvptr
  .ok { a with irx := irx }

end MMapAllocator

/-- An allocator of pages and its live blocks. -/
structure PageSession where
  allocator : MMapAllocator := {}
  live : List Block := []

/-- A call of the allocator with the answer of `mmap`. -/
inductive PageOperation where
  | malloc (m : Option Nat) (size : Nat)
  | free (b : Block)

/-- An operation, with the blocks that are live behind it. -/
def PageSession.step (s : PageSession) : PageOperation → Except Abort PageSession
  | .malloc m size => do
    let (alloc, a) ← s.allocator.malloc m size
    .ok { allocator := a, live := s.live ++ [s.allocator.irx.answered alloc] }
  | .free b => do
    let a ← s.allocator.free b.vvptr
    .ok { allocator := a, live := s.live.erase b }

/-- The bytes of the pages for a size. -/
def pageBytes (size : Nat) : Nat := (size + 4095) / 4096 * 4096

/-- What `mmap` with `MAP_32BIT` promises: whole pages below `2 ^ 32` that no live block has, and none for
a size of zero. -/
structure MapsPages (live : List Block) (m size : Nat) : Prop where
  positive : 0 < size
  nonnull : 0 < m
  aligned : m % 4096 = 0
  low : m + pageBytes size ≤ 4294967296
  apart : ∀ b ∈ live, b.vptr + pageBytes b.size ≤ m ∨ m + pageBytes size ≤ b.vptr

/-- The host maps pages that are not in use, and only live blocks are freed. -/
def PageSession.Allowed (s : PageSession) : PageOperation → Prop
  | .malloc m size => ∀ m' ∈ m, MapsPages s.live m' size
  | .free b => b ∈ s.live

/-- The allocator of pages in use, from its creation on. -/
def pageSessions : System Abort PageSession PageOperation where
  start := .ok {}
  step s op := s.step op
  allowed s op := s.Allowed op

/-- The pages hold the request. -/
lemma le_pageBytes (size : Nat) : size ≤ pageBytes size := by
  rw [pageBytes]
  omega

namespace Laid

variable {a : MapAllocator} {bs : List Block} {b c : Block}

/-- The search for a start at the start of a block. -/
lemma findStart_start (laid : Laid a bs) (mem : b ∈ bs) :
    findStart a.vvmemStart b.vvptr = some (b.vvptr, b.node) := by
  rw [findStart, laid.start]
  refine scan_eq_some (List.mem_map_of_mem (f := fun b => (b.vvptr, b.node)) mem)
    (decide_eq_true le_rfl) ?_
  intro y hy py
  obtain ⟨c, memc, rfl⟩ := List.mem_map.1 hy
  rcases laid.row.separated mem memc with rfl | before | before
  · exact .inl rfl
  · exact absurd (of_decide_eq_true py) before.2.1.not_ge
  · exact .inr ⟨decide_eq_true before.2.1, decide_eq_false before.2.1.not_gt⟩

/-- The search for an end at the end of a block. -/
lemma findEnd_stop (laid : Laid a bs) (mem : b ∈ bs) :
    findEnd a.vvmemEnd b.stop = some (b.stop, b.node) := by
  rw [findEnd, laid.stop]
  refine scan_eq_some (List.mem_map_of_mem (f := fun b => (b.stop, b.node)) mem)
    (decide_eq_true le_rfl) ?_
  intro y hy py
  obtain ⟨c, memc, rfl⟩ := List.mem_map.1 hy
  rcases laid.row.separated mem memc with rfl | before | before
  · exact .inl rfl
  · exact .inr ⟨decide_eq_true before.2.2, decide_eq_false before.2.2.not_gt⟩
  · exact absurd (of_decide_eq_true py) before.2.2.not_ge

/-- At a start that is the end of another block the two searches do not meet. -/
lemma find_shared (laid : Laid a bs) (memb : b ∈ bs) (memc : c ∈ bs) (ne : c ≠ b)
    (shared : c.stop = b.vvptr) : a.find b.vvptr = none := by
  have stop := laid.findEnd_stop memc
  rw [shared] at stop
  rw [MapAllocator.find, laid.findStart_start memb, stop]
  exact if_pos fun same => ne (List.inj_on_of_nodup_map laid.nodes memc memb same.symm)

end Laid

namespace PageSession

variable {s s' : PageSession} {bs : List Block} {b c : Block} {m size k : Nat}

/-- The maps hold the live blocks, which have pages of their own and the same address on both sides. -/
structure Sound (s : PageSession) (bs : List Block) : Prop where
  laid : Laid s.allocator.irx bs
  live : bs.Perm s.live
  complete : ∀ b ∈ bs, b.holderNode ∈ s.allocator.irx.allocationsHolder
  same : ∀ b ∈ bs, b.vptr = b.vvptr
  positive : ∀ b ∈ bs, 0 < b.size ∧ 0 < b.vvptr
  low : ∀ b ∈ bs, b.stop ≤ 4294967296

/-- Nothing is mapped yet. -/
lemma Sound.start : Sound {} [] :=
  ⟨.empty, .nil, List.forall_mem_nil _, List.forall_mem_nil _, List.forall_mem_nil _,
    List.forall_mem_nil _⟩

/-- Pages of their own put two blocks one behind the other. -/
lemma precedes (posb : 0 < b.size) (posc : 0 < c.size) (sameb : b.vptr = b.vvptr)
    (apart : b.vptr + pageBytes b.size ≤ c.vvptr) : Precedes Block.vvptr Block.stop b c := by
  have le := le_pageBytes b.size
  rw [Precedes, Block.stop, Block.stop]
  omega

/-- A request that was mapped keeps the allocator sound. -/
lemma Sound.malloc (sound : Sound s bs) (pages : MapsPages s.live m size) :
    s.step (.malloc (some m) size) = .ok
      { allocator := { s.allocator with
          irx := (MapAllocator.put
            { s.allocator.irx with allocations := s.allocator.irx.allocations ++ [m] } m m size).2 }
        live := s.live ++ [⟨m, m, size, s.allocator.irx.nextNode⟩] } ∧
      ∀ s', s.step (.malloc (some m) size) = .ok s' → ∃ bs', Sound s' bs' := by
  have bytes := le_pageBytes size
  have low : m &&& highMask = 0 := by
    have small : m < 2 ^ 32 := by
      have := pages.low
      have := pages.positive
      omega
    have mask : highMask = (2 ^ 32 - 1) <<< 32 := by decide
    apply Nat.eq_of_testBit_eq
    intro i
    rw [mask, Nat.testBit_and, Nat.testBit_shiftLeft, Nat.zero_testBit]
    by_cases high : 32 ≤ i
    · rw [Nat.testBit_lt_two_pow (small.trans_le (Nat.pow_le_pow_right (by decide) high)),
        Bool.false_and]
    · rw [decide_eq_false high, Bool.false_and, Bool.and_false]
  have ran : s.step (.malloc (some m) size) = .ok
      { allocator := { s.allocator with
          irx := (MapAllocator.put
            { s.allocator.irx with allocations := s.allocator.irx.allocations ++ [m] } m m size).2 }
        live := s.live ++ [⟨m, m, size, s.allocator.irx.nextNode⟩] } := by
    have added : s.allocator.malloc (some m) size = .ok (⟨m, m, size⟩,
        { s.allocator with irx := (MapAllocator.put
          { s.allocator.irx with allocations := s.allocator.irx.allocations ++ [m] } m m size).2 }) :=
      if_neg (not_not_intro low)
    exact bind_ok added _
  refine ⟨ran, fun s' ran' => ?_⟩
  cases ran.symm.trans ran'
  -- the new block has its place among the others
  let x : Block := ⟨m, m, size, s.allocator.irx.nextNode⟩
  have apart : ∀ b ∈ bs, Precedes Block.vvptr Block.stop b x ∨ Precedes Block.vvptr Block.stop x b := by
    intro b mem
    have pos := (sound.positive b mem).1
    rcases pages.apart b (sound.live.mem_iff.1 mem) with behind | before
    · exact .inl (precedes (c := x) pos pages.positive (sound.same b mem) behind)
    · exact .inr (precedes (b := x) pages.positive pos rfl (sound.same b mem ▸ before))
  obtain ⟨pre, post, rfl, _, _, placed⟩ :=
    exists_insertion (fun _ _ _ _ => Precedes.trans) sound.laid.row.before apart
  have stop : word (m + size) = m + size := by
    have := pages.low
    exact word_of_lt (by omega)
  have members : ∀ {P : Block → Prop}, (∀ b ∈ pre ++ post, P b) → P x → ∀ b ∈ pre ++ x :: post, P b := by
    intro P old new b mem
    rcases List.mem_cons.1 (List.perm_middle.mem_iff.1 mem) with rfl | mem
    · exact new
    · exact old b mem
  refine ⟨pre ++ x :: post, (sound.laid.withAllocations _).put stop placed, ?_, ?_, ?_, ?_, ?_⟩
  · exact (List.perm_middle.trans (sound.live.cons x)).trans (List.perm_append_singleton _ _).symm
  · refine members (fun b mem => List.mem_append_left _ (sound.complete b mem)) ?_
    exact List.mem_append_right _ (List.mem_singleton_self _)
  · exact members sound.same rfl
  · exact members sound.positive ⟨pages.positive, pages.nonnull⟩
  · refine members sound.low ?_
    have := pages.low
    show m + size ≤ _
    omega

/-- Only the start of a block can lie in another block. -/
lemma Sound.alone (sound : Sound s bs) (mem : b ∈ bs) (lo : b.vvptr ≤ k) (hi : k < b.stop)
    (own : k = b.vvptr → ∀ c ∈ bs, c.stop ≠ b.vvptr) : ∀ c ∈ bs, c.Contains k → c = b := by
  intro c memc inside
  rcases sound.laid.row.separated memc mem with e | before | before
  · exact e
  · have start : k = b.vvptr := le_antisymm (inside.2.trans before.1) lo
    exact absurd (le_antisymm before.1 (start ▸ inside.2)) (own start c memc)
  · exact absurd (before.1.trans inside.1) hi.not_ge

/-- A block is not empty. -/
lemma Sound.start_lt (sound : Sound s bs) (mem : b ∈ bs) : b.vvptr < b.stop :=
  Nat.lt_add_of_pos_right (sound.positive b mem).1

/-- At a shared start `free` is undefined. -/
lemma Sound.free_shared (sound : Sound s bs) (memb : b ∈ bs) (memc : c ∈ bs)
    (shared : c.stop = b.vvptr) : s.allocator.irx.free b.vvptr = .error .undefined := by
  have ne : c ≠ b := by
    rintro rfl
    exact (sound.start_lt memc).ne' shared
  rw [MapAllocator.free, sound.laid.find_shared memb memc ne shared]

/-- The host pointers of the other blocks are different. -/
lemma Sound.distinct {pre post : List Block} (sound : Sound s (pre ++ b :: post)) :
    ∀ c ∈ pre ++ post, c.vptr ≠ b.vptr := by
  intro c memc same
  have mem : b ∈ pre ++ b :: post := List.mem_append_right _ (.head _)
  have memc' : c ∈ pre ++ b :: post := sublist_around.subset memc
  rw [sound.same c memc', sound.same b mem] at same
  rcases sound.laid.row.separated memc' mem with rfl | before | before
  · have nodup := List.perm_middle.nodup_iff.1 sound.laid.nodes.of_map
    exact (List.nodup_cons.1 nodup).1 memc
  · exact before.2.1.ne same
  · exact before.2.1.ne' same

/-- A block that was freed leaves the allocator sound. -/
lemma Sound.freed (sound : Sound s bs) (live : b ∈ s.live) (ran : s.step (.free b) = .ok s') :
    ∃ bs', Sound s' bs' := by
  have mem := sound.live.mem_iff.2 live
  obtain ⟨a, freed, e⟩ := bind_eq_ok.1 ran
  cases e
  obtain ⟨irx, removed, e⟩ := bind_eq_ok.1 freed
  cases e
  have own : ∀ c ∈ bs, c.stop ≠ b.vvptr := by
    intro c memc shared
    cases removed.symm.trans (sound.free_shared mem memc shared)
  have alone := sound.alone mem le_rfl (sound.start_lt mem) fun _ => own
  cases removed.symm.trans (sound.laid.free mem alone (sound.complete b mem))
  obtain ⟨pre, post, rfl⟩ := List.append_of_mem mem
  have sub : pre ++ post ⊆ pre ++ b :: post := sublist_around.subset
  have held : ∀ c ∈ pre ++ post, c.holderNode ∈
      ((s.allocator.irx.disowned b).removed b).allocationsHolder := fun c memc =>
    List.mem_filter.2 ⟨sound.complete c (sub memc), decide_eq_true (sound.distinct c memc)⟩
  have moved := (List.perm_cons_erase live).symm.trans (sound.live.symm.trans List.perm_middle)
  exact ⟨pre ++ post, (sound.laid.disowned b).removed, moved.cons_inv.symm, held,
    fun c memc => sound.same c (sub memc), fun c memc => sound.positive c (sub memc),
    fun c memc => sound.low c (sub memc)⟩

end PageSession

/-- Every run is sound. -/
lemma page_sound {s : PageSession} (run : pageSessions.Outcome (.ok s)) : ∃ bs, s.Sound bs := by
  refine run.holds (P := fun s => ∃ bs, s.Sound bs) (E := fun _ => True) ⟨[], .start⟩ ?_
  rintro s op ⟨bs, sound⟩ allowed
  show Holds _ _ (s.step op)
  cases ran : s.step op with
  | error e => exact trivial
  | ok s' =>
    cases op with
    | malloc m size =>
      cases m with
      | none => cases ran
      | some m => exact (sound.malloc (allowed m rfl)).2 s' ran
    | free b => exact sound.freed allowed ran

/-- After any sequence of `malloc` and `free`, the start and every inner address of a live block translate
to the block and `free` of its start removes exactly this block, if and only if no live block ends where
it starts. -/
theorem page_block_iff {s : PageSession} (run : pageSessions.Outcome (.ok s)) {b : Block}
    (live : b ∈ s.live) :
    ((∀ k, b.vvptr ≤ k → k < b.vvptr + b.size →
        vvptr2vptr s.allocator.irx k = .ok (b.vptr + (k - b.vvptr))) ∧
      ∃ irx, s.allocator.free b.vvptr = .ok { s.allocator with irx := irx } ∧
        FreesExactly s.allocator.irx s.live b irx) ↔
      ∀ c ∈ s.live, c.stop ≠ b.vvptr := by
  obtain ⟨bs, sound⟩ := page_sound run
  have mem := sound.live.mem_iff.2 live
  constructor
  · rintro ⟨_, irx, _, exactly⟩ c livec shared
    have undefined := sound.free_shared mem (sound.live.mem_iff.2 livec) shared
    cases undefined.symm.trans exactly.freed
  · intro own
    have own' : ∀ c ∈ bs, c.stop ≠ b.vvptr := fun c memc => own c (sound.live.mem_iff.1 memc)
    constructor
    · intro k lo hi
      have low := sound.low b mem
      rw [Block.stop] at low
      have alone := sound.alone mem lo hi fun _ => own'
      rw [sound.laid.vvptr2vptr mem ⟨lo, hi.le⟩ alone (sound.complete b mem), sound.same b mem]
      exact congrArg Except.ok (word_of_lt (by omega))
    · have alone := sound.alone mem le_rfl (sound.start_lt mem) fun _ => own'
      obtain ⟨pre, post, rfl⟩ := List.append_of_mem mem
      have exactly := sound.laid.frees_exactly alone sound.complete sound.distinct
      refine ⟨_, bind_ok exactly.freed _, exactly.freed, exactly.start, exactly.stop, exactly.data, ?_⟩
      exact fun c livec => exactly.kept c (sound.live.mem_iff.2 livec)

/-- Two blocks, the second one in the page behind the first. -/
def neighbours (size : Nat) : PageSession :=
  (do
    let s ← PageSession.step {} (.malloc (some 0x40000000) size)
    s.step (.malloc (some 0x40001000) 96)).toOption.getD {}

/-- The first one of them. -/
def firstPage (size : Nat) : PageSession :=
  (PageSession.step {} (.malloc (some 0x40000000) size)).toOption.getD {}

/-- Two blocks on neighbouring pages are allowed. -/
lemma neighbours_run {size : Nat} (positive : 0 < size) (page : size ≤ 4096)
    (first : PageSession.step {} (.malloc (some 0x40000000) size) = .ok (firstPage size))
    (live : (firstPage size).live = [⟨0x40000000, 0x40000000, size, 0⟩])
    (second : (firstPage size).step (.malloc (some 0x40001000) 96) = .ok (neighbours size)) :
    pageSessions.Outcome (.ok (neighbours size)) := by
  have one : pageBytes size = 4096 := by
    rw [pageBytes]
    omega
  have before : pageSessions.Outcome (.ok (firstPage size)) := by
    refine Outcome.next .start (i := .malloc (some 0x40000000) size) (fun m' mem => ?_) first
    cases mem
    exact ⟨positive, by decide, by decide, by omega, fun b none => absurd none List.not_mem_nil⟩
  refine before.next (i := .malloc (some 0x40001000) 96) (fun m' mem => ?_) second
  cases mem
  refine ⟨by decide, by decide, by decide, by decide, ?_⟩
  rw [live]
  refine List.forall_mem_singleton.2 (.inl ?_)
  show 0x40000000 + pageBytes size ≤ 0x40001000
  omega

/-- The start of a block behind one of a hundred bytes. -/
theorem page_block_iff_short :
    vvptr2vptr (neighbours 100).allocator.irx 0x40001000 = .ok 0x40001000 := by
  have run := @neighbours_run 100 (by decide) (by decide) rfl rfl rfl
  have live : (neighbours 100).live =
      [⟨0x40000000, 0x40000000, 100, 0⟩, ⟨0x40001000, 0x40001000, 96, 1⟩] := rfl
  have apart : ∀ c ∈ (neighbours 100).live, c.stop ≠ 0x40001000 := by
    rw [live]
    decide
  have block := (page_block_iff run (b := ⟨0x40001000, 0x40001000, 96, 1⟩)
    (live ▸ .tail _ (.head _))).2 apart
  exact block.1 0x40001000 le_rfl (by decide)

/-- The start of a block behind one of a whole page translates to null, and `free` of it is undefined. -/
theorem page_start_lost :
    pageSessions.Outcome (.ok (neighbours 4096)) ∧
      (neighbours 4096).live =
        [⟨0x40000000, 0x40000000, 4096, 0⟩, ⟨0x40001000, 0x40001000, 96, 1⟩] ∧
      vvptr2vptr (neighbours 4096).allocator.irx 0x40001000 = .ok 0 ∧
      (neighbours 4096).allocator.free 0x40001000 = .error .undefined :=
  ⟨neighbours_run (by decide) (by decide) rfl rfl rfl, rfl, rfl, rfl⟩

end Irx.Memory
