import Irx.Memory.Destruction
import Irx.Memory.Functions

/-!
# The life of an interpreter

From `createInterpreter` over any calls of the API to `delete I`. The destructor `~MyInterpreter` undoes
`updateGlobalMappings`, and after it the allocator is destroyed with the other members. A `Life` records
which host blocks were obtained and which were released. `life_balanced` says what is left at the end: every
global has the address in the host that it had at the start, the allocator is empty, and the blocks obtained
were released one after the other, each once.
-/

namespace Irx.Memory
open Irx.Lib System

/-- The loop of `~MyInterpreter` over the globals. The one over the functions has no effect. -/
def restoreGlobals (a : MapAllocator) : List GlobalVariable → Except Abort (List GlobalVariable)
  | [] => .ok []
  | g :: gs =>
    if g.mapped then do
      let vptr ← a.vvptr2vptr g.pointer
      let gs ← restoreGlobals a gs
      .ok ((if vptr ≠ 0 then { g with pointer := vptr } else g) :: gs)
    else do
      let gs ← restoreGlobals a gs
      .ok (g :: gs)

/-- `delete I`: the globals as the execution engine has them after it, what the allocator releases, and the
allocator. -/
def MyInterpreter.delete (s : MyInterpreter) (fuel : Nat) :
    Except Abort (List GlobalVariable × List (Nat × Nat) × MapAllocator) := do
  let globals ← restoreGlobals s.allocator s.globals
  let (released, a) ← s.allocator.destroy fuel
  .ok (globals, released, a)

/-- What the loop of `resetExtraAllocations` releases. -/
def MapAllocator.releasesAll : List Nat → MapAllocator → Except Abort (List (Nat × Nat))
  | [], _ => .ok []
  | vvptr :: rest, a => do
    let a' ← a.free vvptr
    let released ← releasesAll rest a'
    .ok (a.releases vvptr ++ released)

/-- An interpreter and the record of its host blocks, each with its data record and its pointer. -/
structure Life where
  interpreter : MyInterpreter
  obtained : List (Nat × Nat) := []
  released : List (Nat × Nat) := []

/-- The record after the host answered a request. -/
def Life.obtain (l : Life) (vmem : Nat) (s : MyInterpreter) : Life :=
  { l with interpreter := s, obtained := l.obtained ++ [(l.interpreter.allocator.nextNode, vmem)] }

/-- A call, with what it obtains from the host. -/
def Life.step (M : Module) (l : Life) : Call → Except Abort Life
  | .structAlloc name vmem => do
    let (_, s) ← l.interpreter.structAlloc M name vmem
    .ok (l.obtain vmem s)
  | .malloc size vmem => do
    let (_, s) ← l.interpreter.malloc vmem size
    .ok (l.obtain vmem s)
  | .resetExtraAllocations => do
    let released ← MapAllocator.releasesAll l.interpreter.allocations l.interpreter.allocator
    let s ← l.interpreter.resetExtraAllocations
    .ok { l with interpreter := s, released := l.released ++ released }

/-- The interpreter with its record, driven by its API. -/
def lives (M : Module) : System Abort Life Call where
  start := (createInterpreter M).map fun s => ⟨s, [], []⟩
  step l c := l.step M c
  allowed l c := c.HostAllowed M l.interpreter

variable {M : Module} {base extra blocks : List Block} {mark : Nat} {l l' : Life} {s s' : MyInterpreter}
variable {A : AddressSpace} {a a' : MapAllocator} {b : Block} {gs gs' : List GlobalVariable}

/-! ### Addresses of the nodes -/

/-- Removing uses no new node. -/
lemma remove_nextNode {vvptr : Nat} (e : a.remove vvptr = .ok a') : a'.nextNode = a.nextNode := by
  rw [MapAllocator.remove] at e
  cases found : a.find vvptr with
  | none =>
    simp only [found] at e
    cases e
  | some alloc =>
    simp only [found] at e
    obtain ⟨_, _, e⟩ := bind_eq_ok.1 e
    cases e
    rfl

/-- Freeing uses no new node. -/
lemma free_nextNode {vvptr : Nat} (e : a.free vvptr = .ok a') : a'.nextNode = a.nextNode := by
  rw [MapAllocator.free] at e
  cases found : a.find vvptr with
  | none =>
    simp only [found] at e
    cases e
  | some alloc =>
    simp only [found] at e
    obtain ⟨data, _, e⟩ := bind_eq_ok.1 e
    split at e
    case isTrue => exact (remove_nextNode e :)
    case isFalse => exact remove_nextNode e

/-- Freeing all uses no new node. -/
lemma freeAll_nextNode {vvptrs : List Nat} (e : MyInterpreter.freeAll vvptrs a = .ok a') :
    a'.nextNode = a.nextNode := by
  induction vvptrs generalizing a with
  | nil =>
    cases e
    rfl
  | cons vvptr vvptrs ih =>
    obtain ⟨a1, freed, e⟩ := bind_eq_ok.1 e
    exact (ih e).trans (free_nextNode freed)

/-- A reset creates no node, and moves no global. -/
lemma reset_keeps (e : s.resetExtraAllocations = .ok s') :
    s'.allocator.nextNode = s.allocator.nextNode ∧ s'.globals = s.globals := by
  rw [MyInterpreter.resetExtraAllocations] at e
  obtain ⟨a1, freed, e⟩ := bind_eq_ok.1 e
  obtain ⟨a2, reset, e⟩ := bind_eq_ok.1 e
  cases e
  obtain ⟨vma, _, e⟩ := bind_eq_ok.1 reset
  cases e
  exact ⟨(freeAll_nextNode freed :), rfl⟩

/-- A request creates one node, and moves no global. -/
lemma malloc_keeps {vmem size : Nat} {alloc : IrxAlloc} (e : s.malloc vmem size = .ok (alloc, s')) :
    s'.allocator.nextNode = s.allocator.nextNode + 1 ∧ s'.globals = s.globals := by
  rw [MyInterpreter.malloc] at e
  obtain ⟨⟨alloc, a⟩, added, e⟩ := bind_eq_ok.1 e
  cases e
  refine ⟨?_, rfl⟩
  obtain ⟨⟨vvmem, vma⟩, _, added⟩ := bind_eq_ok.1 added
  dsimp only at added
  split at added
  case isTrue => cases added
  case isFalse =>
    cases added
    rfl

/-! ### What is released -/

namespace Represents

/-- What freeing a block releases. -/
lemma releases (r : Represents a A) (mem : b ∈ A.blocks) :
    a.releases b.vvptr = if b.vptr ∈ a.allocations then [b.release] else [] := by
  rw [MapAllocator.releases, r.find mem le_rfl (Nat.le_add_right _ _)]
  simp only [r.deref mem, MapAllocator.isInternalAllocated, List.contains_iff_mem]
  rfl

/-- The loop of `resetExtraAllocations` releases the extra blocks in their order. -/
lemma releasesAll (r : Represents a A) (split : A.blocks = base ++ extra)
    (ps : a.allocations = extra.map Block.vptr) :
    MapAllocator.releasesAll (extra.map Block.vvptr) a = .ok (extra.map Block.release) := by
  induction extra generalizing a A with
  | nil => rfl
  | cons b extra ih =>
    have mem : b ∈ A.blocks := split ▸ List.mem_append_right _ (.head _)
    obtain ⟨a1, freed, r1, ps1, _⟩ := r.free split
    have nodup := r.vptrs
    rw [split, List.map_append, List.nodup_append'] at nodup
    have rest : a1.allocations = extra.map Block.vptr := by
      have others : ([] ++ b :: extra).filter (fun c => c.vptr ≠ b.vptr) = [] ++ extra :=
        filter_ne_middle nodup.2.1
      rw [ps1, ps, List.filter_map]
      exact congrArg (List.map Block.vptr) others
    have first : a.releases b.vvptr = [b.release] := by
      rw [r.releases mem, ps]
      exact if_pos (.head _)
    refine (bind_ok freed _).trans ((bind_ok (ih r1 rfl rest) _).trans ?_)
    rw [first]
    rfl

/-- The destructor frees all blocks in the order of their addresses, and releases those that the allocator
has obtained. -/
lemma destroy (r : Represents a A) : ∃ a', (∀ k, a.destroy (k + A.blocks.length + 1) =
      .ok ((A.blocks.filter fun b => b.vptr ∈ a.allocations).map Block.release, a')) ∧
    a'.vvmemStart.entries = [] ∧ a'.vvmemEnd.entries = [] ∧ a'.allocationsHolder = [] := by
  induction all : A.blocks generalizing a A with
  | nil =>
    refine ⟨a, fun k => ?_, ?_, ?_, ?_⟩
    · rw [MapAllocator.destroy, r.start, all]
      rfl
    · rw [r.start, all]
      rfl
    · rw [r.stop, all]
      rfl
    · rw [r.holder, all]
      rfl
  | cons b rest ih =>
    have mem : b ∈ A.blocks := all ▸ List.mem_cons_self
    have front : A.blocks = [] ++ b :: rest := all
    obtain ⟨a1, freed, r1, ps1, _⟩ := r.free front
    obtain ⟨a', ends, empty⟩ := ih r1 rfl
    refine ⟨a', fun k => ?_, empty⟩
    have first : a.vvmemStart.entries = (b.vvptr, b.node) :: rest.map (fun b => (b.vvptr, b.node)) :=
      r.start.trans (by rw [all]; rfl)
    have nodup := r.vptrs
    rw [all, List.map_cons, List.nodup_cons] at nodup
    -- no other block has the pointer that is taken off the list
    have same : (rest.filter fun c => c.vptr ∈ a1.allocations) =
        rest.filter fun c => c.vptr ∈ a.allocations := by
      refine List.filter_congr fun c memc => decide_eq_decide.2 ?_
      have other : c.vptr ≠ b.vptr := fun e => nodup.1 (e ▸ List.mem_map_of_mem memc)
      rw [ps1, List.mem_filter, decide_eq_true_iff, and_iff_left other]
    rw [MapAllocator.destroy, first]
    refine (bind_ok freed _).trans ((bind_ok (ends k) _).trans ?_)
    rw [same, r.releases mem]
    by_cases obtained : b.vptr ∈ a.allocations
    · rw [if_pos obtained, List.filter_cons_of_pos (by simpa using obtained)]
      rfl
    · rw [if_neg obtained, List.filter_cons_of_neg (by simpa using obtained)]
      rfl

/-- The globals that were moved to their blocks go back to the memory of these. -/
lemma restoreGlobals (r : Represents a A) (sub : blocks ⊆ A.blocks)
    (moved : List.Forall₂ (Moved blocks) gs gs') : Memory.restoreGlobals a gs' = .ok gs := by
  induction moved with
  | nil => rfl
  | @cons g g' gs gs' here _ ih =>
    rw [Memory.restoreGlobals]
    cases here with
    | unmapped unmapped =>
      rw [unmapped, if_neg Bool.false_ne_true]
      exact bind_ok ih _
    | @mapped b mapped memb vptr _ =>
      have low := A.above b (sub memb)
      have positive : 0 < startAddr := by decide
      have nonnull : b.vvptr ≠ 0 := (positive.trans_le low).ne'
      have mapped' : ({ g with pointer := b.vvptr } : GlobalVariable).mapped = true := by
        rw [GlobalVariable.mapped, Bool.and_eq_true] at mapped ⊢
        exact ⟨mapped.1, bne_iff_ne.2 nonnull⟩
      rw [mapped', if_pos rfl]
      refine (bind_ok (r.vvptr2vptr_start (sub memb)) _).trans ((bind_ok ih _).trans ?_)
      rw [if_pos (r.nonnull b (sub memb)), vptr]

end Represents

/-! ### Lives -/

/-- The blocks below the frozen address are those of the globals and functions, and the blocks obtained are
those released and, behind them, the extra ones. -/
structure Life.Recorded (M : Module) (l : Life) (base : List Block) (mark : Nat) (A : AddressSpace)
    (extra : List Block) : Prop where
  inv : Invariant base mark l.interpreter A extra
  moved : List.Forall₂ (Moved base) M.globals l.interpreter.globals
  functions : ∀ f ∈ M.functions, f.mapped = true → ∃ b ∈ base, b.vptr = f.address
  balance : l.obtained = l.released ++ extra.map Block.release
  before : ∀ r ∈ l.obtained, r.1 < l.interpreter.allocator.nextNode
  once : (l.obtained.map Prod.fst).Nodup
  foreign : ∀ b ∈ base, b.vptr ∉ l.obtained.map Prod.snd

/-- Every global was moved. -/
lemma moved_of_mem {g : GlobalVariable} (moved : List.Forall₂ (Moved blocks) gs gs') (mem : g ∈ gs) :
    ∃ g', Moved blocks g g' := by
  induction moved with
  | nil => cases mem
  | cons here _ ih =>
    obtain rfl | later := List.mem_cons.1 mem
    · exact ⟨_, here⟩
    · exact ih later

/-- At the start nothing was obtained. -/
lemma Life.Recorded.start (e : createInterpreter M = .ok s) :
    ∃ base mark A extra, Life.Recorded M ⟨s, [], []⟩ base mark A extra := by
  obtain full | ⟨s', A, e', inv, moved⟩ := createInterpreter_spec M
  · cases e.symm.trans full
  · cases e.symm.trans e'
    refine ⟨A.blocks, A.bump, A, [], inv, moved, fun f mem mapped => ?_, rfl, List.forall_mem_nil _,
      .nil, fun _ _ => List.not_mem_nil⟩
    rw [createInterpreter] at e
    obtain ⟨⟨gs, a1⟩, _, e⟩ := bind_eq_ok.1 e
    obtain ⟨a2, mappedAll, e⟩ := bind_eq_ok.1 e
    cases e
    obtain ⟨n, memn, address⟩ := (mapFunctions_holder mappedAll).2 f mem mapped
    have holder : a2.allocationsHolder = A.blocks.map Block.holderNode := inv.rep.holder
    rw [holder] at memn
    obtain ⟨b, memb, rfl⟩ := List.mem_map.1 memn
    exact ⟨b, memb, address⟩

namespace Life.Recorded

/-- What was allocated is recorded. -/
lemma malloc (rec : l.Recorded M base mark A extra) {vmem size : Nat} {alloc : IrxAlloc}
    (host : HostGives l.interpreter.allocator vmem size)
    (e : l.interpreter.malloc vmem size = .ok (alloc, s)) :
    ∃ A' extra', (l.obtain vmem s).Recorded M base mark A' extra' := by
  obtain ⟨nextNode, globals⟩ := malloc_keeps e
  obtain ⟨_, full⟩ | ⟨room, s', e', inv⟩ := rec.inv.malloc host
  · cases e.symm.trans full
  · cases e.symm.trans e'
    refine ⟨_, _, inv, ?_, rec.functions, ?_, ?_, ?_, ?_⟩
    case refine_1 => exact globals ▸ rec.moved
    case refine_2 =>
      rw [Life.obtain, rec.balance, List.map_append, List.append_assoc]
      rfl
    case refine_3 =>
      show ∀ r ∈ l.obtained ++ [(l.interpreter.allocator.nextNode, vmem)], r.1 < s.allocator.nextNode
      rw [nextNode]
      exact forall_mem_snoc (fun r mem => Nat.lt_succ_of_lt (rec.before r mem)) (Nat.lt_succ_self _)
    case refine_4 => exact nodup_map_snoc rec.once fun r mem => (rec.before r mem).ne
    case refine_5 =>
      intro b mem there
      rw [Life.obtain, List.map_append, List.mem_append] at there
      obtain older | new := there
      · exact rec.foreign b mem older
      · -- the host gives no memory that a global or a function has
        have held := rec.inv.rep.held (rec.inv.blocks ▸ List.mem_append_left extra mem)
        exact host.distinct _ held (List.mem_singleton.1 new)

/-- What was released is recorded. -/
lemma reset (rec : l.Recorded M base mark A extra) {released : List (Nat × Nat)}
    (freed : MapAllocator.releasesAll l.interpreter.allocations l.interpreter.allocator = .ok released)
    (e : l.interpreter.resetExtraAllocations = .ok s) :
    ∃ A', Life.Recorded M { l with interpreter := s, released := l.released ++ released } base mark A'
      [] := by
  obtain ⟨nextNode, globals⟩ := reset_keeps e
  obtain ⟨s', A', e', _, _, inv⟩ := rec.inv.reset
  cases e.symm.trans e'
  have all := rec.inv.rep.releasesAll rec.inv.blocks rec.inv.hostPointers
  rw [← rec.inv.allocations] at all
  cases freed.symm.trans all
  refine ⟨A', inv, globals ▸ rec.moved, rec.functions, ?_, ?_, rec.once, rec.foreign⟩
  · rw [List.map_nil, List.append_nil]
    exact rec.balance
  · show ∀ r ∈ l.obtained, r.1 < s.allocator.nextNode
    rw [nextNode]
    exact rec.before

/-- Every call is recorded. -/
lemma step (rec : l.Recorded M base mark A extra) {c : Call} (host : c.HostAllowed M l.interpreter)
    (e : l.step M c = .ok l') : ∃ A' extra', l'.Recorded M base mark A' extra' := by
  cases c with
  | structAlloc name vmem =>
    obtain ⟨⟨alloc, s⟩, served, e⟩ := bind_eq_ok.1 e
    cases e
    exact rec.malloc host served
  | malloc size vmem =>
    obtain ⟨⟨alloc, s⟩, served, e⟩ := bind_eq_ok.1 e
    cases e
    exact rec.malloc host served
  | resetExtraAllocations =>
    obtain ⟨released, freed, e⟩ := bind_eq_ok.1 e
    obtain ⟨s, reset, e⟩ := bind_eq_ok.1 e
    cases e
    obtain ⟨A', rec'⟩ := rec.reset freed reset
    exact ⟨A', [], rec'⟩

/-- The destructor releases what is left. -/
lemma delete (rec : l.Recorded M base mark A extra) : ∃ a', Settles (fun fuel => l.interpreter.delete fuel)
      (M.globals, extra.map Block.release, a') ∧
    a'.vvmemStart.entries = [] ∧ a'.vvmemEnd.entries = [] ∧ a'.allocationsHolder = [] := by
  have r := rec.inv.rep
  have sub : base ⊆ A.blocks := by
    rw [rec.inv.blocks]
    exact List.subset_append_left _ _
  obtain ⟨a', ends, empty⟩ := r.destroy
  refine ⟨a', ⟨A.blocks.length + 1, fun fuel le => ?_⟩, empty⟩
  obtain ⟨k, rfl⟩ := Nat.exists_eq_add_of_le' le
  have nodup := r.vptrs
  rw [rec.inv.blocks, List.map_append, List.nodup_append'] at nodup
  have left : (A.blocks.filter fun b => b.vptr ∈ l.interpreter.allocator.allocations) = extra := by
    rw [rec.inv.blocks, rec.inv.hostPointers, List.filter_append, List.filter_eq_nil_iff.2,
      List.filter_eq_self.2, List.nil_append]
    · exact fun b mem => decide_eq_true (List.mem_map_of_mem mem)
    · intro b mem
      rw [decide_eq_true_iff]
      exact nodup.2.2 (List.mem_map_of_mem mem)
  refine (bind_ok (r.restoreGlobals sub rec.moved) _).trans ((bind_ok (ends k) _).trans ?_)
  rw [left]

end Life.Recorded

/-- However an interpreter was used, its deletion returns. Every global then has the address in the host
that it had before `updateGlobalMappings`, and the allocator is empty. The host blocks obtained over the
whole life are released in the order in which they were obtained, each once, and none of them is the memory
of a global or a function. -/
theorem life_balanced {M : Module} {l : Life} (run : (lives M).Outcome (.ok l)) :
    ∃ released a', Settles (fun fuel => l.interpreter.delete fuel) (M.globals, released, a') ∧
      a'.vvmemStart.entries = [] ∧ a'.vvmemEnd.entries = [] ∧ a'.allocationsHolder = [] ∧
      l.released ++ released = l.obtained ∧ (l.obtained.map Prod.fst).Nodup ∧
      (∀ g ∈ M.globals, g.mapped = true → g.pointer ∉ l.obtained.map Prod.snd) ∧
      ∀ f ∈ M.functions, f.mapped = true → f.address ∉ l.obtained.map Prod.snd := by
  have holds := run.holds (P := fun l => ∃ base mark A extra, l.Recorded M base mark A extra)
    (E := fun _ => True) ?_ ?_
  · obtain ⟨base, mark, A, extra, rec⟩ := holds
    obtain ⟨a', ends, start, stop, holder⟩ := rec.delete
    refine ⟨_, a', ends, start, stop, holder, rec.balance.symm, rec.once, fun g mem mapped => ?_,
      fun f mem mapped => ?_⟩
    · obtain ⟨g', here⟩ := moved_of_mem rec.moved mem
      cases here with
      | unmapped unmapped => cases mapped.symm.trans unmapped
      | mapped _ memb vptr _ => exact vptr ▸ rec.foreign _ memb
    · obtain ⟨b, memb, address⟩ := rec.functions f mem mapped
      exact address ▸ rec.foreign b memb
  · show Holds _ _ ((createInterpreter M).map fun s => (⟨s, [], []⟩ : Life))
    cases e : createInterpreter M with
    | error => trivial
    | ok s => exact Life.Recorded.start e
  · rintro l c ⟨base, mark, A, extra, rec⟩ host
    show Holds _ _ (l.step M c)
    cases e : l.step M c with
    | error => trivial
    | ok l' =>
      obtain ⟨A', extra', rec'⟩ := rec.step host e
      exact ⟨base, mark, A', extra', rec'⟩

/-- The record of the interpreter after one `structAlloc`. -/
def dlistLife : Life := ⟨dlistState, [(3, 0x7f0000004000)], []⟩

/-- The life is a run. -/
lemma dlistLife_run : (lives dlistModule).Outcome (.ok dlistLife) := by
  have host : ∀ l, (lives dlistModule).start = .ok l →
      HostGives l.interpreter.allocator 0x7f0000004000 96 := by
    intro l e
    cases e
    exact ⟨by decide, by decide, by decide, by decide⟩
  exact Outcome.step (S := lives dlistModule) (i := .structAlloc "struct.k_thread" 0x7f0000004000)
    .start (host _ rfl)

/-- The destructor releases the thread, and the array is where it was. -/
theorem life_balanced_dlist : ∃ released a',
    Settles (fun fuel => dlistLife.interpreter.delete fuel) (dlistModule.globals, released, a') ∧
      a'.allocationsHolder = [] ∧ released = [(3, 0x7f0000004000)] := by
  obtain ⟨released, a', ends, _, _, holder, balance, _⟩ := life_balanced dlistLife_run
  exact ⟨released, a', ends, holder, balance⟩

end Irx.Memory
