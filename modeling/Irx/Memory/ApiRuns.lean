import Irx.Memory.AddressSpace

/-!
# Runs of the memory API

What `createInterpreter`, `malloc`, `structAlloc` and `resetExtraAllocations` do to the represented
address space. Between two calls the blocks are the base blocks of the globals and functions followed
by the extra blocks the interpreter has listed, and the freeze stack holds the one address that
separates them (`Invariant`). Each operation is described once (`Invariant.malloc`,
`Invariant.reset`); `outcome_invariant` is the induction over runs.

`allocator_consistent` spells the result out in the terms of the two maps, and `translate_live` is the
translation of addresses in a live block.
-/

namespace Irx.Memory
open Irx.Lib System

/-- The state between two calls: the base blocks below the frozen address, then the extra blocks. -/
structure Invariant (base : List Block) (mark : Nat) (s : MyInterpreter) (A : AddressSpace)
    (extra : List Block) : Prop where
  rep : Represents s.allocator A
  blocks : A.blocks = base ++ extra
  allocations : s.allocations = extra.map Block.vvptr
  hostPointers : s.allocator.allocations = extra.map Block.vptr
  frozen : s.allocator.vma.freezeStack = [mark]
  base_lt : ∀ b ∈ base, b.stop < mark
  start_le : startAddr ≤ mark
  mark_le : mark ≤ A.bump

variable {M : Module} {base extra : List Block} {mark : Nat} {s : MyInterpreter} {A : AddressSpace}
variable {a : MapAllocator}

/-! ## Creation -/

/-- New memory for which there is room can be given. -/
lemma Represents.hostGives (r : Represents a A) {vptr size : Nat} (nonnull : vptr ≠ 0)
    (small : size < 9223372036854775808) (fits : vptr + size < 18446744073709551616)
    (new : vptr ∉ A.blocks.map Block.vptr) : HostGives a vptr size := by
  refine ⟨nonnull, small, fits, ?_⟩
  rw [r.holder]
  intro n hn e
  obtain ⟨c, hc, rfl⟩ := List.mem_map.1 hn
  exact new (e ▸ List.mem_map_of_mem (f := Block.vptr) hc)

/-- A global before and after `updateGlobalMappings`: if it has memory it is moved to the block of it. -/
inductive Moved (blocks : List Block) (g : GlobalVariable) : GlobalVariable → Prop where
  | mapped {b} : g.mapped = true → b ∈ blocks → b.vptr = g.pointer → b.size = g.allocSize →
    Moved blocks g { g with pointer := b.vvptr }
  | unmapped : g.mapped = false → Moved blocks g g

/-- A global in one of some blocks is in one of more. -/
lemma Moved.mono {blocks blocks' : List Block} {g g' : GlobalVariable} (moved : Moved blocks g g')
    (sub : blocks ⊆ blocks') : Moved blocks' g g' := by
  cases moved with
  | mapped mapped mem vptr size => exact .mapped mapped (sub mem) vptr size
  | unmapped unmapped => exact .unmapped unmapped

/-- Adding a mapped object: the result when there is room, in the form both loops use. -/
lemma Represents.add_object (r : Represents a A) {vptr size : Nat} {rest : List Nat}
    (nonnull : vptr ≠ 0) (small : size < 9223372036854775808)
    (fits : vptr + size < 18446744073709551616)
    (nd : (A.blocks.map Block.vptr ++ vptr :: rest).Nodup) :
    a.add vptr size = .error .exhausted ∨
    ∃ (alloc : IrxAlloc) (a' : MapAllocator) (A' : AddressSpace),
      a.add vptr size = .ok (alloc, a') ∧ Represents a' A' ∧
      a'.allocations = a.allocations ∧ a'.vma.freezeStack = a.vma.freezeStack ∧
      (A'.blocks.map Block.vptr ++ rest).Nodup ∧ A.blocks ⊆ A'.blocks ∧
      ∃ b ∈ A'.blocks, b.vptr = vptr ∧ b.size = size ∧ b.vvptr = alloc.vvptr := by
  have new : vptr ∉ A.blocks.map Block.vptr := by
    intro mem
    exact (List.nodup_append'.1 nd).2.2 mem List.mem_cons_self
  rcases r.add (r.hostGives nonnull small fits new) with ⟨_, e⟩ | ⟨room, a', e, r', ps, st⟩
  · exact .inl e
  · refine .inr ⟨_, a', _, e, r', ps, st, ?_, ?_⟩
    · rw [AddressSpace.grow_blocks, List.map_append, List.append_assoc]
      exact nd
    · rw [AddressSpace.grow_blocks]
      exact ⟨List.subset_append_left _ _, _, List.mem_append_right _ (.head _), rfl, rfl, rfl⟩

/-- The loop over the globals keeps a represented allocator and moves the globals. -/
lemma mapGlobals_spec {gs : List GlobalVariable} {rest : List Nat} (r : Represents a A)
    (fits : ∀ g ∈ gs, g.mapped = true →
      g.allocSize < 9223372036854775808 ∧ g.pointer + g.allocSize < 18446744073709551616)
    (nd : (A.blocks.map Block.vptr ++
      ((gs.filter GlobalVariable.mapped).map GlobalVariable.pointer ++ rest)).Nodup) :
    mapGlobals gs a = .error .exhausted ∨
    ∃ (gs' : List GlobalVariable) (a' : MapAllocator) (A' : AddressSpace),
      mapGlobals gs a = .ok (gs', a') ∧ Represents a' A' ∧
      a'.allocations = a.allocations ∧ a'.vma.freezeStack = a.vma.freezeStack ∧
      (A'.blocks.map Block.vptr ++ rest).Nodup ∧ A.blocks ⊆ A'.blocks ∧
      List.Forall₂ (Moved A'.blocks) gs gs' := by
  -- the host pointers still to come stay apart from those of the space
  induction gs generalizing a A with
  | nil => exact .inr ⟨[], a, A, rfl, r, rfl, rfl, nd, List.Subset.refl _, .nil⟩
  | cons g gs ih =>
    have fits' := fun x hx => fits x (List.mem_cons_of_mem g hx)
    rw [mapGlobals]
    cases m : g.mapped with
    | false =>
      rw [List.filter_cons_of_neg (by simp [m])] at nd
      rw [if_neg Bool.false_ne_true]
      rcases ih r fits' nd with e | ⟨gs', a', A', e, r', ps', st', nd', sub, moved⟩
      · exact .inl (bind_error e _)
      · exact .inr ⟨g :: gs', a', A', bind_ok e _, r', ps', st', nd', sub, .cons (.unmapped m) moved⟩
    | true =>
      rw [List.filter_cons_of_pos m, List.map_cons, List.cons_append] at nd
      rw [if_pos rfl]
      obtain ⟨small, fit⟩ := fits g List.mem_cons_self m
      have nonnull : g.pointer ≠ 0 := by
        simp only [GlobalVariable.mapped, Bool.and_eq_true, bne_iff_ne] at m
        exact m.2
      rcases r.add_object nonnull small fit nd with
        e | ⟨alloc, a1, A1, e, r1, ps1, st1, nd1, sub1, b, memb, vptr, size, vvptr⟩
      · exact .inl (bind_error e _)
      · rcases ih r1 fits' nd1 with e' | ⟨gs', a', A', e', r', ps', st', nd', sub', moved⟩
        · exact .inl ((bind_ok e _).trans (bind_error e' _))
        · refine .inr ⟨{ g with pointer := alloc.vvptr } :: gs', a', A',
            (bind_ok e _).trans (bind_ok e' _), r', ps'.trans ps1, st'.trans st1, nd',
            List.Subset.trans sub1 sub', .cons ?_ moved⟩
          rw [← vvptr]
          exact .mapped m (sub' memb) vptr size

/-- Every function gets a block. -/
lemma mapFunctions_spec {fs : List Function} (r : Represents a A)
    (fits : ∀ f ∈ fs, f.mapped = true → f.address + 1 < 18446744073709551616)
    (nd : (A.blocks.map Block.vptr ++ (fs.filter Function.mapped).map Function.address).Nodup) :
    mapFunctions fs a = .error .exhausted ∨
    ∃ (a' : MapAllocator) (A' : AddressSpace), mapFunctions fs a = .ok a' ∧ Represents a' A' ∧
      a'.allocations = a.allocations ∧ a'.vma.freezeStack = a.vma.freezeStack ∧
      A.blocks ⊆ A'.blocks := by
  induction fs generalizing a A with
  | nil => exact .inr ⟨a, A, rfl, r, rfl, rfl, List.Subset.refl _⟩
  | cons f fs ih =>
    have fits' := fun x hx => fits x (List.mem_cons_of_mem f hx)
    rw [mapFunctions]
    cases m : f.mapped with
    | false =>
      rw [List.filter_cons_of_neg (by simp [m])] at nd
      rw [if_neg Bool.false_ne_true]
      exact ih r fits' nd
    | true =>
      rw [List.filter_cons_of_pos m, List.map_cons] at nd
      rw [if_pos rfl]
      have fit := fits f List.mem_cons_self m
      have nonnull : f.address ≠ 0 := by
        simp only [Function.mapped, Bool.and_eq_true, bne_iff_ne] at m
        exact m.2
      rcases r.add_object nonnull (by decide) fit nd with
        e | ⟨alloc, a1, A1, e, r1, ps1, st1, nd1, sub1, _⟩
      · exact .inl (bind_error e _)
      · rcases ih r1 fits' nd1 with e' | ⟨a', A', e', r', ps', st', sub'⟩
        · exact .inl ((bind_ok e _).trans e')
        · exact .inr ⟨a', A', (bind_ok e _).trans e', r', ps'.trans ps1, st'.trans st1,
            List.Subset.trans sub1 sub'⟩

/-- `createInterpreter` runs out of addresses or moves the globals and establishes the invariant without
extra blocks. -/
lemma createInterpreter_spec (M : Module) :
    createInterpreter M = .error .exhausted ∨
    ∃ (s : MyInterpreter) (A : AddressSpace), createInterpreter M = .ok s ∧
      Invariant A.blocks A.bump s A [] ∧ List.Forall₂ (Moved A.blocks) M.globals s.globals := by
  rw [createInterpreter]
  rcases mapGlobals_spec Represents.empty M.fits M.distinct with
    e | ⟨gs, a, A, e, r, ps, st, nd, _, moved⟩
  · exact .inl (bind_error e _)
  · rcases mapFunctions_spec r M.fits_function nd with e' | ⟨a', A', e', r', ps', st', sub⟩
    · exact .inl ((bind_ok e _).trans (bind_error e' _))
    · refine .inr ⟨⟨a'.freeze, [], gs⟩, A', (bind_ok e _).trans (bind_ok e' _), ?_,
        moved.imp fun _ _ moved => moved.mono sub⟩
      exact {
        rep := r'.freeze
        blocks := (List.append_nil _).symm
        allocations := rfl
        hostPointers := ps'.trans ps
        frozen := congrArg₂ List.cons r'.bump (st'.trans st)
        base_lt := A'.below
        start_le := A'.start_le
        mark_le := le_rfl }

/-! ## Calls -/

namespace Invariant

/-- `malloc` runs out of addresses or lists one more extra block at the bump address. -/
lemma malloc (inv : Invariant base mark s A extra) {vmem size : Nat}
    (host : HostGives s.allocator vmem size) :
    (¬ A.bump + stride size ≤ endAddr ∧ s.malloc vmem size = .error .exhausted) ∨
    ∃ (room : A.bump + stride size ≤ endAddr) (s' : MyInterpreter),
      s.malloc vmem size = .ok (⟨A.bump, vmem, size⟩, s') ∧
      Invariant base mark s' (A.grow vmem size s.allocator.nextNode room)
        (extra ++ [⟨A.bump, vmem, size, s.allocator.nextNode⟩]) := by
  have rep := inv.rep.withAllocations (s.allocator.allocations ++ [vmem])
  rcases rep.add ⟨host.nonnull, host.small, host.fits, host.distinct⟩ with
    ⟨full, e⟩ | ⟨room, a', e, r, ps, st⟩
  · exact .inl ⟨full, bind_error e _⟩
  · refine .inr ⟨room, _, bind_ok e _, ?_⟩
    exact {
      rep := r
      blocks := by rw [AddressSpace.grow_blocks, inv.blocks, List.append_assoc]
      allocations := by rw [inv.allocations, List.map_append]; rfl
      hostPointers := by rw [ps, inv.hostPointers, List.map_append]; rfl
      frozen := st.trans inv.frozen
      base_lt := inv.base_lt
      start_le := inv.start_le
      mark_le := Nat.le_add_right_of_le inv.mark_le }

/-- The loop of `resetExtraAllocations` frees exactly the extra blocks. -/
lemma freeAll (r : Represents a A) (blocks : A.blocks = base ++ extra)
    (ps : a.allocations = extra.map Block.vptr) :
    ∃ (a' : MapAllocator) (A' : AddressSpace),
      MyInterpreter.freeAll (extra.map Block.vvptr) a = .ok a' ∧ Represents a' A' ∧
      A'.blocks = base ∧ A'.bump = A.bump ∧ a'.allocations = [] ∧ a'.vma = a.vma := by
  induction extra generalizing a A with
  | nil => exact ⟨a, A, rfl, r, blocks.trans (List.append_nil _), rfl, ps, rfl⟩
  | cons b extra ih =>
    obtain ⟨a1, e1, r1, ps1, vma1⟩ := r.free blocks
    have nd := r.vptrs
    rw [blocks, List.map_append, List.nodup_append'] at nd
    have rest : a1.allocations = extra.map Block.vptr := by
      have others : ([] ++ b :: extra).filter (fun c => c.vptr ≠ b.vptr) = [] ++ extra :=
        filter_ne_middle nd.2.1
      rw [ps1, ps, List.filter_map]
      exact congrArg (List.map Block.vptr) others
    obtain ⟨a', A', e', r', blocks', bump', ps', vma'⟩ := ih r1 rfl rest
    exact ⟨a', A', (bind_ok e1 _).trans e', r', blocks', bump', ps', vma'.trans vma1⟩

/-- `resetExtraAllocations` always succeeds and goes back to the base blocks and the frozen
address. -/
lemma reset (inv : Invariant base mark s A extra) :
    ∃ (s' : MyInterpreter) (A' : AddressSpace), s.resetExtraAllocations = .ok s' ∧
      A'.blocks = base ∧ A'.bump = mark ∧ Invariant base mark s' A' [] := by
  obtain ⟨a1, A1, e1, r1, blocks1, bump1, ps1, vma1⟩ :=
    freeAll inv.rep inv.blocks inv.hostPointers
  have frozen1 : a1.vma.freezeStack = [mark] := by rw [vma1, inv.frozen]
  have clear : ∀ b ∈ A1.blocks, b.stop < mark := by
    rw [blocks1]
    exact inv.base_lt
  have upper : mark ≤ A1.bump := bump1.symm ▸ inv.mark_le
  obtain ⟨a2, e2, r2, ps2, vma2⟩ := r1.reset frozen1 inv.start_le upper clear
  refine ⟨{ s with allocator := a2.freeze, allocations := [] },
    A1.rewind mark inv.start_le upper clear, ?_, blocks1, rfl, ?_⟩
  · rw [MyInterpreter.resetExtraAllocations, inv.allocations]
    exact (bind_ok e1 _).trans (bind_ok e2 _)
  · exact {
      rep := r2.freeze
      blocks := blocks1.trans (List.append_nil _).symm
      allocations := rfl
      hostPointers := ps2.trans ps1
      frozen := by
        change a2.vma.lastAllocAddr :: a2.vma.freezeStack = [mark]
        rw [vma2]
      base_lt := inv.base_lt
      start_le := inv.start_le
      mark_le := le_rfl }

end Invariant

/-- After any finite run the invariant holds over base blocks as they were created, unless the run ended
for want of addresses. -/
lemma outcome_base {o : Except Abort MyInterpreter} {Q : List Block → Prop}
    (run : (api M).Outcome o)
    (created : ∀ s A, createInterpreter M = .ok s → Invariant A.blocks A.bump s A [] → Q A.blocks) :
    Holds (fun s => ∃ base mark A extra, Q base ∧ Invariant base mark s A extra)
      (fun e => e = .exhausted) o := by
  refine run.holds ?_ ?_
  · change Holds _ _ (createInterpreter M)
    rcases createInterpreter_spec M with e | ⟨s, A, e, inv, _⟩
    · rw [e]
      rfl
    · have kept := created s A e inv
      rw [e]
      exact ⟨A.blocks, A.bump, A, [], kept, inv⟩
  · rintro s c ⟨base, mark, A, extra, kept, inv⟩ host
    change Holds _ _ (c.run M s)
    have allocated : ∀ vmem size, HostGives s.allocator vmem size →
        Holds (fun s => ∃ base mark A extra, Q base ∧ Invariant base mark s A extra)
          (fun e => e = .exhausted) ((s.malloc vmem size).map Prod.snd) := by
      intro vmem size host
      rcases inv.malloc host with ⟨_, e⟩ | ⟨room, s', e, inv'⟩
      · rw [e]
        rfl
      · rw [e]
        exact ⟨base, mark, _, _, kept, inv'⟩
    cases c with
    | structAlloc name vmem => exact allocated vmem (M.structSize name) host
    | malloc size vmem => exact allocated vmem size host
    | resetExtraAllocations =>
      obtain ⟨s', A', e, _, _, inv'⟩ := inv.reset
      change Holds _ _ s.resetExtraAllocations
      rw [e]
      exact ⟨base, mark, A', [], kept, inv'⟩

/-- After any finite run the invariant holds, unless the run ended for want of addresses. -/
lemma outcome_invariant {o : Except Abort MyInterpreter} (run : (api M).Outcome o) :
    Holds (fun s => ∃ base mark A extra, Invariant base mark s A extra)
      (fun e => e = .exhausted) o := by
  have holds := outcome_base (Q := fun _ => True) run fun _ _ _ _ => trivial
  cases o with
  | error e => exact holds
  | ok s =>
    obtain ⟨base, mark, A, extra, _, inv⟩ := holds
    exact ⟨base, mark, A, extra, inv⟩

/-! ## The invariant in terms of the maps -/

/-- A live block: an entry of the start map together with the data it points to. -/
def MapAllocator.Live (a : MapAllocator) (b : Block) : Prop :=
  (b.vvptr, b.node) ∈ a.vvmemStart.entries ∧ a.deref b.node = .ok ⟨b.vptr, b.size⟩

/-- The two maps pair up through shared allocation data, and the closed ranges of the live blocks are
disjoint, inside the interpreter's range and below the bump address. -/
structure MapAllocator.Consistent (a : MapAllocator) : Prop where
  sameLength : a.vvmemStart.entries.length = a.vvmemEnd.entries.length
  nodesDistinct : (a.vvmemStart.entries.map Prod.snd).Nodup
  startPaired : ∀ e ∈ a.vvmemStart.entries, ∃ data,
    a.deref e.2 = .ok data ∧ (e.1 + data.size, e.2) ∈ a.vvmemEnd.entries
  endPaired : ∀ e ∈ a.vvmemEnd.entries, ∃ data vvptr,
    a.deref e.2 = .ok data ∧ e.1 = vvptr + data.size ∧ (vvptr, e.2) ∈ a.vvmemStart.entries
  disjoint : ∀ b c, a.Live b → a.Live c → b ≠ c →
    Disjoint (Set.Icc b.vvptr b.stop) (Set.Icc c.vvptr c.stop)
  inside : ∀ b, a.Live b → startAddr ≤ b.vvptr ∧ b.stop ≤ endAddr
  below : ∀ b, a.Live b → b.stop < a.vma.lastAllocAddr

namespace Represents

/-- The live blocks are those of the address space. -/
lemma live_iff (r : Represents a A) {b : Block} : a.Live b ↔ b ∈ A.blocks := by
  constructor
  · rintro ⟨mem, data⟩
    rw [r.start] at mem
    obtain ⟨c, hc, e⟩ := List.mem_map.1 mem
    obtain ⟨vvptr, vptr, size, node⟩ := b
    cases e
    rw [r.deref hc] at data
    cases data
    exact hc
  · intro hb
    refine ⟨?_, r.deref hb⟩
    rw [r.start]
    exact List.mem_map_of_mem (f := fun b => (b.vvptr, b.node)) hb

/-- The allocator is consistent. -/
lemma consistent (r : Represents a A) : a.Consistent where
  sameLength := by rw [r.start, r.stop, List.length_map, List.length_map]
  nodesDistinct := by
    rw [r.start, List.map_map]
    exact r.nodes
  startPaired := by
    rw [r.start, r.stop, List.forall_mem_map]
    exact fun b hb => ⟨⟨b.vptr, b.size⟩, r.deref hb,
      List.mem_map_of_mem (f := fun b => (b.stop, b.node)) hb⟩
  endPaired := by
    rw [r.start, r.stop, List.forall_mem_map]
    exact fun b hb => ⟨⟨b.vptr, b.size⟩, b.vvptr, r.deref hb, rfl,
      List.mem_map_of_mem (f := fun b => (b.vvptr, b.node)) hb⟩
  disjoint b c hb hc := A.chain.disjoint (r.live_iff.1 hb) (r.live_iff.1 hc)
  inside b hb := ⟨A.above b (r.live_iff.1 hb), (r.stop_lt (r.live_iff.1 hb)).le⟩
  below b hb := by
    rw [r.bump]
    exact A.below b (r.live_iff.1 hb)

/-- An address of a block, its end included, translates into the host memory of the block. -/
lemma vvptr2vptr_inside (r : Represents a A) {b : Block} (hb : b ∈ A.blocks) {k : Nat}
    (lo : b.vvptr ≤ k) (hi : k ≤ b.stop) : vvptr2vptr a k = .ok (b.vptr + (k - b.vvptr)) := by
  have host := r.host b hb
  rw [vvptr2vptr, if_pos (r.has hb lo hi), MapAllocator.vvptr2vptr, r.find hb lo hi]
  refine (bind_ok (r.deref hb) _).trans (congrArg Except.ok (word_of_lt ?_))
  rw [Block.stop] at hi
  change b.vptr + (k - b.vvptr) < _
  omega

end Represents

/-- Every finite run of the API ends for want of addresses or in a consistent allocator with a frozen
address to go back to: no run ends in the overlap exit of `add`, in a failed assertion, or in the pop
of an empty stack. -/
theorem allocator_consistent {M : Module} {o : Except Abort MyInterpreter}
    (run : (api M).Outcome o) :
    o = .error .exhausted ∨
      ∃ s, o = .ok s ∧ s.allocator.Consistent ∧ s.allocator.vma.freezeStack ≠ [] := by
  have holds := outcome_invariant run
  cases o with
  | error e => exact .inl (congrArg Except.error holds)
  | ok s =>
    obtain ⟨base, mark, A, extra, inv⟩ := holds
    refine .inr ⟨s, rfl, inv.rep.consistent, ?_⟩
    rw [inv.frozen]
    exact List.cons_ne_nil _ _

/-- A module like `test-appl/dlist`: three threads in one array, and two functions. -/
def dlistModule : Module where
  globals := [⟨"t", false, 288, 0x7f0000001000⟩, ⟨"printf_buffer", true, 64, 0⟩]
  functions := [⟨"init", false, 0x7f0000002000⟩, ⟨"main", false, 0x7f0000003000⟩]
  structSize := fun name => if name = "struct.k_thread" then 96 else 0
  fits := by decide
  fits_function := by decide
  distinct := by decide

/-- The interpreter of the module after one `structAlloc`. -/
def dlistState : MyInterpreter :=
  match createInterpreter dlistModule with
  | .error _ => ⟨{}, [], []⟩
  | .ok s =>
    match s.structAlloc dlistModule "struct.k_thread" 0x7f0000004000 with
    | .error _ => ⟨{}, [], []⟩
    | .ok (_, s) => s

/-- The state is reached. -/
lemma dlist_run : (api dlistModule).Outcome (.ok dlistState) := by
  have host : ∀ s, createInterpreter dlistModule = .ok s →
      HostGives s.allocator 0x7f0000004000 96 := by
    intro s e
    cases e
    exact ⟨by decide, by decide, by decide, by decide⟩
  exact Outcome.step (S := api dlistModule) (i := .structAlloc "struct.k_thread" 0x7f0000004000)
    .start (host _ rfl)

/-- The blocks are held. -/
lemma dlist_held {b : Block} (live : dlistState.allocator.Live b) :
    b.holderNode ∈ dlistState.allocator.allocationsHolder := by
  obtain ⟨_, _, A, _, inv⟩ := outcome_invariant dlist_run
  exact inv.rep.held (inv.rep.live_iff.1 live)

/-- Where the host has put the blocks. -/
lemma dlist_blocks {b : Block} (live : dlistState.allocator.Live b) :
    0x7f0000001000 ≤ b.vptr ∧ b.vptr + b.size ≤ 0x7f0000005000 := by
  have nodes : ∀ n ∈ dlistState.allocator.allocationsHolder,
      0x7f0000001000 ≤ n.data.vptr ∧ n.data.vptr + n.data.size ≤ 0x7f0000005000 := by decide
  exact nodes b.holderNode (dlist_held live)

/-- The invariant after one `structAlloc` and one reset. -/
theorem allocator_consistent_dlist :
    dlistState.resetExtraAllocations = .error .exhausted ∨
      ∃ s, dlistState.resetExtraAllocations = .ok s ∧ s.allocator.Consistent ∧
        s.allocator.vma.freezeStack ≠ [] :=
  allocator_consistent
    (Outcome.step (S := api dlistModule) (i := .resetExtraAllocations) dlist_run trivial)

/-- In every reachable state an address of a live block, its end included, is found in both maps,
belongs to no other live block, and translates into the host memory of that block. -/
theorem translate_live {M : Module} {s : MyInterpreter} (run : (api M).Outcome (.ok s)) {b : Block}
    (live : s.allocator.Live b) {k : Nat} (lo : b.vvptr ≤ k) (hi : k ≤ b.vvptr + b.size) :
    s.allocator.has k = true ∧
    s.allocator.find k = some ⟨(b.vvptr, b.node), (b.vvptr + b.size, b.node), b.node⟩ ∧
    vvptr2vptr s.allocator k = .ok (b.vptr + (k - b.vvptr)) ∧
    ∀ c, s.allocator.Live c → c.vvptr ≤ k → k ≤ c.vvptr + c.size → c = b := by
  obtain ⟨base, mark, A, extra, inv⟩ := outcome_invariant run
  have r := inv.rep
  have hb := r.live_iff.1 live
  refine ⟨r.has hb lo hi, r.find hb lo hi, r.vvptr2vptr_inside hb lo hi, ?_⟩
  intro c hc lo' hi'
  by_contra ne
  exact Set.disjoint_left.1 (A.chain.disjoint (r.live_iff.1 hc) hb ne) ⟨lo', hi'⟩ ⟨lo, hi⟩

/-- The end of the extra block translates to the end of its host memory. -/
theorem translate_live_dlist :
    vvptr2vptr dlistState.allocator (0x5000012c + 96) = .ok (0x7f0000004000 + 96) :=
  (translate_live dlist_run (b := ⟨0x5000012c, 0x7f0000004000, 96, 3⟩) ⟨by decide, rfl⟩
    (by decide) (by decide)).2.2.1

end Irx.Memory
