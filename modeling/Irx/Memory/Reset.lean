import Irx.Memory.ApiRuns

/-!
# Reuse of the address space

`resetExtraAllocations` lets the interpreter be used again. `structAllocs` performs a sequence of
`structAlloc` requests, `Rounds` any number of "allocate, then reset". Two states with the same base
blocks, the same bump address and extra blocks of the same shape stay so under equal requests,
whatever host addresses they get (`structAllocs_twin`); after a reset a used interpreter is such a
twin of the fresh one. `reset_restores` concludes that the answers to later requests, and the shape
of the allocator, are those of a fresh interpreter.
-/

namespace Irx.Memory
open Irx.Lib

/-- A sequence of `structAlloc` requests, each with the host address it gets. -/
def structAllocs (M : Module) : MyInterpreter → List (String × Nat) →
    Except Abort (List IrxAlloc × MyInterpreter)
  | s, [] => .ok ([], s)
  | s, (name, vmem) :: requests => do
    let (alloc, s) ← s.structAlloc M name vmem
    let (allocs, s) ← structAllocs M s requests
    .ok (alloc :: allocs, s)

/-- The host keeps its promise for every request of a sequence. -/
def HostServes (M : Module) : MyInterpreter → List (String × Nat) → Prop
  | _, [] => True
  | s, (name, vmem) :: requests =>
    HostGives s.allocator vmem (M.structSize name) ∧
      ∀ alloc s', s.structAlloc M name vmem = .ok (alloc, s') → HostServes M s' requests

/-- Any number of rounds of requests, each followed by a reset. -/
inductive Rounds (M : Module) (fresh : MyInterpreter) : MyInterpreter → Prop where
  | none : Rounds M fresh fresh
  | round {s s1 s2 requests allocs} :
    Rounds M fresh s →
    HostServes M s requests →
    structAllocs M s requests = .ok (allocs, s1) →
    s1.resetExtraAllocations = .ok s2 →
    Rounds M fresh s2

/-- Two interpreters agree in everything but host addresses: the keys of both maps, the bump address,
the freeze stack and the list of extra allocations. -/
structure SameShape (s t : MyInterpreter) : Prop where
  startKeys : s.allocator.vvmemStart.keys = t.allocator.vvmemStart.keys
  endKeys : s.allocator.vvmemEnd.keys = t.allocator.vvmemEnd.keys
  lastAllocAddr : s.allocator.vma.lastAllocAddr = t.allocator.vma.lastAllocAddr
  freezeStack : s.allocator.vma.freezeStack = t.allocator.vma.freezeStack
  allocations : s.allocations = t.allocations

/-- The interpreter side of a block. -/
def Block.shape (b : Block) : Nat × Nat := (b.vvptr, b.size)

/-- The interpreter side of an answer. -/
def IrxAlloc.shape (alloc : IrxAlloc) : Nat × Nat := (alloc.vvptr, alloc.size)

variable {M : Module} {base extra extra' : List Block} {mark : Nat} {s t : MyInterpreter}
variable {A B : AddressSpace}

/-- The starts of the blocks. -/
lemma Invariant.startKeys (inv : Invariant base mark s A extra) :
    s.allocator.vvmemStart.keys = (base ++ extra).map (fun b => b.shape.1) := by
  rw [OrdMap.keys, inv.rep.start, inv.blocks, List.map_map]
  rfl

/-- The ends of the blocks. -/
lemma Invariant.endKeys (inv : Invariant base mark s A extra) :
    s.allocator.vvmemEnd.keys = (base ++ extra).map (fun b => b.shape.1 + b.shape.2) := by
  rw [OrdMap.keys, inv.rep.stop, inv.blocks, List.map_map]
  rfl

/-- Over one base, states with equal bump address and extra blocks of equal shape have one shape. -/
lemma Invariant.sameShape (inv : Invariant base mark s A extra)
    (inv' : Invariant base mark t B extra') (bump : A.bump = B.bump)
    (shape : extra.map Block.shape = extra'.map Block.shape) : SameShape s t := by
  have all : (base ++ extra).map Block.shape = (base ++ extra').map Block.shape := by
    rw [List.map_append, List.map_append, shape]
  have along : ∀ f : Nat × Nat → Nat,
      (base ++ extra).map (fun b => f b.shape) = (base ++ extra').map (fun b => f b.shape) := by
    intro f
    have := congrArg (List.map f) all
    rwa [List.map_map, List.map_map] at this
  constructor
  case startKeys =>
    rw [inv.startKeys, inv'.startKeys]
    exact along Prod.fst
  case endKeys =>
    rw [inv.endKeys, inv'.endKeys]
    exact along fun p => p.1 + p.2
  case lastAllocAddr => rw [inv.rep.bump, inv'.rep.bump, bump]
  case freezeStack => rw [inv.frozen, inv'.frozen]
  case allocations =>
    have := congrArg (List.map Prod.fst) shape
    rw [List.map_map, List.map_map] at this
    rw [inv.allocations, inv'.allocations]
    exact this

/-- Some allocations keep the invariant. -/
lemma structAllocs_invariant {requests : List (String × Nat)} {allocs : List IrxAlloc}
    (inv : Invariant base mark s A extra) (serves : HostServes M s requests)
    (ran : structAllocs M s requests = .ok (allocs, t)) :
    ∃ A' extra', Invariant base mark t A' extra' := by
  induction requests generalizing s A extra allocs with
  | nil =>
    cases ran
    exact ⟨A, extra, inv⟩
  | cons request requests ih =>
    obtain ⟨name, vmem⟩ := request
    obtain ⟨⟨alloc, s1⟩, first, rest⟩ := bind_eq_ok.1 ran
    obtain ⟨⟨allocs1, s2⟩, later, e⟩ := bind_eq_ok.1 rest
    cases e
    rcases inv.malloc serves.1 with ⟨_, e⟩ | ⟨room, s', e, inv'⟩
    · cases first.symm.trans e
    · cases first.symm.trans e
      exact ih inv' (serves.2 _ _ first) later

/-- After any number of rounds the base blocks and the frozen address are those of the fresh
interpreter. -/
lemma Rounds.invariant {fresh : MyInterpreter} (rounds : Rounds M fresh s)
    (inv : Invariant A.blocks A.bump fresh A []) :
    ∃ A' extra, Invariant A.blocks A.bump s A' extra := by
  induction rounds with
  | none => exact ⟨A, [], inv⟩
  | round _ serves ran reset ih =>
    obtain ⟨A1, extra1, inv1⟩ := ih
    obtain ⟨A2, extra2, inv2⟩ := structAllocs_invariant inv1 serves ran
    obtain ⟨s', A', e, _, _, inv'⟩ := inv2.reset
    cases reset.symm.trans e
    exact ⟨A', [], inv'⟩

/-- Twins answer equal requests alike and stay twins. -/
lemma structAllocs_twin {requests requests' : List (String × Nat)} {allocs' : List IrxAlloc}
    {t' : MyInterpreter} (inv : Invariant base mark s A extra)
    (inv' : Invariant base mark t B extra') (bump : A.bump = B.bump)
    (shape : extra.map Block.shape = extra'.map Block.shape)
    (names : requests.map Prod.fst = requests'.map Prod.fst) (serves : HostServes M s requests)
    (serves' : HostServes M t requests') (ran' : structAllocs M t requests' = .ok (allocs', t')) :
    ∃ allocs s', structAllocs M s requests = .ok (allocs, s') ∧
      allocs.map IrxAlloc.shape = allocs'.map IrxAlloc.shape ∧ SameShape s' t' := by
  induction requests generalizing s t A B extra extra' requests' allocs' with
  | nil =>
    cases requests' with
    | cons => cases names
    | nil =>
      cases ran'
      exact ⟨[], s, rfl, rfl, inv.sameShape inv' bump shape⟩
  | cons request requests ih =>
    cases requests' with
    | nil => cases names
    | cons request' requests' =>
      obtain ⟨name, vmem⟩ := request
      obtain ⟨name', vmem'⟩ := request'
      obtain ⟨rfl, names'⟩ := List.cons.inj names
      obtain ⟨⟨alloc', t1⟩, first', rest'⟩ := bind_eq_ok.1 ran'
      obtain ⟨⟨allocs1', t2⟩, later', e'⟩ := bind_eq_ok.1 rest'
      cases e'
      -- the twins have the same room, so one is served when the other one is
      rcases inv'.malloc serves'.1 with ⟨_, e'⟩ | ⟨room', t1', e', inv1'⟩
      · cases first'.symm.trans e'
      · cases first'.symm.trans e'
        rcases inv.malloc serves.1 with ⟨full, _⟩ | ⟨room, s1, e, inv1⟩
        · exact absurd (bump ▸ room') full
        · have bump1 : A.bump + stride (M.structSize name) =
              B.bump + stride (M.structSize name) := by rw [bump]
          have shape1 := congrArg (· ++ [(A.bump, M.structSize name)]) shape
          obtain ⟨allocs, s', later, same, twin⟩ :=
            ih inv1 inv1' bump1 (by
              rw [List.map_append, List.map_append]
              refine shape1.trans ?_
              rw [bump]
              rfl) names' (serves.2 _ _ e) (serves'.2 _ _ first') later'
          refine ⟨_, s', (bind_ok e _).trans (bind_ok later _), ?_, twin⟩
          rw [List.map_cons, List.map_cons, same]
          exact congrArg (· :: _) (congrArg (·, M.structSize name) bump)

/-- Reset gives everything back. Take any number of earlier rounds, any served sequence of requests
and a reset: the reset succeeds, and every further sequence of requests that a fresh interpreter can
serve gets the interpreter addresses and sizes it would get there, and ends in a state of the same
shape, whatever host addresses the two runs receive. -/
theorem reset_restores {M : Module} {fresh s s1 : MyInterpreter} {earlier : List (String × Nat)}
    {allocs : List IrxAlloc} (created : createInterpreter M = .ok fresh)
    (rounds : Rounds M fresh s) (serves : HostServes M s earlier)
    (ran : structAllocs M s earlier = .ok (allocs, s1)) :
    ∃ s2, s1.resetExtraAllocations = .ok s2 ∧ SameShape s2 fresh ∧
      ∀ requests requests' answers' t',
        requests.map Prod.fst = requests'.map Prod.fst →
        HostServes M s2 requests → HostServes M fresh requests' →
        structAllocs M fresh requests' = .ok (answers', t') →
        ∃ answers t, structAllocs M s2 requests = .ok (answers, t) ∧
          answers.map IrxAlloc.shape = answers'.map IrxAlloc.shape ∧ SameShape t t' := by
  rcases createInterpreter_spec M with e | ⟨s0, A, e, inv, _⟩
  · cases created.symm.trans e
  · cases created.symm.trans e
    obtain ⟨A1, extra1, inv1⟩ := rounds.invariant inv
    obtain ⟨A2, extra2, inv2⟩ := structAllocs_invariant inv1 serves ran
    obtain ⟨s2, A', e, _, bump', inv'⟩ := inv2.reset
    refine ⟨s2, e, inv'.sameShape inv bump' rfl, ?_⟩
    intro requests requests' answers' t' names serves2 serves0 ran0
    exact structAllocs_twin inv' inv bump' rfl names serves2 serves0 ran0

/-- The interpreter of the module right after its creation. -/
def dlistFresh : MyInterpreter :=
  match createInterpreter dlistModule with
  | .error _ => ⟨{}, [], []⟩
  | .ok s => s

/-- One request, a reset, and the same request again with another host address. -/
theorem reset_restores_dlist :
    ∃ s2 answers t, dlistState.resetExtraAllocations = .ok s2 ∧
      structAllocs dlistModule s2 [("struct.k_thread", 0x7f0000005000)] = .ok (answers, t) ∧
      answers.map IrxAlloc.shape = [(0x5000012c, 96)] ∧ SameShape t dlistState := by
  have created : createInterpreter dlistModule = .ok dlistFresh := rfl
  have serves : HostServes dlistModule dlistFresh [("struct.k_thread", 0x7f0000004000)] :=
    ⟨⟨by decide, by decide, by decide, by decide⟩, fun _ _ _ => trivial⟩
  have ran : structAllocs dlistModule dlistFresh [("struct.k_thread", 0x7f0000004000)] =
      .ok ([⟨0x5000012c, 0x7f0000004000, 96⟩], dlistState) := rfl
  obtain ⟨s2, e, _, again⟩ := reset_restores created .none serves ran
  have serves2 : HostServes dlistModule s2 [("struct.k_thread", 0x7f0000005000)] := by
    cases e
    exact ⟨⟨by decide, by decide, by decide, by decide⟩, fun _ _ _ => trivial⟩
  obtain ⟨answers, t, e', same, twin⟩ :=
    again [("struct.k_thread", 0x7f0000005000)] [("struct.k_thread", 0x7f0000004000)]
      [⟨0x5000012c, 0x7f0000004000, 96⟩] dlistState rfl serves2 serves ran
  exact ⟨s2, answers, t, e, e', same, twin⟩

end Irx.Memory
