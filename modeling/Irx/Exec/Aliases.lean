import Irx.Exec.Interpreter

/-!
# When an instruction leaves constant expressions alone

Both passes of `runInstruction` over one instruction, as folds over all uses below its operands. The
condition under which the operand table comes back is `Restorable`; `runInstruction_restores_iff`
states that it is exact, and `shared_alias_becomes_null` runs the passes on a store that reaches an
alias three times, twice through one expression.
-/

namespace Irx.Exec
open Irx.Lib

variable {GV Mem : Type} {G : ConstantGraph} {I : Instruction} {l : List Use}

/-- The operand positions below one operand of an instruction. -/
def Value.uses (G : ConstantGraph) : Value → List Use
  | .constant C => G.uses (G.depth C) C
  | .register _ => []

/-- The operand positions below an instruction in the order of the walk. -/
def Instruction.uses (G : ConstantGraph) (I : Instruction) : List Use :=
  I.operands.flatMap (Value.uses G)

/-- What the first pass leaves. -/
def Instruction.fixed (G : ConstantGraph) (I : Instruction) : Rewrite :=
  (I.uses G).foldl fixUse G.fresh

/-- The first pass leaves the operands and the record of the instruction. -/
lemma fixOperands_eq : fixOperands G I G.fresh = .ok (I.fixed G) := by
  refine foldlM_eq_foldl_flatMap (P := Tracks G) (fun _ u tracks => tracks.fixUse u) ?_ tracks_fresh
  intro V _ s tracks
  cases V with
  | constant C => exact fixAliasesOperands_eq le_rfl tracks
  | register => rfl

/-- After the first pass, every operand is recorded. -/
lemma pending_fixed :
    ∀ u ∈ I.uses G, Pending (I.fixed G).values (G.target u) ((I.fixed G).operand u) := by
  intro u mem
  rw [Instruction.fixed, foldl_fixUse_operand, if_pos mem]
  exact .target

/-- The second pass over an instruction ends in the fold of its steps or loses an operand. -/
lemma restoreOperands_ends :
    Ends (I.uses G) ((I.uses G).foldl (restoreUse (I.fixed G).values) (I.fixed G).operand)
      (restoreOperands G I (I.fixed G)) := by
  have recorded : Recorded G (I.uses G) (I.fixed G).values := recorded_foldl _
  refine .foldlM recorded ?_ ?_ pending_fixed
  case refine_1 =>
    intro V mem ops pending
    cases V with
    | constant C =>
      have sub : G.uses (G.depth C) C ⊆ I.uses G :=
        fun u below => List.mem_flatMap.2 ⟨_, mem, below⟩
      exact restoreAliasesOperands_ends recorded le_rfl sub pending
    | register => exact .inl rfl
  case refine_2 =>
    intro ops V ops' u lost ran
    cases V with
    | constant C => exact restoreAliasesOperands_none lost ran
    | register =>
      cases ran
      exact lost

/-- The second pass looks an operand up as often as it is listed. -/
lemma foldl_restoreUse_apply {Values : Originals} {ops : Operands} {u : Use} :
    l.foldl (restoreUse Values) ops u = (fun o => o.bind Values)^[l.count u] (ops u) :=
  foldl_update_apply (f := fun o : Option Constant => o.bind Values)

/-- The map sends a target to itself: repeating the step changes nothing. -/
lemma iterate_bind_fixed {Values : Originals} {K : Constant} (entry : Values K = some K) (n : Nat) :
    (fun o : Option Constant => o.bind Values)^[n] (some K) = some K :=
  Function.iterate_fixed entry n

/-- What a use that comes back says about the map and about the number of visits. -/
lemma Recorded.of_restored {Values : Originals} (recorded : Recorded G l Values) {u : Use} (mem : u ∈ l)
    (back : (fun o => o.bind Values)^[l.count u] (some (G.target u)) = some (G.operand u)) :
    Values (G.target u) = some (G.operand u) ∧ (G.operand u ≠ G.target u → l.count u ≤ 1) := by
  obtain ⟨n, visits⟩ : ∃ n, l.count u = n + 1 :=
    ⟨l.count u - 1, (Nat.succ_pred_eq_of_pos (List.count_pos_iff.2 mem)).symm⟩
  rw [visits, Function.iterate_succ_apply] at back
  have back : (fun o => o.bind Values)^[n] (Values (G.target u)) = some (G.operand u) := back
  cases n with
  | zero => exact ⟨back, fun _ => visits.le⟩
  | succ n =>
    have pending := recorded.pending mem
    cases entry : Values (G.target u) with
    | none =>
      rw [entry, Function.iterate_fixed (by rfl)] at back
      cases back
    | some C =>
      rw [entry] at pending back
      cases pending with
      | target =>
        rw [iterate_bind_fixed entry] at back
        exact ⟨back, fun ne => absurd (Option.some.inj back).symm ne⟩
      | original gone _ =>
        -- a second visit loses an operand that the first one gave back its alias
        rw [Function.iterate_succ_apply] at back
        have back : (fun o => o.bind Values)^[n] (Values C) = some (G.operand u) := back
        rw [gone, Function.iterate_fixed (by rfl)] at back
        cases back

/-- The fold of the second pass gives every operand back exactly under the condition. -/
lemma foldl_restoreUse_iff :
    (I.uses G).foldl (restoreUse (I.fixed G).values) (I.fixed G).operand = G.initial ↔
      Restorable G (I.uses G) := by
  have recorded : Recorded G (I.uses G) (I.fixed G).values := recorded_foldl _
  have start : ∀ u, (I.fixed G).operand u =
      some (if u ∈ I.uses G then G.target u else G.operand u) := foldl_fixUse_operand _
  constructor
  case mp =>
    intro back
    have each : ∀ u ∈ I.uses G, (I.fixed G).values (G.target u) = some (G.operand u) ∧
        (G.operand u ≠ G.target u → (I.uses G).count u ≤ 1) := by
      intro u mem
      refine recorded.of_restored mem ?_
      have := congrFun back u
      rwa [foldl_restoreUse_apply, start, if_pos mem] at this
    -- one entry of the map serves all operands with the same target
    refine ⟨fun u mem v mem' same => ?_, fun u mem => (each u mem).2⟩
    have := (each u mem).1
    rw [same, (each v mem').1] at this
    exact (Option.some.inj this).symm
  case mpr =>
    intro ok
    funext u
    rw [foldl_restoreUse_apply, start]
    -- an operand that the walk does not reach was never touched
    by_cases mem : u ∈ I.uses G
    case neg =>
      rw [if_neg mem, List.count_eq_zero_of_not_mem mem]
      rfl
    case pos =>
      have entry : (I.fixed G).values (G.target u) = some (G.operand u) := ok.originals u mem
      rw [if_pos mem]
      rcases eq_or_ne (G.operand u) (G.target u) with same | ne
      · rw [same] at entry
        rw [iterate_bind_fixed entry, ← same]
        rfl
      · have visits : (I.uses G).count u = 1 :=
          le_antisymm (ok.once u mem ne) (List.count_pos_iff.2 mem)
        rw [visits]
        exact entry

/-- The second pass gives the parsed operands back exactly under the condition. -/
lemma restoreOperands_iff :
    restoreOperands G I (I.fixed G) = .ok G.initial ↔ Restorable G (I.uses G) := by
  rw [← foldl_restoreUse_iff]
  rcases restoreOperands_ends (G := G) (I := I) with done | ⟨u, _, lost, gone⟩
  · rw [done]
    exact ⟨fun e => Except.ok.inj e, fun e => congrArg _ e⟩
  · constructor
    · intro back
      cases gone _ back
    · intro back
      rw [back] at lost
      cases lost

/-- For every instruction that is no call and whose own execution returns: `runInstruction` returns
with all operand lists as they were if and only if, among all operands below the instruction, those
that resolve to one constant are equal and an alias operand is reached once. -/
theorem runInstruction_restores_iff {GV Mem : Type} {B : Base GV Mem} {G : ConstantGraph}
    {flow : FlowControl} {I : Instruction} {s : State GV Mem} {m : Machine GV Mem}
    (noCall : I.opcode ≠ .call) (parsed : s.operands = G.initial)
    (ran : runOther B I (I.fixed G).operand s.machine = .ok m) :
    (∃ ret s', runInstruction B G flow I s = .ok (ret, s') ∧ s'.operands = s.operands) ↔
      Restorable G (I.uses G) := by
  have run : runInstruction B G flow I s =
      restoreOperands G I (I.fixed G) >>= fun ops =>
        .ok (false, { s with machine := m, operands := ops }) := by
    rw [runInstruction, if_neg noCall, parsed]
    exact (bind_ok fixOperands_eq _).trans (bind_ok ran _)
  rw [← restoreOperands_iff, run, parsed]
  constructor
  · rintro ⟨ret, s', ran, same⟩
    obtain ⟨ops, e, e'⟩ := bind_eq_ok.1 ran
    cases e'
    exact e.trans (congrArg _ same)
  · intro back
    exact ⟨false, _, bind_ok back _, rfl⟩

/-- A base interpreter whose instructions do nothing. -/
def idleBase : Base Unit Unit where
  visit := fun _ _ m => .ok m
  visitLoadInst := fun _ _ m => .ok m
  visitStoreInst := fun _ _ m => .ok m
  constantExprValue := fun _ _ _ => ()
  constantValue := fun _ _ _ => ()
  registerValue := fun _ _ => ()
  vvptr2vptr := fun _ _ => ()
  isNull := fun _ => false
  findFunctionByVPtr := fun _ => none
  zero := fun _ => ()

/-- `ptrtoint (@A)`, `add (ptrtoint (@A), ptrtoint (@A))` and `bitcast (@A)`, where `@A` is an alias
of `@G`. -/
def aliasGraph : ConstantGraph where
  numOperands := fun e => if e = 1 then 2 else 1
  operand := fun u =>
    if u.1 = 1 then .constantExpr 0 else .globalAlias "A" (.plain "G")
  rank := fun e => if e = 1 then 1 else 0
  acyclic := by
    intro e i e' _ h
    by_cases one : e = 1
    · subst one
      cases h
      decide
    · simp only [if_neg one] at h
      cases h

/-- A store of a constant to a constant address. -/
def storeOf (C Ptr : Constant) : Instruction where
  id := 0
  opcode := .store
  operands := [.constant C, .constant Ptr]
  args := []
  calledFunction := none
  calledOperand := .register 0
  isInlineAsm := false
  integerWidth := none

/-- The state before the store. -/
def aliasState : State Unit Unit := ⟨⟨[], (), ()⟩, aliasGraph.initial, none⟩

/-- A store that reaches the alias through the address only leaves all operands as they were. -/
theorem runInstruction_restores_iff_bitcast :
    ∃ ret s', runInstruction idleBase aliasGraph ⟨[], []⟩ (storeOf (.plain "0") (.constantExpr 2))
      aliasState = .ok (ret, s') ∧ s'.operands = aliasState.operands :=
  (runInstruction_restores_iff (m := ⟨[], (), ()⟩) (by decide) rfl rfl).2
    ⟨by decide, by decide⟩

/-- `store i64 add (ptrtoint (@A), ptrtoint (@A)), i64* bitcast (@A)`: the walk back restores the
shared expression twice, and the second time its operand becomes null. -/
theorem shared_alias_becomes_null :
    ∃ s', runInstruction idleBase aliasGraph ⟨[], []⟩
        (storeOf (.constantExpr 1) (.constantExpr 2)) aliasState = .ok (false, s') ∧
      aliasState.operands (0, 0) = some (.globalAlias "A" (.plain "G")) ∧
      s'.operands (0, 0) = none :=
  ⟨_, rfl, rfl, by decide⟩

end Irx.Exec
