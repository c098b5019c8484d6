import Irx.Exec.Constants
import Irx.Lib.Loop

/-!
# The interpreter loop

`MyInterpreter` executes instructions one at a time on top of the base interpreter, which is a
parameter here (`Base`): how it visits an instruction, how it loads and stores, how it evaluates
constants and translates pointers. What `MyInterpreter` adds is modelled: `runInstruction`
with its stop and skip lists and the alias rewriting, `getFunctionWithPtr`, `visitCallBase`, the loop
of `run` and `putReturnValue`. Frames are kept with `ECStack.back()` first.
Printing is left out.
-/

namespace Irx.Exec
open Irx.Lib

/-- The opcodes that `runInstruction` tells apart. -/
inductive Opcode where
  | ret
  | getElementPtr
  | load
  | store
  | call
  | fence
  | other (n : Nat)
  deriving DecidableEq

/-- An operand: a constant, or the result of an instruction or an argument. -/
inductive Value where
  | constant (C : Constant)
  | register (id : Nat)
  deriving DecidableEq

/-- An instruction. The last five fields are those of a call; `integerWidth` is the width of an
integer result. -/
structure Instruction where
  id : Nat
  opcode : Opcode
  operands : List Value
  args : List Value
  calledFunction : Option String
  calledOperand : Value
  isInlineAsm : Bool
  integerWidth : Option Nat

/-- A stack frame; `curInst` holds the instructions left in the basic block. -/
structure ExecutionContext (GV : Type) where
  curFunction : String
  curBB : Nat
  curInst : List Instruction
  caller : Option Instruction
  values : Value → Option GV
  varArgs : List GV
  allocas : List Nat

/-- `SF.Values[V] = Val`. -/
def ExecutionContext.setValue {GV : Type} (SF : ExecutionContext GV) (V : Value) (Val : GV) :
    ExecutionContext GV :=
  { SF with values := Function.update SF.values V (some Val) }

/-- The state of the base interpreter. -/
structure Machine (GV Mem : Type) where
  ecStack : List (ExecutionContext GV)
  exitValue : GV
  memory : Mem

/-- The state of `MyInterpreter`. -/
structure State (GV Mem : Type) where
  machine : Machine GV Mem
  operands : Operands
  runningInstruction : Option Instruction

/-- The base interpreter and the pointer translation. -/
structure Base (GV Mem : Type) where
  visit : Instruction → Operands → Machine GV Mem → Except Abort (Machine GV Mem)
  visitLoadInst : Instruction → Operands → Machine GV Mem → Except Abort (Machine GV Mem)
  visitStoreInst : Instruction → Operands → Machine GV Mem → Except Abort (Machine GV Mem)
  constantExprValue : Nat → Operands → Machine GV Mem → GV
  constantValue : Constant → Operands → Machine GV Mem → GV
  registerValue : Nat → Machine GV Mem → GV
  vvptr2vptr : Mem → GV → GV
  isNull : GV → Bool
  findFunctionByVPtr : GV → Option String
  zero : Nat → GV

/-- `IRXFlowControl`. -/
structure FlowControl where
  stop : List String
  skip : List String

/-- `IRXFlowControl::shouldStop`. -/
def FlowControl.shouldStop (flow : FlowControl) (F : String) : Bool := flow.stop.contains F

/-- `IRXFlowControl::shouldSkip`. -/
def FlowControl.shouldSkip (flow : FlowControl) (F : String) : Bool := flow.skip.contains F

section Execution

variable {GV Mem : Type} (B : Base GV Mem) (G : ConstantGraph) (flow : FlowControl)

/-- A change of `ECStack.back()`, which is undefined on an empty stack. -/
def Machine.modifyBack (m : Machine GV Mem) (f : ExecutionContext GV → ExecutionContext GV) :
    Except Abort (Machine GV Mem) :=
  match m.ecStack with
  | [] => .error .undefined
  | SF :: rest => .ok { m with ecStack := f SF :: rest }

/-- The operands of one constant expression replaced by what their aliases stand for. -/
def withoutAliases (e : Nat) (ops : Operands) : Operands :=
  fun u => if u.1 = e then (ops u).map resolveAliasesOperand else ops u

/-- The value of an operand. A constant expression is evaluated with its aliases replaced; the
operands are put back right after. -/
def getOperandValue (V : Value) (ops : Operands) (m : Machine GV Mem) : Except Abort GV :=
  match V with
  | .constant (.constantExpr e) =>
    if (List.range (G.numOperands e)).all fun i => (ops (e, i)).isSome then
      .ok (B.constantExprValue e (withoutAliases e ops) m)
    else .error .undefined
  | .constant C => .ok (B.constantValue C ops m)
  | .register id => .ok (B.registerValue id m)

/-- The function a call goes to, also through a pointer. -/
def getFunctionWithPtr (call : Instruction) (ops : Operands) (m : Machine GV Mem) :
    Except Abort (Option String) :=
  match call.calledFunction with
  | some F => .ok (some F)
  | none => do
    let v ← getOperandValue B G call.calledOperand ops m
    .ok (B.findFunctionByVPtr (B.vvptr2vptr m.memory v))

/-- `StringRef::startswith`. -/
def startsWith (name pre : String) : Bool := pre.toList.isPrefixOf name.toList

/-- A call that is neither stopped nor skipped. Debug and alias-scope intrinsics do nothing, and a
call through a pointer is only visited when the pointer is that of a function. -/
def visitCallBase (call : Instruction) (ops : Operands) (m : Machine GV Mem) :
    Except Abort (Machine GV Mem) := do
  let m ← m.modifyBack fun SF => { SF with caller := some call }
  let _ ← call.args.mapM fun V => getOperandValue B G V ops m
  match call.calledFunction with
  | none =>
    let V ← getOperandValue B G call.calledOperand ops m
    let V := B.vvptr2vptr m.memory V
    if !B.isNull V then
      let m ← m.modifyBack fun SF => SF.setValue call.calledOperand V
      match B.findFunctionByVPtr V with
      | some _ => B.visit call ops m
      | none => .ok m
    else if call.isInlineAsm then .ok m
    else
      match call.integerWidth with
      | some width => m.modifyBack fun SF => SF.setValue (.register call.id) (B.zero width)
      | none => .ok m
  | some F =>
    if !startsWith F "llvm." then B.visit call ops m
    else if startsWith F "llvm.dbg.declare" then .ok m
    else if startsWith F "llvm.dbg.value" then .ok m
    else if startsWith F "llvm.experimental.noalias.scope.decl" then .ok m
    else B.visit call ops m

/-- A call in `runInstruction`; `true` asks the loop to stop. -/
def runCall (call : Instruction) (ops : Operands) (m : Machine GV Mem) :
    Except Abort (Bool × Machine GV Mem) := do
  let F ← getFunctionWithPtr B G call ops m
  if F.any flow.shouldStop then .ok (true, m)
  else if F.any flow.shouldSkip then .ok (false, m)
  else do
    let m ← visitCallBase B G call ops m
    .ok (false, m)

/-- Any other instruction in `runInstruction`. -/
def runOther (I : Instruction) (ops : Operands) (m : Machine GV Mem) :
    Except Abort (Machine GV Mem) :=
  match I.opcode with
  | .load => B.visitLoadInst I ops m
  | .store => B.visitStoreInst I ops m
  | .fence => .ok m
  | _ => B.visit I ops m

/-- `fixAliasesOperands` on every constant operand of an instruction. -/
def fixOperands (I : Instruction) (s : Rewrite) : Except Abort Rewrite :=
  I.operands.foldlM (fun s V =>
    match V with
    | .constant C => fixAliasesOperands G (G.depth C) C s
    | .register _ => .ok s) s

/-- `restoreAliasesOperands` on every constant operand of an instruction. -/
def restoreOperands (I : Instruction) (s : Rewrite) : Except Abort Operands :=
  I.operands.foldlM (fun ops V =>
    match V with
    | .constant C => restoreAliasesOperands G s.values (G.depth C) C ops
    | .register _ => .ok ops) s.operand

/-- One instruction; `true` asks the loop to stop. Only calls go without the alias rewriting. -/
def runInstruction (I : Instruction) (s : State GV Mem) : Except Abort (Bool × State GV Mem) :=
  if I.opcode = .call then do
    let (ret, m) ← runCall B G flow I s.operands s.machine
    .ok (ret, { s with machine := m })
  else do
    let fixed ← fixOperands G I ⟨s.operands, fun _ => none⟩
    let m ← runOther B I fixed.operand s.machine
    let ops ← restoreOperands G I fixed
    .ok (false, { s with machine := m, operands := ops })

/-- The body of the loop of `run`: fetch, advance, note the instruction, execute it. -/
def runBody (exec : Instruction → State GV Mem → Except Abort (Bool × State GV Mem))
    (s : State GV Mem) : Except Abort (Bool × State GV Mem) :=
  match s.machine.ecStack with
  | [] => .error .undefined
  | SF :: rest =>
    match SF.curInst with
    | [] => .error .undefined
    | I :: next =>
      exec I { s with
        machine := { s.machine with ecStack := { SF with curInst := next } :: rest }
        runningInstruction := some I }

/-- There is a function to run. -/
def State.isRunnable (s : State GV Mem) : Bool := !s.machine.ecStack.isEmpty

/-- `run`, and so `resume`: at most `n` instructions. -/
def run (n : Nat) (s : State GV Mem) : Journey Abort (State GV Mem) :=
  loop State.isRunnable (runBody (runInstruction B G flow)) n s

/-- A change of the topmost frame of the state. -/
def State.modifyBack (s : State GV Mem) (f : ExecutionContext GV → ExecutionContext GV) :
    Except Abort (State GV Mem) := do
  let m ← s.machine.modifyBack f
  .ok { s with machine := m }

/-- A result is put where the caller wants it. -/
def putReturnValue (Result : GV) (s : State GV Mem) : Except Abort (State GV Mem) :=
  match s.runningInstruction with
  | none => .error .undefined
  | some I => s.modifyBack fun SF => SF.setValue (.register I.id) Result

/-- A client that runs, calls `handler` after every stop and resumes, until nothing is runnable: at
most `k` times resumed and `n` instructions in all. -/
def resumed (handler : State GV Mem → Except Abort (State GV Mem)) (k n : Nat) (s : State GV Mem) :
    Journey Abort (State GV Mem) :=
  session State.isRunnable (runBody (runInstruction B G flow)) handler k n s

/-! ### What an instruction does -/

variable {B G flow}

/-- A call to a listed function changes nothing, any other is made. -/
lemma runInstruction_call {I : Instruction} {s s' : State GV Mem} {exit : Bool} (call : I.opcode = .call)
    (ran : runInstruction B G flow I s = .ok (exit, s')) :
    ∃ F, getFunctionWithPtr B G I s.operands s.machine = .ok F ∧
      ((F.any flow.shouldStop || F.any flow.shouldSkip) = true ∧ exit = F.any flow.shouldStop ∧ s' = s ∨
      (F.any flow.shouldStop || F.any flow.shouldSkip) = false ∧ exit = false ∧
        ∃ m, visitCallBase B G I s.operands s.machine = .ok m ∧ s' = { s with machine := m }) := by
  rw [runInstruction, if_pos call] at ran
  obtain ⟨⟨ret, m⟩, called, e⟩ := bind_eq_ok.1 ran
  cases e
  rw [runCall] at called
  obtain ⟨F, found, called⟩ := bind_eq_ok.1 called
  refine ⟨F, found, ?_⟩
  cases stop : F.any flow.shouldStop with
  | true =>
    rw [stop, if_pos rfl] at called
    cases called
    exact .inl ⟨rfl, rfl, rfl⟩
  | false =>
    rw [stop, if_neg Bool.false_ne_true] at called
    cases skip : F.any flow.shouldSkip with
    | true =>
      rw [skip, if_pos rfl] at called
      cases called
      exact .inl ⟨rfl, rfl, rfl⟩
    | false =>
      rw [skip, if_neg Bool.false_ne_true] at called
      obtain ⟨m1, visited, e⟩ := bind_eq_ok.1 called
      cases e
      exact .inr ⟨rfl, rfl, m, visited, rfl⟩

/-- Any other instruction is executed on the rewritten operands, which are restored after it. -/
lemma runInstruction_other {I : Instruction} {s s' : State GV Mem} {exit : Bool} (other : I.opcode ≠ .call)
    (ran : runInstruction B G flow I s = .ok (exit, s')) :
    exit = false ∧ ∃ fixed m ops, fixOperands G I ⟨s.operands, fun _ => none⟩ = .ok fixed ∧
      runOther B I fixed.operand s.machine = .ok m ∧ restoreOperands G I fixed = .ok ops ∧
      s' = { s with machine := m, operands := ops } := by
  rw [runInstruction, if_neg other] at ran
  obtain ⟨fixed, replaced, ran⟩ := bind_eq_ok.1 ran
  obtain ⟨m, executed, ran⟩ := bind_eq_ok.1 ran
  obtain ⟨ops, restored, e⟩ := bind_eq_ok.1 ran
  cases e
  exact ⟨rfl, fixed, m, ops, replaced, executed, restored, rfl⟩

end Execution

end Irx.Exec
