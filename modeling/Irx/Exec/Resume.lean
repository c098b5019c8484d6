import Irx.Exec.Interpreter

/-!
# Stopping and resuming

A client may stop the interpreter at calls and resume it, possibly after `putReturnValue`. The stop
leaves the machine as it was before the call, with the instruction pointer behind it
(`runInstruction_stop`); hence skipping is stopping without leaving the loop
(`runInstruction_skip`), and `putReturnValue` at a stop is an assignment to the result of the call
(`runBody_assigning`). By `session_eq_loop` both carry over to whole runs, step by step
(`resumed_eq_run`).
-/

namespace Irx.Exec
open Irx.Lib

variable {GV Mem : Type} {B : Base GV Mem} {G : ConstantGraph} {S T : List String} {r : GV}
variable {I : Instruction} {s s' : State GV Mem}

/-- The run that the second half of `resumed_eq_run` compares with: a call to a function of `S` sets
its result to `r`; everything else is executed without stops. -/
def runInstructionAssigning (B : Base GV Mem) (G : ConstantGraph) (S T : List String) (r : GV)
    (I : Instruction) (s : State GV Mem) : Except Abort (Bool × State GV Mem) :=
  if I.opcode = .call then do
    let F ← getFunctionWithPtr B G I s.operands s.machine
    if F.any S.contains then
      let s ← s.modifyBack fun SF => SF.setValue (.register I.id) r
      .ok (false, s)
    else runInstruction B G ⟨[], T⟩ I s
  else runInstruction B G ⟨[], T⟩ I s

/-- Only a call to a listed function stops, and it changes nothing. -/
lemma runInstruction_stop {flow : FlowControl}
    (stop : runInstruction B G flow I s = .ok (true, s')) : s' = s ∧ I.opcode = .call := by
  by_cases call : I.opcode = .call
  case pos =>
    obtain ⟨F, _, ⟨_, _, same⟩ | ⟨_, last, _⟩⟩ := runInstruction_call call stop
    · exact ⟨same, call⟩
    · cases last
  case neg =>
    obtain ⟨last, _⟩ := runInstruction_other call stop
    cases last

/-- An empty list stops nothing. -/
lemma shouldStop_nil (F : Option String) : F.any (FlowControl.shouldStop ⟨[], T⟩) = false := by
  cases F with
  | none => rfl
  | some => rfl

/-- What is skipped is stopped at or skipped. -/
lemma shouldSkip_append (F : Option String) :
    F.any (FlowControl.shouldSkip ⟨[], S ++ T⟩) =
      (F.any (FlowControl.shouldStop ⟨S, T⟩) || F.any (FlowControl.shouldSkip ⟨S, T⟩)) := by
  cases F with
  | none => rfl
  | some F => exact List.contains_append

/-- To skip the functions of `S` is to stop at them without leaving the loop. -/
lemma runInstruction_skip :
    inlined (runInstruction B G ⟨S, T⟩ I) .ok s = runInstruction B G ⟨[], S ++ T⟩ I s := by
  by_cases call : I.opcode = .call
  case pos =>
    rw [inlined, runInstruction, runInstruction, if_pos call, if_pos call, runCall, runCall]
    simp only [bind_assoc]
    apply bind_congr
    intro F
    rw [shouldStop_nil, shouldSkip_append]
    cases F.any (FlowControl.shouldStop ⟨S, T⟩) with
    | true => rfl
    | false =>
      cases F.any (FlowControl.shouldSkip ⟨S, T⟩) with
      | true => rfl
      | false =>
        simp only [Bool.or_false, Bool.false_eq_true, if_false, bind_assoc]
        rfl
  case neg =>
    rw [inlined, runInstruction, runInstruction, if_neg call, if_neg call]
    simp only [bind_assoc]
    rfl

/-- To answer a stop with `putReturnValue` is to assign the result on the spot. -/
lemma runInstruction_assigning (running : s.runningInstruction = some I) :
    inlined (runInstruction B G ⟨S, T⟩ I) (putReturnValue r) s =
      runInstructionAssigning B G S T r I s := by
  by_cases call : I.opcode = .call
  case pos =>
    rw [inlined, runInstruction, runInstructionAssigning, runInstruction, if_pos call, if_pos call,
      if_pos call, runCall, runCall]
    simp only [bind_assoc]
    cases getFunctionWithPtr B G I s.operands s.machine with
    | error => rfl
    | ok F =>
      -- the assigning call tests the functions of `S` before the skip list, as the stopping one does
      have stops : F.any S.contains = F.any (FlowControl.shouldStop ⟨S, T⟩) := rfl
      have skips : F.any (FlowControl.shouldSkip ⟨[], T⟩) =
          F.any (FlowControl.shouldSkip ⟨S, T⟩) := rfl
      simp only [ok_bind, shouldStop_nil, stops, skips]
      cases F.any (FlowControl.shouldStop ⟨S, T⟩) with
      | true =>
        show putReturnValue r s >>= _ = _
        rw [putReturnValue, running]
        rfl
      | false =>
        cases F.any (FlowControl.shouldSkip ⟨S, T⟩) with
        | true => rfl
        | false =>
          simp only [Bool.false_eq_true, if_false, bind_assoc]
          rfl
  case neg =>
    rw [inlined, runInstructionAssigning, runInstruction, runInstruction, if_neg call, if_neg call,
      if_neg call]
    simp only [bind_assoc]
    rfl

/-- A stop leaves the frames, so the interpreter stays runnable. -/
lemma runBody_stop {flow : FlowControl}
    (stop : runBody (runInstruction B G flow) s = .ok (true, s')) : s'.isRunnable = true := by
  rw [runBody] at stop
  cases stack : s.machine.ecStack with
  | nil =>
    rw [stack] at stop
    cases stop
  | cons SF rest =>
    rw [stack] at stop
    cases left : SF.curInst with
    | nil =>
      simp only [left] at stop
      cases stop
    | cons I next =>
      simp only [left] at stop
      rw [(runInstruction_stop stop).1]
      rfl

/-- A round with the handler in it is a round and the handler. -/
lemma inlined_runBody {exec exec' : Instruction → State GV Mem → Except Abort (Bool × State GV Mem)}
    {handler : State GV Mem → Except Abort (State GV Mem)}
    (same : ∀ I s, s.runningInstruction = some I → inlined (exec I) handler s = exec' I s) :
    inlined (runBody exec) handler = runBody exec' := by
  funext s
  rw [inlined, runBody, runBody]
  cases s.machine.ecStack with
  | nil => rfl
  | cons SF rest =>
    cases current : SF.curInst with
    | nil =>
      simp only [current]
      rfl
    | cons I next =>
      simp only [current]
      exact same I _ rfl

/-- Stopping is skipping, and stopping with `putReturnValue` is assigning. For every number `n` of
instructions: the client that stops at the functions of `S` and only resumes passes through the
states of the single run that skips them, and the client that puts `r` before it resumes passes
through the states of the run in which those calls assign `r` to their result; each ends as the run
it is compared with. -/
theorem resumed_eq_run {GV Mem : Type} (B : Base GV Mem) (G : ConstantGraph) (S T : List String)
    (r : GV) (n : Nat) (s : State GV Mem) :
    resumed B G ⟨S, T⟩ .ok n n s = run B G ⟨[], S ++ T⟩ n s ∧
      resumed B G ⟨S, T⟩ (putReturnValue r) n n s =
        loop State.isRunnable (runBody (runInstructionAssigning B G S T r)) n s := by
  have keeps : ∀ s s', runBody (runInstruction B G ⟨S, T⟩) s = .ok (true, s') →
      State.isRunnable s' = true := fun s s' stop => runBody_stop stop
  constructor
  · rw [resumed, session_eq_loop keeps le_rfl, run]
    rw [inlined_runBody fun I s _ => runInstruction_skip]
  · rw [resumed, session_eq_loop keeps le_rfl]
    rw [inlined_runBody fun I s running => runInstruction_assigning running]

end Irx.Exec
