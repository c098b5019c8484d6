import Irx.Memory.RoundTrip
import Irx.Python.SelfCheck

/-!
# Structures of one interpreter

A session allocates blocks, writes objects into the structures in them and reads fields. `session_invariant`
carries through a session what was in one block when nothing is written to it: the block is live, apart from
all others, and holds its bytes. So `get_struct` makes of the structure in it the same object at any later
time (`structs_isolated`).
-/

namespace Irx.Python
open Irx.Lib Irx.Debug Irx.Memory System

/-! ### The same fields, the same tree -/

variable {heap : PyHeap} {piece : Piece} {S : Set ObjId}

/-- Two readings that agree on the atoms of a tree make the same tree of it. -/
lemma Holds.reread_congr {read read' : List String → PyObj → Option PyObj} (holds : Holds heap piece S) :
    match piece with
    | .slot v _ => ∀ path, (∀ q a data, (q, a) ∈ v.atoms path → read q data = read' q data) →
      reread read v path = reread read' v path
    | .items vs _ => ∀ path k,
      (∀ q a data, (q, a) ∈ Value.itemAtoms vs path k → read q data = read' q data) →
      rereadItems read vs path k = rereadItems read' vs path k
    | .fields fs _ => ∀ path, (∀ q a data, (q, a) ∈ Value.fieldAtoms fs path → read q data = read' q data) →
      rereadFields read fs path = rereadFields read' fs path := by
  induction holds with
  | @leaf data =>
    intro path same
    rw [reread, reread]
    by_cases null : data = .none
    · rw [if_pos null, if_pos null]
    · have here : (path, Atom.value data) ∈ (Value.leaf data).atoms path := by simp [Value.atoms, null]
      rw [if_neg null, if_neg null, same _ _ _ here]
  | PTR =>
    intro path same
    rw [reread, reread, same path _ .none (.head _)]
  | list _ _ _ ih =>
    intro path same
    rw [reread, reread, ih path 0 same]
  | dataclass _ _ _ _ ih =>
    intro path same
    rw [reread, reread, ih path same]
  | noItems => exact fun _ _ _ => rfl
  | item _ _ _ ihv ih =>
    intro path k same
    rw [rereadItems, rereadItems,
      ihv _ fun q a data mem => same q a data (List.mem_append_left _ mem),
      ih path (k + 1) fun q a data mem => same q a data (List.mem_append_right _ mem)]
  | noFields => exact fun _ _ => rfl
  | hidden _ _ ih => exact ih
  | field visible _ _ _ ihv ih =>
    intro path same
    rw [Value.fieldAtoms, if_neg (by simp [visible])] at same
    rw [rereadFields, rereadFields,
      ihv _ fun q a data mem => same q a data (List.mem_append_left _ mem),
      ih path fun q a data mem => same q a data (List.mem_append_right _ mem)]

section Reading

variable {P : PyIRModuleInterpreter} {name : String} {vptr thread_ptr depth : Nat}
  {beyond : List String → Bytes} {mem mem' : Bytes} {path : List String} {v : Value} {slot : Slot}
  {w : World}

/-- The field is read alike in two memories with the same bytes of it. -/
lemma reading_bytes (data : PyObj) (same : ∀ info p, Told P.irx name path info →
      P.elementAddress name vptr info = some p → ∀ i < info.size_in_bytes, mem (p + i) = mem' (p + i)) :
    P.reading name vptr beyond mem path data = P.reading name vptr beyond mem' path data := by
  by_cases more : path = []
  · rw [PyIRModuleInterpreter.reading, PyIRModuleInterpreter.reading, if_pos more, if_pos more]
  cases told : (GEP P.irx.debug (P.irx.types.find? (isStructNamed P.irx name)) path >>=
      fieldInfo P.irx) with
  | error =>
    rw [PyIRModuleInterpreter.reading, PyIRModuleInterpreter.reading, told]
    simp only [Except.toOption, Option.bind_eq_bind, Option.bind_none]
  | ok info =>
    rw [reading_told told more, reading_told told more]
    cases address : P.elementAddress name vptr info with
    | none => rw [Option.bind_none, Option.bind_none]
    | some p =>
      have bytes : Irx.Python.get_struct_primitive P.pointerSize
          ⟨path, info.basicType, info.size_in_bytes, p⟩ mem (beyond path) data =
          Irx.Python.get_struct_primitive P.pointerSize
            ⟨path, info.basicType, info.size_in_bytes, p⟩ mem' (beyond path) data :=
        get_struct_primitive_bytes (same info p told address)
      rw [Option.bind_some, Option.bind_some, bytes]

/-- What `get_struct` leaves in an instance that is a tree is the tree that is read. -/
lemma get_struct_value (translated : vvptr2vptr P.allocator thread_ptr = .ok vptr)
    (coherent : w.host.caches.Coherent P.irx) (holds : Holds w.heap (.slot v slot) S)
    (deep : v.height ≤ depth)
    (addressed : Addressed (P.reading name vptr beyond w.host.mem) (v.atoms [])) :
    (P.get_struct name thread_ptr beyond depth slot [] w).toOption.bind
        (fun r => r.2.heap.value depth r.1) =
      reread (P.reading name vptr beyond w.host.mem) v [] := by
  have answers := get_struct_answers translated depth v slot [] w S holds rfl coherent deep addressed
  cases result : reread (P.reading name vptr beyond w.host.mem) v [] with
  | none =>
    rw [result] at answers
    obtain ⟨stop, failed⟩ := answers.of_none
    rw [failed]
    rfl
  | some v' =>
    rw [result] at answers
    obtain ⟨r, got, _, holds', _⟩ := answers.of_some
    rw [got]
    exact holds'.value_eq depth ((reread_height result).trans_le deep)

end Reading

/-! ### Sessions -/

/-- The interpreter with what Python wrote to the memory of the host. -/
structure Session where
  interpreter : MyInterpreter
  host : Host

/-- A call of Python with the answer of the host: an allocation, or the object or the field of the structure
in a block. -/
inductive StructCall where
  | structAlloc (name : String) (vmem : Nat)
  | malloc (size vmem : Nat)
  | set_struct (name : String) (b : Block) (obj : PyTree)
  | get_struct_primitive (name : String) (b : Block) (beyond : List String → Bytes) (data : PyObj)
    (path : List String)

variable (P : PyIRModuleInterpreter) (M : Memory.Module)

/-- The interpreter of Python over the blocks that there are now. -/
def Session.python (s : Session) : PyIRModuleInterpreter := { P with allocator := s.interpreter.allocator }

/-- Running one call. What stops a call ends the session. -/
def StructCall.run (s : Session) : StructCall → Except Stop Session
  | .structAlloc name vmem =>
    match s.interpreter.structAlloc M name vmem with
    | .error a => .error (.aborted a)
    | .ok (_, interpreter) => .ok { s with interpreter := interpreter }
  | .malloc size vmem =>
    match s.interpreter.malloc vmem size with
    | .error a => .error (.aborted a)
    | .ok (_, interpreter) => .ok { s with interpreter := interpreter }
  | .set_struct name b obj =>
    match (s.python P).set_struct name b.vvptr obj [] s.host with
    | (host, none) => .ok { s with host := host }
    | (_, some stop) => .error stop
  | .get_struct_primitive name b beyond data path =>
    match (s.python P).get_struct_primitive name b.vvptr beyond data path s.host with
    | .error stop => .error stop
    | .ok (_, host) => .ok { s with host := host }

/-- A new block has no byte of a live one. -/
def Fresh (a : MapAllocator) (vmem size : Nat) : Prop :=
  ∀ c, a.Live c → vmem + size ≤ c.vptr ∨ c.vptr + c.size ≤ vmem

/-- The host gives new memory, and what is written to a live block stays in it. -/
def StructCall.Allowed (s : Session) : StructCall → Prop
  | .structAlloc name vmem => HostGives s.interpreter.allocator vmem (M.structSize name) ∧
      Fresh s.interpreter.allocator vmem (M.structSize name)
  | .malloc size vmem => HostGives s.interpreter.allocator vmem size ∧
      Fresh s.interpreter.allocator vmem size
  | .set_struct name b obj => s.interpreter.allocator.Live b ∧ ∀ path data value o,
      ComesTo (s.python P) name (visits obj []) path data → Sends (s.python P) name path data value o →
        o + value.length ≤ b.size
  | .get_struct_primitive _ b _ _ _ => s.interpreter.allocator.Live b

/-- The sessions from one state on. -/
def sessions (s : Session) : System Stop Session StructCall where
  start := .ok s
  step s c := c.run P M s
  allowed s c := c.Allowed P M s

/-- Nothing is written to the structure in the block. -/
def Elsewhere (b : Block) (_ : Session) : StructCall → Prop
  | .set_struct _ c _ => c ≠ b
  | _ => True

/-- The state is sound, and the block is as it was in another one. -/
structure Session.Keeps (s0 : Session) (b : Block) (s : Session) : Prop where
  run : (api M).Outcome (.ok s.interpreter)
  disjoint : s.interpreter.allocator.HostDisjoint
  coherent : s.host.caches.Coherent P.irx
  live : s.interpreter.allocator.Live b
  bytes : read s.host.mem b.vptr b.size = read s0.host.mem b.vptr b.size

variable {P : PyIRModuleInterpreter} {M : Memory.Module} {s s' s0 : Session} {b c : Block} {name : String}

/-- A live block is translated to its host memory. -/
lemma translated_of_live (run : (api M).Outcome (.ok s.interpreter))
    (live : s.interpreter.allocator.Live b) :
    vvptr2vptr (s.python P).allocator b.vvptr = .ok b.vptr := by
  obtain ⟨base, mark, A, extra, inv⟩ := outcome_invariant run
  have inside := inv.rep.vvptr2vptr_inside (inv.rep.live_iff.1 live) le_rfl (Nat.le_add_right _ _)
  rwa [Nat.sub_self, Nat.add_zero] at inside

/-- A call of `set_struct` that returns. -/
lemma StructCall.run_set_struct {obj : PyTree}
    (done : ((s.python P).set_struct name b.vvptr obj [] s.host).2 = none) :
    (StructCall.set_struct name b obj).run P M s =
      .ok { s with host := ((s.python P).set_struct name b.vvptr obj [] s.host).1 } := by
  rw [StructCall.run]
  generalize (s.python P).set_struct name b.vvptr obj [] s.host = ended at done
  obtain ⟨host, stop⟩ := ended
  cases done
  rfl

/-- A session, and one more call. -/
lemma session_next {call : StructCall} (more : ((sessions P M s0).under (Elsewhere b)).Outcome (.ok s))
    (allowed : call.Allowed P M s) (elsewhere : Elsewhere b s call) (e : call.run P M s = .ok s') :
    ((sessions P M s0).under (Elsewhere b)).Outcome (.ok s') :=
  more.next ⟨allowed, elsewhere⟩ e

/-- Writes that stay in their block leave the memory of all that is apart from it. -/
lemma set_struct_untouched {h : Host} {obj : PyTree} {thread_ptr addr k : Nat}
    (coherent : h.caches.Coherent P.irx) (translated : vvptr2vptr P.allocator thread_ptr = .ok c.vptr)
    (host : c.vptr + c.size < 2 ^ 64)
    (inside : ∀ path data value o, ComesTo P name (visits obj []) path data →
      Sends P name path data value o → o + value.length ≤ c.size)
    (apart : addr + k ≤ c.vptr ∨ c.vptr + c.size ≤ addr) :
    read (P.set_struct name thread_ptr obj [] h).1.mem addr k = read h.mem addr k := by
  obtain ⟨ws, _, mem, all⟩ := perform_writes name (visits obj []) coherent translated
  rw [set_struct_eq, mem]
  refine foldl_write_untouched fun w there => ?_
  obtain ⟨path, data, value, o, reached, sends, rfl⟩ := (all w).1 there
  have fits := inside path data value o reached sends
  have straight : word (c.vptr + o) = c.vptr + o := word_of_lt (by omega)
  dsimp only
  rw [straight]
  omega

namespace Session.Keeps

/-- A new block is apart from the blocks that there are, and they stay. -/
lemma malloc (keeps : s0.Keeps P M b s) {vmem size : Nat} (call : Memory.Call)
    (alike : call.run M s.interpreter = (s.interpreter.malloc vmem size).map Prod.snd)
    (allowed : call.HostAllowed M s.interpreter) (gives : HostGives s.interpreter.allocator vmem size)
    (fresh : Fresh s.interpreter.allocator vmem size) {alloc : IrxAlloc} {i : MyInterpreter}
    (e : s.interpreter.malloc vmem size = .ok (alloc, i)) :
    s0.Keeps P M b { s with interpreter := i } := by
  obtain ⟨base, mark, A, extra, inv⟩ := outcome_invariant keeps.run
  obtain ⟨_, full⟩ | ⟨room, i', e', inv'⟩ := inv.malloc gives
  · cases e.symm.trans full
  cases e.symm.trans e'
  have blocks : ∀ c, i.allocator.Live c ↔
      s.interpreter.allocator.Live c ∨ c = ⟨A.bump, vmem, size, s.interpreter.allocator.nextNode⟩ := by
    intro c
    rw [inv'.rep.live_iff, inv.rep.live_iff, AddressSpace.grow_blocks, List.mem_append, List.mem_singleton]
  refine ⟨?_, ?_, keeps.coherent, (blocks b).2 (.inl keeps.live), keeps.bytes⟩
  · exact keeps.run.next allowed (alike.trans (by rw [e]; rfl))
  · intro c d livec lived ne
    obtain livec | rfl := (blocks c).1 livec
    · obtain lived | rfl := (blocks d).1 lived
      · exact keeps.disjoint c d livec lived ne
      · exact (fresh c livec).symm
    · obtain lived | rfl := (blocks d).1 lived
      · exact fresh d lived
      · exact absurd rfl ne

/-- A step that writes nothing to the block keeps it. -/
lemma step (keeps : s0.Keeps P M b s) {call : StructCall} (allowed : call.Allowed P M s)
    (elsewhere : Elsewhere b s call) (e : call.run P M s = .ok s') : s0.Keeps P M b s' := by
  cases call with
  | structAlloc name vmem =>
    rw [StructCall.run] at e
    split at e
    · cases e
    · cases e
      exact keeps.malloc (.structAlloc name vmem) rfl allowed.1 allowed.1 allowed.2 ‹_›
  | malloc size vmem =>
    rw [StructCall.run] at e
    split at e
    · cases e
    · cases e
      exact keeps.malloc (.malloc size vmem) rfl allowed.1 allowed.1 allowed.2 ‹_›
  | set_struct name c obj =>
    obtain ⟨live, inside⟩ := allowed
    have translated : vvptr2vptr (s.python P).allocator c.vvptr = .ok c.vptr :=
      translated_of_live keeps.run live
    have coherent := perform_coherent (P := s.python P) name (visits obj []) s.host keeps.coherent translated
    obtain ⟨base, mark, A, extra, inv⟩ := outcome_invariant keeps.run
    have apart := keeps.disjoint b c keeps.live live elsewhere.symm
    have untouched := set_struct_untouched (P := s.python P) keeps.coherent translated
      (inv.rep.host c (inv.rep.live_iff.1 live)) inside apart
    rw [← set_struct_eq] at coherent
    rw [StructCall.run] at e
    generalize (s.python P).set_struct name c.vvptr obj [] s.host = ended at e coherent untouched
    obtain ⟨host, stop⟩ := ended
    cases stop with
    | some => cases e
    | none =>
      cases e
      exact ⟨keeps.run, keeps.disjoint, coherent rfl, keeps.live, untouched.trans keeps.bytes⟩
  | get_struct_primitive name c beyond data path =>
    have translated : vvptr2vptr (s.python P).allocator c.vvptr = .ok c.vptr :=
      translated_of_live keeps.run allowed
    have answers := @get_struct_primitive_answers (s.python P) name c.vptr c.vvptr beyond s.host path data
      keeps.coherent translated
    rw [StructCall.run] at e
    generalize (s.python P).get_struct_primitive name c.vvptr beyond data path s.host = got at e answers
    cases got with
    | error => cases e
    | ok r =>
      cases e
      obtain ⟨_, _, _, looked⟩ := answers.of_ok
      refine ⟨keeps.run, keeps.disjoint, looked.2.2, keeps.live, ?_⟩
      rw [looked.1]
      exact keeps.bytes

end Session.Keeps

/-- Every session elsewhere keeps the structure. -/
lemma session_invariant {o : Except Stop Session} (start : s.Keeps P M b s)
    (more : ((sessions P M s).under (Elsewhere b)).Outcome o) :
    System.Holds (fun s' => s.Keeps P M b s') (fun _ => True) o := by
  refine more.holds start ?_
  rintro s1 call keeps ⟨allowed, elsewhere⟩
  change System.Holds _ _ (call.run P M s1)
  cases e : call.run P M s1 with
  | error => trivial
  | ok s2 => exact keeps.step allowed elsewhere e

/-- What `get_struct` leaves in an instance for the structure in a block. -/
def Session.object (P : PyIRModuleInterpreter) (name : String) (b : Block) (beyond : List String → Bytes)
    (depth : Nat) (slot : Slot) (heap : PyHeap) (s : Session) : Option Value :=
  ((s.python P).get_struct name b.vvptr beyond depth slot [] ⟨heap, s.host⟩).toOption.bind
    fun r => r.2.heap.value depth r.1

/-- A session that writes nothing to the structure in a block, but allocates, writes other structures and
reads, leaves the block live, and `get_struct` makes the same object of it as before, or fails as before:
for every instance that is a tree, whose fields are elements of the block. -/
theorem structs_isolated {beyond : List String → Bytes} {depth : Nat} {v : Value} {slot : Slot}
    (run : (api M).Outcome (.ok s.interpreter)) (disjoint : s.interpreter.allocator.HostDisjoint)
    (coherent : s.host.caches.Coherent P.irx) (live : s.interpreter.allocator.Live b)
    (more : ((sessions P M s).under (Elsewhere b)).Outcome (.ok s'))
    (holds : Holds heap (.slot v slot) S) (deep : v.height ≤ depth)
    (pointers : ∀ path p info, (path, .PTR p) ∈ v.atoms [] → Told P.irx name path info →
      info.basicType = "PTR" ∨ info.basicType = "unknown")
    (inside : ∀ path a info p, (path, a) ∈ v.atoms [] → Told P.irx name path info →
      P.elementAddress name b.vptr info = some p →
        b.vptr ≤ p ∧ p + info.size_in_bytes ≤ b.vptr + b.size) :
    s'.interpreter.allocator.Live b ∧
      s'.object P name b beyond depth slot heap = s.object P name b beyond depth slot heap := by
  have keeps : s.Keeps P M b s' := session_invariant ⟨run, disjoint, coherent, live, rfl⟩ more
  have addressed : ∀ mem, Addressed (P.reading name b.vptr beyond mem) (v.atoms []) :=
    fun mem path p r there got => reading_pointer got fun info told => pointers path p info there told
  refine ⟨keeps.live, ?_⟩
  have now : s'.object P name b beyond depth slot heap =
      reread (P.reading name b.vptr beyond s'.host.mem) v [] :=
    get_struct_value (P := s'.python P) (translated_of_live keeps.run keeps.live) keeps.coherent holds deep
      (addressed _)
  have before : s.object P name b beyond depth slot heap =
      reread (P.reading name b.vptr beyond s.host.mem) v [] :=
    get_struct_value (P := s.python P) (translated_of_live run live) coherent holds deep (addressed _)
  rw [now, before]
  refine holds.reread_congr [] fun path a data there => reading_bytes data fun info p told address i lt => ?_
  obtain ⟨low, high⟩ := inside path a info p there told address
  have bytes := congrArg (·[p + i - b.vptr]?) keeps.bytes
  have lt : p + i - b.vptr < b.size := by omega
  have at_ : b.vptr + (p + i - b.vptr) = p + i := by omega
  simpa [Lib.read, lt, at_] using bytes

/-- A block for another label. -/
def otherBlock : Block := ⟨0x50000190, 0x7f0000006000, 96, 4⟩

/-- A label is in its structure. -/
def labelSession : Session :=
  ⟨dlistState, (labelInterpreter.set_struct "label" labelBlock.vvptr (labelTree "abc").value.tree []
    labelWorld.host).1⟩

/-- The blocks with one more for another label. -/
def otherState : MyInterpreter :=
  match dlistState.structAlloc dlistModule "struct.k_thread" 0x7f0000006000 with
  | .error _ => dlistState
  | .ok (_, i) => i

/-- The session with the other block. -/
def otherSession : Session := { labelSession with interpreter := otherState }

/-- Another label is in the other block. -/
def labelsSession : Session :=
  { otherSession with host := ((otherSession.python labelInterpreter).set_struct "label" otherBlock.vvptr
      (labelTree "xyz").value.tree [] otherSession.host).1 }

/-- What is written to the other label stays in it. -/
lemma other_inside {path : List String} {data : PyObj} {value : List UInt8} {o : Nat}
    (reached : ComesTo (otherSession.python labelInterpreter) "label"
      (visits (labelTree "xyz").value.tree []) path data)
    (sends : Sends (otherSession.python labelInterpreter) "label" path data value o) :
    o + value.length ≤ 96 := by
  have live : otherState.allocator.Live otherBlock := ⟨by decide, rfl⟩
  have gives : HostGives dlistState.allocator 0x7f0000006000 96 :=
    ⟨by decide, by decide, by decide, by decide⟩
  have run : (api dlistModule).Outcome (.ok otherState) :=
    Outcome.step (S := api dlistModule) (i := .structAlloc "struct.k_thread" 0x7f0000006000) dlist_run gives
  obtain ⟨ws, writes, _, all⟩ := perform_writes (P := otherSession.python labelInterpreter)
    (h := ⟨fun _ => 0, ⟨fun _ => none, fun _ => none⟩, []⟩) "label" (visits (labelTree "xyz").value.tree [])
    coherent_empty (translated_of_live (s := otherSession) run live)
  have known : ((otherSession.python labelInterpreter).set_struct "label" otherBlock.vvptr
      (labelTree "xyz").value.tree [] ⟨fun _ => 0, ⟨fun _ => none, fun _ => none⟩, []⟩).1.writes =
      [⟨["name"], 0x7f0000006000, [120, 121, 122, 0]⟩, ⟨["id"], 0x7f0000006004, [7, 0, 0, 0]⟩] := by
    decide +kernel
  rw [← set_struct_eq, known, List.nil_append] at writes
  have there := (all _).2 ⟨path, data, value, o, reached, sends, rfl⟩
  have small := sends.small
  have straight : word (otherBlock.vptr + o) = 0x7f0000006000 + o := word_of_lt (by
    have at_ : otherBlock.vptr = 0x7f0000006000 := rfl
    omega)
  rw [← writes, List.mem_cons, List.mem_singleton, straight] at there
  obtain e | e := there
  · obtain ⟨_, at_, rfl⟩ := FieldWrite.mk.inj e
    simp only [List.length_cons, List.length_nil]
    omega
  · obtain ⟨_, at_, rfl⟩ := FieldWrite.mk.inj e
    simp only [List.length_cons, List.length_nil]
    omega

/-- The other label is set in a session. -/
lemma label_session : ((sessions labelInterpreter dlistModule labelSession).under
    (Elsewhere labelBlock)).Outcome (.ok labelsSession) := by
  have gives : HostGives dlistState.allocator 0x7f0000006000 96 :=
    ⟨by decide, by decide, by decide, by decide⟩
  have fresh : Fresh dlistState.allocator 0x7f0000006000 96 := by
    intro c live
    have := (dlist_blocks live).2
    omega
  have returned : labelSession.interpreter.structAlloc dlistModule "struct.k_thread" 0x7f0000006000 =
      .ok (⟨otherBlock.vvptr, otherBlock.vptr, otherBlock.size⟩, otherState) := rfl
  have allocated : StructCall.run labelInterpreter dlistModule labelSession
      (.structAlloc "struct.k_thread" 0x7f0000006000) = .ok otherSession := by
    rw [StructCall.run, returned, otherSession]
  have allowed : (StructCall.structAlloc "struct.k_thread" 0x7f0000006000).Allowed labelInterpreter
      dlistModule labelSession := ⟨gives, fresh⟩
  have first : ((sessions labelInterpreter dlistModule labelSession).under
      (Elsewhere labelBlock)).Outcome (.ok otherSession) :=
    session_next .start allowed trivial allocated
  have live : otherState.allocator.Live otherBlock := ⟨by decide, rfl⟩
  have other : otherBlock ≠ labelBlock := by decide
  have ended : (((otherSession.python labelInterpreter).set_struct "label" otherBlock.vvptr
      (labelTree "xyz").value.tree [] otherSession.host).2).isNone = true := by decide +kernel
  have wrote : StructCall.run labelInterpreter dlistModule otherSession
      (.set_struct "label" otherBlock (labelTree "xyz").value.tree) = .ok labelsSession :=
    StructCall.run_set_struct (Option.isNone_iff_eq_none.1 ended)
  have allowed : (StructCall.set_struct "label" otherBlock (labelTree "xyz").value.tree).Allowed
      labelInterpreter dlistModule otherSession := ⟨live, fun _ _ _ _ => other_inside⟩
  exact session_next first allowed other wrote

/-- A label is read as before when another one was written. -/
theorem structs_isolated_label :
    labelsSession.object labelInterpreter "label" labelBlock (fun _ _ => 0) 3 (.ref 1) labelHeap =
      labelSession.object labelInterpreter "label" labelBlock (fun _ _ => 0) 3 (.ref 1) labelHeap := by
  have run : (api dlistModule).Outcome (.ok labelSession.interpreter) := dlist_run
  have disjoint : labelSession.interpreter.allocator.HostDisjoint := dlist_hostDisjoint
  have live : labelSession.interpreter.allocator.Live labelBlock := ⟨by decide, rfl⟩
  have ended : (labelInterpreter.set_struct "label" labelBlock.vvptr (labelTree "abc").value.tree []
      labelWorld.host).2.isNone = true := by decide +kernel
  have coherent : labelSession.host.caches.Coherent labelInterpreter.irx := by
    have kept := perform_coherent (P := labelInterpreter) "label" (visits (labelTree "abc").value.tree [])
      labelWorld.host coherent_empty (translated_of_live (P := labelInterpreter) run live)
    rw [← set_struct_eq] at kept
    rw [labelSession]
    dsimp only
    exact kept (Option.isNone_iff_eq_none.1 ended)
  obtain ⟨S, holds⟩ := label_holds
  have deep : labelNew.height ≤ 3 := by decide
  have atoms : labelNew.atoms [] = [(["name"], .value (.str "")), (["id"], .value (.int 0))] := rfl
  refine (structs_isolated run disjoint coherent live label_session holds deep
    (fun path p info mem => ?_) fun path a info p mem told address => ?_).2
  · rw [atoms] at mem
    simp at mem
  · rw [atoms, List.mem_cons, List.mem_singleton] at mem
    obtain e | e := mem
    · cases e
      cases label_told_name.unique told
      have here : labelInterpreter.elementAddress "label" labelBlock.vptr
        ⟨"char", 32, 4, [0, 0], [none, none]⟩ = some 0x7f0000004000 := rfl
      cases here.symm.trans address
      decide
    · cases e
      cases label_told_id.unique told
      have here : labelInterpreter.elementAddress "label" labelBlock.vptr
        ⟨"int", 32, 4, [0, 1], [none, none]⟩ = some 0x7f0000004004 := rfl
      cases here.symm.trans address
      decide

end Irx.Python
