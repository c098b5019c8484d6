import Irx.Debug.Paths
import Irx.Lib.Bytes
import Irx.Lib.Extents
import Irx.Memory.ApiRuns

/-!
# Fields of a structure in memory

`irx_struct_set` and `irx_struct_get` translate the address of a structure, add the offset of a path and
copy bytes. In a live block of a union-free structure every field has its own bytes inside the block
(`fieldAddress_spec`, `fields_apart`), so the accesses behave like those to the fields of a record
(`irx_struct_set_get`).
-/

namespace Irx.Debug
open Irx.Lib Irx.Memory System

/-- The size of a structure, or `0` where there is no type of the name. The store size of a structure
type is its size with padding. -/
def irx_struct_get_size (IR : IRModule) (name : String) (caches : Caches) : Nat × Caches :=
  match getTypeByName IR name caches with
  | (none, caches) => (0, caches)
  | (some Ty, caches) => (IR.layout.allocSize Ty, caches)

section Access

variable (IR : IRModule) (a : MapAllocator) (name : String) (m : Nat) (path : List String)

/-- `PTR_ADD(m, offset)` behind the translation of `m`. -/
def fieldAddress (caches : Caches) : Except Abort (Nat × Caches) := do
  let m ← vvptr2vptr a m
  let (offset_bit, caches) ← offsetInBitsFromPath IR name path caches
  .ok (word (m + offset_bit / 8), caches)

/-- `irx_struct_set`: the bytes are written to the address of the field. -/
def irx_struct_set (value : List UInt8) (mem : Bytes) (caches : Caches) :
    Except Abort (Bytes × Caches) := do
  let (p, caches) ← fieldAddress IR a name m path caches
  .ok (write mem p value, caches)

/-- `irx_struct_get`: so many bytes are read from the address of the field. -/
def irx_struct_get (len : Nat) (mem : Bytes) (caches : Caches) :
    Except Abort (List UInt8 × Caches) := do
  let (p, caches) ← fieldAddress IR a name m path caches
  .ok (read mem p len, caches)

end Access

/-- The path names a field of basic or pointer type, or an array element of basic type. -/
structure NamesField (name : String) (fields : Fields) (path : List String) (steps : List Selection)
    (t : CType) : Prop where
  valid : (CType.struct name fields).trace path = some (steps, t)
  leaf : t.IsLeaf

/-- A live block of a union-free structure. -/
structure StructBlock (IR : IRModule) (name : String) (fields : Fields) (s : MyInterpreter)
    (b : Block) : Prop where
  reachable : ∃ M, (api M).Outcome (.ok s)
  live : s.allocator.Live b
  compiled : Compiled IR name fields
  free : fields.unionFree = true
  size : b.size = (irx_struct_get_size IR ("struct." ++ name) ⟨fun _ => none, fun _ => none⟩).1

variable {IR : IRModule} {name : String} {fields : Fields} {s : MyInterpreter} {b : Block}
variable {path path' : List String} {steps steps' : List Selection} {t t' : CType} {caches : Caches}

/-! ### What the search says of a path -/

/-- The search returns nothing, or indices behind those that it has. -/
lemma gepLoop_extends {g : DebugInfo} {needle : List String} {CTy : Option Nat}
    {indices out : List DITypedIndex} (e : gepLoop g CTy indices needle = .ok out) :
    out = [] ∨ ∃ sub, out = indices ++ sub := by
  induction needle generalizing CTy indices with
  | nil =>
    rw [gepLoop_nil] at e
    cases e
    exact .inr ⟨[], (List.append_nil _).symm⟩
  | cons component needle ih =>
    cases CTy with
    | none =>
      cases e
      exact .inl rfl
    | some c =>
      rw [gepLoop] at e
      obtain ⟨sub, _, e⟩ := bind_eq_ok.1 e
      cases last : sub.getLast? with
      | none =>
        rw [last] at e
        cases e
        exact .inl rfl
      | some back =>
        simp only [last] at e
        obtain ⟨DIBTy, _, e⟩ := bind_eq_ok.1 e
        cases DIBTy with
        | none => cases e
        | some n =>
          obtain nothing | ⟨more, rfl⟩ := ih e
          · exact .inl nothing
          · exact .inr ⟨sub ++ more, List.append_assoc ..⟩

/-- What a fresh search says of a path. -/
def Told (IR : IRModule) (name : String) (path : List String) (info : BasicTypeInfo) : Prop :=
  (GEP IR.debug (IR.types.find? (isStructNamed IR name)) path >>= fieldInfo IR) = .ok info

/-- There is one answer for a path. -/
lemma Told.unique {info info' : BasicTypeInfo} (first : Told IR name path info)
    (second : Told IR name path info') : info = info' := Except.ok.inj (Eq.trans first.symm second)

/-- The answer lists the indices found. -/
lemma fieldInfo_gep {out : List DITypedIndex} {info : BasicTypeInfo} (told : fieldInfo IR out = .ok info) :
    info.gep = out.map DITypedIndex.index := by
  rw [fieldInfo] at told
  cases last : out.getLast? with
  | none =>
    rw [last] at told
    cases told
    rw [List.getLast?_eq_none_iff.1 last]
    rfl
  | some back =>
    simp only [last] at told
    obtain ⟨_, _, told⟩ := bind_eq_ok.1 told
    obtain ⟨_, _, told⟩ := bind_eq_ok.1 told
    obtain ⟨_, _, told⟩ := bind_eq_ok.1 told
    cases told
    rw [List.map_map]
    rfl

/-- The indices come without types, and the first is that of the structure itself. -/
lemma Told.gep {info : BasicTypeInfo} (told : Told IR name path info) :
    info.STys = List.replicate info.gep.length none ∧ (info.gep = [] ∨ ∃ is, info.gep = 0 :: is) := by
  obtain ⟨out, found, told⟩ := bind_eq_ok.1 told
  rw [fieldInfo] at told
  cases last : out.getLast? with
  | none =>
    rw [last] at told
    cases told
    exact ⟨rfl, .inl rfl⟩
  | some back =>
    simp only [last] at told
    obtain ⟨_, _, told⟩ := bind_eq_ok.1 told
    obtain ⟨_, _, told⟩ := bind_eq_ok.1 told
    obtain ⟨_, _, told⟩ := bind_eq_ok.1 told
    cases told
    refine ⟨?_, ?_⟩
    · rw [List.map_map, List.map_map, List.length_map, ← List.map_const']
      rfl
    · obtain rfl | ⟨sub, rfl⟩ := gepLoop_extends found
      · cases last
      · exact .inr ⟨_, rfl⟩

/-- A lookup says what a fresh search says. -/
lemma getStructFieldInfo2_cases (name : String) (path : List String) (coherent : caches.Coherent IR) :
    (∃ info caches', Told IR name path info ∧ caches'.Coherent IR ∧
      getStructFieldInfo2 IR name path caches = .ok (info, caches')) ∨
    ((∀ info, ¬ Told IR name path info) ∧ ∃ e, getStructFieldInfo2 IR name path caches = .error e) := by
  obtain ⟨di, found, coherent'⟩ := findStructDebugInfo_spec name coherent
  have start : getStructFieldInfo2 IR name path caches =
      (GEP IR.debug (IR.types.find? (isStructNamed IR name)) path >>= fieldInfo IR) >>= fun info =>
        .ok (info, { caches with di := di }) := by
    rw [getStructFieldInfo2, bind_ok found, bind_assoc]
    rfl
  cases told : (GEP IR.debug (IR.types.find? (isStructNamed IR name)) path >>= fieldInfo IR) with
  | ok info => exact .inl ⟨info, _, told, coherent', start.trans (bind_ok told _)⟩
  | error e =>
    refine .inr ⟨fun info told' => ?_, e, start.trans (bind_error told _)⟩
    cases told.symm.trans told'

/-- There is an offset only where the search has an answer. -/
lemma offsetInBitsFromPath_told {r : Nat × Caches} (coherent : caches.Coherent IR)
    (ran : offsetInBitsFromPath IR name path caches = .ok r) : ∃ info, Told IR name path info := by
  obtain ⟨⟨Ty, caches1⟩, typed, ran⟩ := bind_eq_ok.1 ran
  obtain ⟨⟨indices, caches2⟩, indexed, _⟩ := bind_eq_ok.1 ran
  obtain ⟨⟨info, caches3⟩, answered, _⟩ := bind_eq_ok.1 indexed
  have coherent1 : caches1.Coherent IR := by
    have kept := (getTypeByName_spec ("struct." ++ name) coherent).2
    rw [getStructTypeByName] at typed
    generalize getTypeByName IR ("struct." ++ name) caches = answer at typed kept
    obtain ⟨_ | Ty', caches'⟩ := answer
    · cases typed
    · cases typed
      exact kept
  obtain ⟨info', _, told, _⟩ | ⟨_, e, failed⟩ := getStructFieldInfo2_cases name path coherent1
  · exact ⟨info', told⟩
  · cases failed.symm.trans answered

/-- The offset of a path is that of the indices found in the structure type, if they apply there. -/
lemma offsetInBitsFromPath_cases {info : BasicTypeInfo} (coherent : caches.Coherent IR)
    (told : Told IR name path info) :
    (∃ is Ty o caches', info.gep = 0 :: is ∧ getTypeByNameUncached IR ("struct." ++ name) = some Ty ∧
      walk IR.layout Ty is = some o ∧ caches'.Coherent IR ∧
      offsetInBitsFromPath IR name path caches = .ok (word (8 * o), caches')) ∨
    ((∀ is Ty o, info.gep = 0 :: is → getTypeByNameUncached IR ("struct." ++ name) = some Ty →
      walk IR.layout Ty is ≠ some o) ∧ ∃ e, offsetInBitsFromPath IR name path caches = .error e) := by
  obtain ⟨lookup, coherent1⟩ := getTypeByName_spec ("struct." ++ name) coherent
  rw [offsetInBitsFromPath, getStructTypeByName]
  generalize getTypeByName IR ("struct." ++ name) caches = answer at lookup coherent1 ⊢
  obtain ⟨Ty, caches1⟩ := answer
  cases Ty with
  | none =>
    refine .inr ⟨fun is Ty o _ typed => ?_, _, rfl⟩
    cases lookup.trans typed
  | some Ty =>
    simp only [ok_bind]
    obtain ⟨types, start⟩ := told.gep
    obtain ⟨info', caches2, told', coherent2, e⟩ | ⟨none, _⟩ :=
      getStructFieldInfo2_cases name path coherent1
    case inr => exact absurd told (none info)
    cases told.unique told'
    have indices : GEPIndices IR name path caches1 =
        if (info.gep.map plainIndex).length > 0 then .ok (info.gep.map plainIndex, caches2)
        else .error .assertion := by
      have plain := typedIndices_eq info.gep info.gep.length
      rw [← types] at plain
      rw [GEPIndices, bind_ok e]
      simp only [plain]
    obtain nothing | ⟨is, start⟩ := start
    · rw [nothing] at indices
      refine .inr ⟨fun is Ty o start => ?_, _, bind_error indices _⟩
      cases nothing.symm.trans start
    · rw [start] at indices
      simp only [List.length_map, List.length_cons, Nat.succ_pos, gt_iff_lt, if_true] at indices
      rw [bind_ok indices]
      simp only [GEP2Offset_spec]
      cases walked : walk IR.layout Ty is with
      | none =>
        refine .inr ⟨fun is' Ty' o start' typed walked' => ?_, _, rfl⟩
        cases start.symm.trans start'
        cases lookup.trans typed
        cases walked.symm.trans walked'
      | some o =>
        have whole : word (8 * o) &&& 0x07 = 0 := by
          apply and_seven
          rw [word]
          omega
        refine .inl ⟨is, Ty, o, caches2, start, lookup.symm, walked, coherent2, ?_⟩
        simp only [ok_bind, if_pos whole]

/-! ### Fields of a live block -/

/-- The size asked for does not depend on what is cached. -/
lemma irx_struct_get_size_spec (coherent : caches.Coherent IR) (compiled : Compiled IR name fields) :
    (irx_struct_get_size IR ("struct." ++ name) caches).1 =
      IR.layout.allocSize ((CType.struct name fields).lower IR.layout) := by
  have lookup := (getTypeByName_spec ("struct." ++ name) coherent).1
  rw [compiled.lowered] at lookup
  rw [irx_struct_get_size]
  generalize getTypeByName IR ("struct." ++ name) caches = answer at lookup
  obtain ⟨Ty, caches'⟩ := answer
  cases lookup
  rfl

/-- What `structAlloc` returns is a live block of the size asked for. -/
lemma structAlloc_live {M : Module} {alloc : IrxAlloc} {s' : MyInterpreter} {vmem : Nat}
    (run : (api M).Outcome (.ok s)) (host : HostGives s.allocator vmem (M.structSize name))
    (e : s.structAlloc M name vmem = .ok (alloc, s')) :
    ∃ node, s'.allocator.Live ⟨alloc.vvptr, vmem, M.structSize name, node⟩ := by
  obtain ⟨base, mark, A, extra, inv⟩ := outcome_invariant run
  rcases inv.malloc host with ⟨_, full⟩ | ⟨room, s1, done, inv'⟩
  · cases full.symm.trans e
  · cases done.symm.trans e
    refine ⟨s.allocator.nextNode, inv'.rep.live_iff.2 ?_⟩
    rw [AddressSpace.grow_blocks]
    exact List.mem_append_right _ (.head _)

/-- The path of a field has a component. -/
lemma NamesField.nonempty (field : NamesField name fields path steps t) : path ≠ [] := by
  rintro rfl
  have valid := field.valid
  have leaf := field.leaf
  cases valid
  exact leaf

/-- The path of a field ends at a field. -/
lemma NamesField.atField (field : NamesField name fields path steps t) : AtField steps t := by
  intro _ record
  have leaf := field.leaf
  cases t with
  | struct => exact leaf
  | union => exact leaf
  | basic => exact record
  | pointer => exact record
  | typedef => exact record
  | array => exact record

namespace StructBlock

/-- The block has the size of the structure. -/
lemma size_eq (block : StructBlock IR name fields s b) :
    b.size = IR.layout.allocSize ((CType.struct name fields).lower IR.layout) :=
  block.size.trans (irx_struct_get_size_spec coherent_empty block.compiled)

/-- A block is no larger than the interpreter's addresses. -/
lemma size_le (block : StructBlock IR name fields s b) : b.size ≤ vvsize := by
  obtain ⟨M, run⟩ := block.reachable
  obtain ⟨base, mark, A, extra, inv⟩ := outcome_invariant run
  obtain ⟨low, high⟩ := inv.rep.consistent.inside b block.live
  rw [Block.stop, endAddr] at high
  omega

/-- The field lies inside the block. -/
lemma inside (block : StructBlock IR name fields s b) (lawful : IR.layout.Lawful)
    (field : NamesField name fields path steps t) :
    offset IR.layout steps + t.valueSize IR.layout ≤ b.size := by
  have inside := (CType.trace_along field.valid).inside lawful block.free
  have sizes := (field.leaf.sizes lawful).1
  rw [block.size_eq]
  omega

/-- The indices on the way to a field fit the `int` that the search reads. -/
lemma representable (block : StructBlock IR name fields s b) (lawful : IR.layout.Lawful)
    (field : NamesField name fields path steps t) : Representable steps := by
  intro sel mem elem count array
  obtain ⟨_, i⟩ := sel
  cases array
  have lt := (CType.trace_along field.valid).index_lt lawful block.free
    (field.leaf.sizes lawful).2 mem
  have le := block.size_le
  rw [block.size_eq, vvsize] at le
  show i ≤ _
  omega

/-- The address of a field is its offset behind the host memory of the block. -/
lemma fieldAddress_spec (block : StructBlock IR name fields s b) (lawful : IR.layout.Lawful)
    (field : NamesField name fields path steps t) (coherent : caches.Coherent IR) :
    ∃ caches', caches'.Coherent IR ∧ fieldAddress IR s.allocator name b.vvptr path caches =
      .ok (b.vptr + offset IR.layout steps, caches') := by
  obtain ⟨M, run⟩ := block.reachable
  obtain ⟨base, mark, A, extra, inv⟩ := outcome_invariant run
  have live := inv.rep.live_iff.1 block.live
  have translated := inv.rep.vvptr2vptr_inside live le_rfl (Nat.le_add_right _ _)
  rw [Nat.sub_self, Nat.add_zero] at translated
  have along := CType.trace_along field.valid
  have law := walk_eq_offset along (along.keeps_of_unionFree (D := IR.layout) block.free)
  obtain ⟨caches', coherent', found⟩ := (offsetInBitsFromPath_iff coherent block.compiled field.valid
    field.nonempty).2 ⟨block.representable lawful field, field.atField, _, law, rfl⟩
  refine ⟨caches', coherent', ?_⟩
  have inside := block.inside lawful field
  have small := block.size_le
  have host := inv.rep.host b live
  rw [vvsize] at small
  -- neither the offset in bits nor the address wraps around
  have bits : word (8 * offset IR.layout steps) = 8 * offset IR.layout steps := by
    apply word_of_lt
    omega
  rw [fieldAddress, bind_ok translated, bind_ok found, bits]
  show Except.ok (word (b.vptr + 8 * offset IR.layout steps / 8), caches') = _
  rw [Nat.mul_div_cancel_left _ (by decide), word_of_lt (by omega)]

/-- Different fields have no byte in common. -/
lemma fields_apart (block : StructBlock IR name fields s b) (lawful : IR.layout.Lawful)
    (field : NamesField name fields path steps t) (field' : NamesField name fields path' steps' t')
    (ne : steps ≠ steps') :
    offset IR.layout steps + t.valueSize IR.layout ≤ offset IR.layout steps' ∨
      offset IR.layout steps' + t'.valueSize IR.layout ≤ offset IR.layout steps := by
  have along := CType.trace_along field.valid
  have along' := CType.trace_along field'.valid
  have sizes := (field.leaf.sizes lawful).1
  have sizes' := (field'.leaf.sizes lawful).1
  have apart := along.apart lawful along' block.free (along.part along' field.leaf field'.leaf ne)
  omega

/-- Setting a field writes the bytes to the address that C gives it. -/
lemma set_spec (block : StructBlock IR name fields s b) (lawful : IR.layout.Lawful)
    (field : NamesField name fields path steps t) (coherent : caches.Coherent IR)
    (value : List UInt8) (mem : Bytes) :
    ∃ caches', caches'.Coherent IR ∧
      irx_struct_set IR s.allocator name b.vvptr path value mem caches =
        .ok (write mem (b.vptr + offset IR.layout steps) value, caches') := by
  obtain ⟨caches', coherent', found⟩ := block.fieldAddress_spec lawful field coherent
  exact ⟨caches', coherent', bind_ok found _⟩

/-- Getting a field reads the bytes from the address that C gives it. -/
lemma get_spec (block : StructBlock IR name fields s b) (lawful : IR.layout.Lawful)
    (field : NamesField name fields path steps t) (coherent : caches.Coherent IR)
    (len : Nat) (mem : Bytes) :
    ∃ caches', caches'.Coherent IR ∧
      irx_struct_get IR s.allocator name b.vvptr path len mem caches =
        .ok (read mem (b.vptr + offset IR.layout steps) len, caches') := by
  obtain ⟨caches', coherent', found⟩ := block.fieldAddress_spec lawful field coherent
  exact ⟨caches', coherent', bind_ok found _⟩

end StructBlock

/-- Fields are set and read independently. For every live block of a union-free structure and two paths
to fields, with values of the size of their fields: the bytes touched lie inside the block, a get after
a set of the same field returns the value, and if the fields are different, a set of one leaves what a
get of the other returns, and sets of both commute. -/
theorem irx_struct_set_get {IR : IRModule} {name : String} {fields : Fields} {s : MyInterpreter}
    {b : Block} {path path' : List String} {steps steps' : List Selection} {t t' : CType}
    {caches : Caches} {value value' : List UInt8} (lawful : IR.layout.Lawful)
    (block : StructBlock IR name fields s b) (coherent : caches.Coherent IR)
    (field : NamesField name fields path steps t)
    (field' : NamesField name fields path' steps' t')
    (length : value.length = t.valueSize IR.layout)
    (length' : value'.length = t'.valueSize IR.layout) (mem : Bytes) :
    let set := fun path value (at_ : Bytes × Caches) =>
      irx_struct_set IR s.allocator name b.vvptr path value at_.1 at_.2
    let get := fun path len (at_ : Bytes × Caches) =>
      irx_struct_get IR s.allocator name b.vvptr path len at_.1 at_.2
    (∃ addr caches', fieldAddress IR s.allocator name b.vvptr path caches = .ok (addr, caches') ∧
      b.vptr ≤ addr ∧ addr + value.length ≤ b.vptr + b.size) ∧
    (∃ caches', set path value (mem, caches) >>= get path value.length = .ok (value, caches')) ∧
    (steps ≠ steps' →
      (∃ old caches' caches'', get path' value'.length (mem, caches) = .ok (old, caches') ∧
        set path value (mem, caches) >>= get path' value'.length = .ok (old, caches'')) ∧
      (∃ mem' caches' caches'', set path value (mem, caches) >>= set path' value' =
          .ok (mem', caches') ∧
        set path' value' (mem, caches) >>= set path value = .ok (mem', caches''))) := by
  intro set get
  obtain ⟨c, coherent1, done⟩ := block.set_spec lawful field coherent value mem
  refine ⟨?_, ?_, fun ne => ⟨?_, ?_⟩⟩
  · obtain ⟨caches', _, found⟩ := block.fieldAddress_spec lawful field coherent
    have inside := block.inside lawful field
    exact ⟨_, caches', found, Nat.le_add_right _ _, by omega⟩
  · obtain ⟨caches', _, got⟩ := block.get_spec lawful field coherent1 value.length
      (write mem (b.vptr + offset IR.layout steps) value)
    rw [read_write] at got
    exact ⟨caches', (bind_ok done _).trans got⟩
  · have apart := block.fields_apart lawful field field' ne
    obtain ⟨c1, _, before⟩ := block.get_spec lawful field' coherent value'.length mem
    obtain ⟨c2, _, after⟩ := block.get_spec lawful field' coherent1 value'.length
      (write mem (b.vptr + offset IR.layout steps) value)
    rw [read_write_of_apart (by omega)] at after
    exact ⟨_, c1, c2, before, (bind_ok done _).trans after⟩
  · have apart := block.fields_apart lawful field field' ne
    obtain ⟨c', coherent2, done'⟩ := block.set_spec lawful field' coherent value' mem
    obtain ⟨c1, _, both⟩ := block.set_spec lawful field' coherent1 value'
      (write mem (b.vptr + offset IR.layout steps) value)
    obtain ⟨c2, _, both'⟩ := block.set_spec lawful field coherent2 value
      (write mem (b.vptr + offset IR.layout steps') value')
    rw [write_comm (by omega)] at both
    exact ⟨_, c1, c2, (bind_ok done _).trans both, (bind_ok done' _).trans both'⟩

/-- The debug types of `struct thread { struct { unsigned long long id; int n[2]; } base; void *ptr; }`. -/
def threadDebug : DebugInfo := .ofList [
  .composite .structureType "thread" 192 none [.type 1, .type 2],
  .derived .member "base" 128 (some 3),
  .derived .member "ptr" 64 (some 7),
  .composite .structureType "" 128 none [.type 4, .type 5],
  .derived .member "id" 64 (some 8),
  .derived .member "n" 64 (some 6),
  .composite .arrayType "" 64 (some 9) [.other],
  .derived .pointerType "" 64 none,
  .basic "unsigned long long" 64,
  .basic "int" 32] (by decide)

/-- The members of the inner structure. -/
def threadBase : Fields :=
  .cons "id" (.basic "unsigned long long" 64) (.cons "n" (.array (.basic "int" 32) 2) .nil)

/-- The members of `struct thread`. -/
def threadFields : Fields := .cons "base" (.struct "" threadBase) (.cons "ptr" .pointer .nil)

/-- A module with `struct thread`, which has no padding. -/
def threadModule : IRModule where
  debug := threadDebug
  types := [0]
  structTypes := [("struct.thread", (CType.struct "thread" threadFields).lower .packed)]
  layout := .packed
  isLayoutIdentical := fun _ _ => true
  identical_self := fun _ => rfl

/-- The structure is in the debug info and in the module. -/
lemma thread_compiled : Compiled threadModule "thread" threadFields := by
  have long : Describes threadDebug (.basic "unsigned long long" 64) 8 := ⟨rfl, rfl⟩
  have ints : Describes threadDebug (.array (.basic "int" 32) 2) 6 :=
    ⟨"", 64, _, 9, rfl, trivial, rfl, rfl⟩
  have base : Describes threadDebug (.struct "" threadBase) 3 :=
    ⟨128, none, _, rfl, 4, 64, 8, _, rfl, rfl, rfl, nofun, long, 5, 64, 6, _, rfl, rfl, rfl, nofun,
      ints, rfl⟩
  have ptr : Describes threadDebug .pointer 7 := ⟨"", 64, none, rfl, rfl⟩
  exact ⟨⟨0, rfl, 192, none, _, rfl, 1, 128, 3, _, rfl, rfl, rfl, nofun, base, 2, 64, 7, _, rfl, rfl, rfl,
    nofun, ptr, rfl⟩, rfl⟩

/-- The same module in an execution engine, without globals and functions. -/
def threadEngine : Memory.Module where
  globals := []
  functions := []
  structSize := fun name =>
    (irx_struct_get_size threadModule name ⟨fun _ => none, fun _ => none⟩).1
  fits := nofun
  fits_function := nofun
  distinct := .nil

/-- The interpreter with one `struct thread`. -/
def threadState : MyInterpreter where
  allocator := {
    allocationsHolder := [⟨0, ⟨0x7f0000001000, 24⟩⟩]
    vvmemStart := OrdMap.empty.insert startAddr 0
    vvmemEnd := OrdMap.empty.insert (startAddr + 24) 0
    allocations := [0x7f0000001000]
    vma := ⟨startAddr + 28, [startAddr]⟩
    nextNode := 1 }
  allocations := [startAddr]
  globals := []

/-- The first block is for the structure. -/
lemma thread_block :
    StructBlock threadModule "thread" threadFields threadState ⟨startAddr, 0x7f0000001000, 24, 0⟩ where
  reachable := by
    have host : HostGives (MapAllocator.freeze {}) 0x7f0000001000 24 :=
      ⟨by decide, by decide, by decide, nofun⟩
    exact ⟨threadEngine, Outcome.step (S := api threadEngine)
      (i := .structAlloc "struct.thread" 0x7f0000001000) .start host⟩
  live := ⟨.head _, rfl⟩
  compiled := thread_compiled
  free := rfl
  size := rfl

/-- The second element of the inner array, beside the pointer. -/
theorem irx_struct_set_get_thread :
    ∃ caches', irx_struct_set threadModule threadState.allocator "thread" startAddr
        ["base", "n", "1"] [1, 2, 3, 4] (fun _ => 0) ⟨fun _ => none, fun _ => none⟩ >>= (fun at_ =>
          irx_struct_get threadModule threadState.allocator "thread" startAddr ["base", "n", "1"] 4
            at_.1 at_.2) = .ok ([1, 2, 3, 4], caches') := by
  have field : NamesField "thread" threadFields ["base", "n", "1"] [(.struct "thread" threadFields, 0),
      (.struct "" threadBase, 1), (.array (.basic "int" 32) 2, 1)] (.basic "int" 32) :=
    ⟨rfl, trivial⟩
  have field' : NamesField "thread" threadFields ["ptr"] [(.struct "thread" threadFields, 1)]
      .pointer := ⟨rfl, trivial⟩
  have length : List.length ([1, 2, 3, 4] : List UInt8) =
      (CType.basic "int" 32).valueSize threadModule.layout := rfl
  have length' : List.length ([0, 0, 0, 0, 0, 0, 0, 0] : List UInt8) =
      CType.pointer.valueSize threadModule.layout := rfl
  exact (irx_struct_set_get DataLayout.packed_lawful thread_block coherent_empty field field' length
    length' (fun _ => 0)).2.1

end Irx.Debug
