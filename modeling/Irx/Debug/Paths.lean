import Irx.Debug.Describes
import Irx.Debug.Offsets

/-!
# The offset of a path

`offsetInBitsFromPath` on a module that a compiler wrote: it throws where an index exceeds an `int`,
fails an assertion where the path ends at an array element that is a record itself, and otherwise
sums the offsets of the indices in the lowered type (`offsetInBitsFromPath_iff`). With the law of
indices this is the offset of the path in C for union-free types (`offset_unionFree`).
-/

namespace Irx.Debug
open Irx.Lib

variable {M : IRModule} {g : DebugInfo} {t : CType} {n : Nat} {steps : List Selection}
variable {D : DataLayout} {caches : Caches} {name : String}

/-- The path does not end at an array element that is itself a structure or union. -/
def AtField (steps : List Selection) (t : CType) : Prop := EndsInArray steps → ¬ IsRecord t

/-- Every cached answer is the one a search gives. -/
structure Caches.Coherent (M : IRModule) (caches : Caches) : Prop where
  di : ∀ name hit, caches.di name = some hit → hit = M.types.find? (isStructNamed M name)
  st : ∀ name hit, caches.st name = some hit → hit = getTypeByNameUncached M name

/-- What the compiler wrote for a structure type: the first structure type of the name in the debug
info describes it, and the first LLVM type of the name is what it is lowered to. -/
structure Compiled (M : IRModule) (name : String) (fields : Fields) : Prop where
  debug : ∃ n, M.types.find? (isStructNamed M name) = some n ∧
    Describes M.debug (.struct name fields) n
  lowered : getTypeByNameUncached M ("struct." ++ name) =
    some ((CType.struct name fields).lower M.layout)

/-! ### Lookups -/

/-- Empty caches are coherent. -/
lemma coherent_empty : Caches.Coherent M ⟨fun _ => none, fun _ => none⟩ := ⟨nofun, nofun⟩

/-- A lookup through a coherent cache gives what a search gives and keeps the cache coherent. -/
lemma findStructDebugInfo_spec (name : String) (coherent : caches.Coherent M) :
    ∃ di, findStructDebugInfo M name (some caches.di) =
        .ok (M.types.find? (isStructNamed M name), some di) ∧
      Caches.Coherent M { caches with di := di } := by
  rw [findStructDebugInfo]
  cases hit : caches.di name with
  | some answer =>
    refine ⟨caches.di, ?_, coherent⟩
    simp only [Option.bind_some, hit]
    rw [coherent.di name answer hit]
  | none =>
    simp only [Option.bind_some, hit]
    have keep : ∀ answer, answer = M.types.find? (isStructNamed M name) →
        Caches.Coherent M { caches with di := Function.update caches.di name (some answer) } := by
      intro answer fresh
      refine ⟨fun name' hit' e => ?_, coherent.st⟩
      by_cases same : name' = name
      · subst same
        cases (Function.update_self ..).symm.trans e
        exact fresh
      · exact coherent.di name' hit' ((Function.update_of_ne same ..).symm.trans e)
    cases search : M.types.find? (isStructNamed M name) with
    | some CTy => exact ⟨_, rfl, keep _ search.symm⟩
    | none => exact ⟨_, rfl, keep _ search.symm⟩

/-- The same of the lookup of an LLVM type. -/
lemma getTypeByName_spec (name : String) (coherent : caches.Coherent M) :
    (getTypeByName M name caches).1 = getTypeByNameUncached M name ∧
      (getTypeByName M name caches).2.Coherent M := by
  rw [getTypeByName]
  cases hit : caches.st name with
  | some answer => exact ⟨coherent.st name answer hit, coherent⟩
  | none =>
    refine ⟨rfl, coherent.di, fun name' hit' e => ?_⟩
    by_cases same : name' = name
    · subst same
      cases (Function.update_self ..).symm.trans e
      rfl
    · exact coherent.st name' hit' ((Function.update_of_ne same ..).symm.trans e)

/-! ### Field information -/

/-- One round of the loop ends if the loop does on the nodes of lower rank. -/
lemma toBasicTypeLoop_round {fuel m : Nat}
    (ih : ∀ {DITy : Option Nat}, (∀ n, DITy = some n → g.rank n < fuel) →
      ∃ r, toBasicTypeLoop g.node fuel DITy = .ok r)
    (le : g.rank m ≤ fuel)
    (lt : ∀ tag name bits base, g.node m = .derived tag name bits base → g.rank m < fuel) :
    ∃ r, secondHalf g.node (toBasicTypeLoop g.node fuel) m = .ok r := by
  rw [secondHalf]
  split
  · exact ⟨_, rfl⟩
  case h_2 base elements node =>
    split
    · refine ih fun b e => ?_
      subst e
      exact (g.rank_base _ _ _ _ _ _ node).trans_le le
    · exact ⟨_, toBasicTypeLoop_none _⟩
  case h_3 node =>
    refine ih fun b e => ?_
    cases e
    exact lt _ _ _ _ node
  · exact ⟨_, toBasicTypeLoop_none _⟩

/-- The loop ends if it may take a round for each rank. -/
lemma toBasicTypeLoop_ok {fuel : Nat} {DITy : Option Nat}
    (deep : ∀ n, DITy = some n → g.rank n < fuel) : ∃ r, toBasicTypeLoop g.node fuel DITy = .ok r := by
  induction fuel generalizing DITy with
  | zero =>
    cases DITy with
    | none => exact ⟨_, rfl⟩
    | some n => exact absurd (deep n rfl) (Nat.not_lt_zero _)
  | succ fuel ih =>
    cases DITy with
    | none => exact ⟨_, rfl⟩
    | some n =>
      have here := Nat.le_of_lt_succ (deep n rfl)
      rw [toBasicTypeLoop]
      split
      · exact ⟨_, rfl⟩
      split
      · exact ⟨_, rfl⟩
      split
      · exact ⟨_, rfl⟩
      case isFalse notPointer =>
        cases node : g.node n with
        | derived tag name bits base =>
          cases base with
          | none => exact ⟨_, toBasicTypeLoop_none _⟩
          | some b =>
            -- a derived type is left for its base, which has a lower rank
            have lower : g.rank b < g.rank n := g.rank_derived _ _ _ _ _ node (by
              rw [node] at notPointer
              exact notPointer)
            exact toBasicTypeLoop_round ih (by omega) (fun _ _ _ _ _ => by omega)
        | basic =>
          refine toBasicTypeLoop_round ih here (fun _ _ _ _ e => ?_)
          rw [node] at e
          cases e
        | composite =>
          refine toBasicTypeLoop_round ih here (fun _ _ _ _ e => ?_)
          rw [node] at e
          cases e
        | subroutine =>
          refine toBasicTypeLoop_round ih here (fun _ _ _ _ e => ?_)
          rw [node] at e
          cases e

/-- Every type has a name. -/
lemma DIType2StringType_ok (DITy : Option Nat) : ∃ s, DIType2StringType g DITy = .ok s := by
  cases DITy with
  | none => exact ⟨_, rfl⟩
  | some n =>
    rw [DIType2StringType]
    split
    · exact ⟨_, rfl⟩
    · obtain ⟨r, e⟩ : ∃ r, toBasicTypeLoop g.node (g.rank n + 1) (some n) = .ok r :=
        toBasicTypeLoop_ok fun m e => by
          cases e
          exact Nat.lt_succ_self _
      rw [toBasicType, e, ok_bind]
      cases r with
      | none => exact ⟨_, rfl⟩
      | some => exact ⟨_, rfl⟩

/-- A whole number of bytes passes the check of the size. -/
lemma and_seven {bits : Nat} (aligned : bits % 8 = 0) : bits &&& 0x07 = 0 := by
  rw [show (0x07 : Nat) = 2 ^ 3 - 1 from rfl, Nat.and_two_pow_sub_one_eq_mod]
  exact aligned

/-- At a field the size is known; at an array element that is a record the assertion fails. -/
lemma EndsAt.size {m : Nat} (ends : EndsAt g steps t m) :
    (AtField steps t ∧ ∃ bits, getDIFieldSize g (some m) = .ok bits) ∨
      (¬ AtField steps t ∧ getDIFieldSize g (some m) = .error .assertion) := by
  rcases ends with ⟨array, element, described⟩ | ⟨noArray, name, bits, b, node, aligned, _⟩
  case inl =>
    -- of the element types, only basic types and typedefs carry a size
    cases t with
    | basic name bits =>
      obtain ⟨node, aligned⟩ := described
      refine .inl ⟨fun _ => id, bits, ?_⟩
      rw [getDIFieldSize]
      simp only [node, ok_bind]
      exact if_pos (and_seven aligned)
    | typedef name ty =>
      obtain ⟨bits, b, node, aligned, _⟩ := described
      refine .inl ⟨fun _ => id, bits, ?_⟩
      rw [getDIFieldSize]
      simp only [node, ok_bind]
      exact if_pos (and_seven aligned)
    | struct =>
      obtain ⟨_, _, _, node, _⟩ := described
      refine .inr ⟨fun field => field array trivial, ?_⟩
      rw [getDIFieldSize]
      simp only [node, error_bind]
    | union =>
      obtain ⟨_, _, _, node, _⟩ := described
      refine .inr ⟨fun field => field array trivial, ?_⟩
      rw [getDIFieldSize]
      simp only [node, error_bind]
    | pointer => exact element.elim
    | array => exact element.elim
  case inr =>
    refine .inl ⟨fun array => absurd array noArray, bits, ?_⟩
    rw [getDIFieldSize]
    simp only [node, ok_bind]
    exact if_pos (and_seven aligned)

/-! ### From the path to the offset -/

/-- An index without a type of its own. -/
def plainIndex (index : Nat) : TypedIndex := ⟨none, index⟩

/-- What is said of indices that end at a known place. -/
lemma fieldInfo_spec {l : List DITypedIndex} {index m : Nat}
    (last : l.getLast? = some ⟨index, some m⟩) (ends : EndsAt M.debug steps t m) :
    (AtField steps t ∧ ∃ basicType bits,
        fieldInfo M l = .ok ⟨basicType, bits, bits / 8, l.map DITypedIndex.index,
          l.map fun _ => none⟩) ∨
      (¬ AtField steps t ∧ fieldInfo M l = .error .assertion) := by
  rw [fieldInfo, last]
  rcases ends.size with ⟨field, bits, size⟩ | ⟨noField, failed⟩
  · obtain ⟨k, resolved, _⟩ := ends.resolve
    obtain ⟨basicType, typed⟩ := DIType2StringType_ok (g := M.debug) (some k)
    refine .inl ⟨field, basicType, bits, ?_⟩
    refine (bind_ok size _).trans ((bind_ok resolved _).trans ((bind_ok typed _).trans ?_))
    rw [List.map_map, List.map_map]
    rfl
  · exact .inr ⟨noField, bind_error failed _⟩

/-- The indices are listed without types. -/
lemma typedIndices_eq (gep : List Nat) (n : Nat) :
    (gep.zipIdx.map fun p => (⟨((List.replicate n (none : Option LType))[p.2]?).join, p.1⟩ :
      TypedIndex)) = gep.map plainIndex := by
  have plain : ∀ i : Nat, ((List.replicate n (none : Option LType))[i]?).join = none := by
    intro i
    rw [List.getElem?_replicate]
    split <;> rfl
  simp only [plain]
  show gep.zipIdx.map (plainIndex ∘ Prod.fst) = _
  rw [← List.map_map, List.zipIdx_map_fst]

/-- The indices of a path, all without types: the first is that of the struct itself. -/
lemma GEPIndices_spec {fields : Fields} {path : List String} (coherent : caches.Coherent M)
    (compiled : Compiled M name fields)
    (valid : (CType.struct name fields).trace path = some (steps, t)) (nonempty : path ≠ []) :
    (Representable steps ∧ AtField steps t ∧ ∃ caches', caches'.Coherent M ∧
        GEPIndices M name path caches =
          .ok ((0 :: steps.map gepIndex).map plainIndex, caches')) ∨
      (¬ (Representable steps ∧ AtField steps t) ∧
        ∃ e, GEPIndices M name path caches = .error e) := by
  obtain ⟨n, search, described⟩ := compiled.debug
  -- the cache answers as a fresh search does
  obtain ⟨di, found, coherent'⟩ := findStructDebugInfo_spec name coherent
  rw [search] at found
  have start : getStructFieldInfo2 M name path caches =
      gepLoop M.debug (some n) [⟨0, some n⟩] path >>= fun DIGEP =>
        fieldInfo M DIGEP >>= fun info => .ok (info, { caches with di := di }) := bind_ok found _
  rw [GEPIndices]
  rcases gepLoop_spec (c := .struct name fields) [⟨0, some n⟩] described valid nonempty
    with ⟨fits, sub, walked, reaches⟩ | ⟨unfit, failed⟩
  case inr =>
    exact .inr ⟨fun ok => unfit ok.1, _, bind_error (start.trans (bind_error failed _)) _⟩
  case inl =>
    obtain ⟨index, m, last, ends⟩ := reaches.back
    have last' : ([(⟨0, some n⟩ : DITypedIndex)] ++ sub).getLast? = some ⟨index, some m⟩ := by
      rw [List.getLast?_append_of_ne_nil _ reaches.ne_nil.1, last]
    rcases fieldInfo_spec last' ends with ⟨field, basicType, bits, info⟩ | ⟨noField, failed⟩
    case inr =>
      exact .inr ⟨fun ok => noField ok.2, _,
        bind_error (start.trans ((bind_ok walked _).trans (bind_error failed _))) _⟩
    case inl =>
      refine .inl ⟨fits, field, _, coherent', ?_⟩
      rw [bind_ok (start.trans ((bind_ok walked _).trans (bind_ok info _)))]
      have gep : ([(⟨0, some n⟩ : DITypedIndex)] ++ sub).map DITypedIndex.index = 0 :: steps.map gepIndex :=
        congrArg _ reaches.index
      simp only [gep, List.map_const', typedIndices_eq]
      rfl

/-- An index into a structure adds the offset of the element. -/
lemma offsetLoop_struct {elems : List LType} {total i : Nat} {indices : List TypedIndex} :
    offsetLoop D (.struct elems) total (plainIndex i :: indices) =
      match elems[i]? with
      | none => .error .assertion
      | some elem => offsetLoop D elem (word (total + D.elementOffset elems i)) indices := by
  rw [offsetLoop]
  rfl

/-- An index into an array adds that many elements. -/
lemma offsetLoop_array {elem : LType} {count total i : Nat} {indices : List TypedIndex} :
    offsetLoop D (.array count elem) total (plainIndex i :: indices) =
      offsetLoop D elem (word (total + word (D.allocSize elem * i))) indices := by
  rw [offsetLoop]
  rfl

/-- Sums wrap around once. -/
lemma word_word_add (a b : Nat) : word (word a + b) = word (a + b) := by
  rw [word, word, word, Nat.mod_add_mod]

/-- Sums wrap around once. -/
lemma word_add_word (a b : Nat) : word (a + word b) = word (a + b) := by
  rw [word, word, word, Nat.add_mod_mod]

/-- The indices are summed as `walk` does, in 64-bit arithmetic. -/
lemma offsetLoop_spec {Ty : LType} {total : Nat} {is : List Nat}
    (small : total < 18446744073709551616) :
    offsetLoop D Ty total (is.map plainIndex) =
      match walk D Ty is with
      | some off => .ok (word (total + off))
      | none => .error .assertion := by
  -- on the indices; only the sum so far is known to be a word
  induction is generalizing Ty total with
  | nil =>
    rw [walk_nil]
    exact congrArg _ (word_of_lt small).symm
  | cons i is ih =>
    rw [List.map_cons]
    cases Ty with
    | struct elems =>
      rw [offsetLoop_struct, walk]
      cases elems[i]? with
      | none => rfl
      | some elem =>
        simp only [ih (word_lt _)]
        cases walk D elem is with
        | none => rfl
        | some off =>
          show Except.ok (word (word _ + off)) = .ok (word (total + (_ + off)))
          rw [word_word_add, Nat.add_assoc]
    | array count elem =>
      rw [offsetLoop_array, walk, ih (word_lt _)]
      cases walk D elem is with
      | none => rfl
      | some off =>
        show Except.ok (word (word (total + word _) + off)) = .ok (word (total + (i * _ + off)))
        rw [word_add_word, word_word_add, Nat.mul_comm, Nat.add_assoc]
    | scalar => rfl
    | pointer => rfl

/-- The offset is that of the walk through the type. -/
lemma GEP2Offset_spec {Ty : LType} {is : List Nat} :
    GEP2Offset M Ty ((0 :: is).map plainIndex) =
      match walk M.layout Ty is with
      | some off => .ok (word (8 * off))
      | none => .error .assertion := by
  have loop : offsetLoop M.layout (.array (0 + 1) Ty) 0 ((0 :: is).map plainIndex) =
      match walk M.layout (.array (0 + 1) Ty) (0 :: is) with
      | some off => .ok (word (0 + off))
      | none => .error .assertion := offsetLoop_spec (by decide)
  have start : GEP2Offset M Ty ((0 :: is).map plainIndex) =
      offsetLoop M.layout (.array (0 + 1) Ty) 0 ((0 :: is).map plainIndex) >>= fun total =>
        .ok (word (total * 8)) := rfl
  rw [start, loop, walk]
  cases walk M.layout Ty is with
  | none => rfl
  | some off =>
    show Except.ok (word (word (0 + (0 * _ + off)) * 8)) = .ok (word (8 * off))
    rw [Nat.zero_mul, Nat.zero_add, Nat.zero_add, word, word, Nat.mod_mul_mod, Nat.mul_comm, word]

/-- When the call returns, and with what: the indices fit, the path ends at a field, and its offset is
that of the indices in the lowered type. -/
lemma offsetInBitsFromPath_iff {fields : Fields} {path : List String} {bits : Nat}
    (coherent : caches.Coherent M) (compiled : Compiled M name fields)
    (valid : (CType.struct name fields).trace path = some (steps, t)) (nonempty : path ≠ []) :
    (∃ caches', caches'.Coherent M ∧
        offsetInBitsFromPath M name path caches = .ok (bits, caches')) ↔
      Representable steps ∧ AtField steps t ∧ ∃ off,
        walk M.layout ((CType.struct name fields).lower M.layout) (steps.map gepIndex) = some off ∧
        bits = word (8 * off) := by
  obtain ⟨lookup, coherent1⟩ := getTypeByName_spec ("struct." ++ name) coherent
  rw [compiled.lowered] at lookup
  obtain ⟨caches1, typed⟩ : ∃ caches1, getStructTypeByName M name caches =
      .ok ((CType.struct name fields).lower M.layout, caches1) ∧ caches1.Coherent M := by
    rw [getStructTypeByName]
    generalize getTypeByName M ("struct." ++ name) caches = answer at lookup coherent1 ⊢
    obtain ⟨Ty, caches1⟩ := answer
    cases lookup
    exact ⟨caches1, rfl, coherent1⟩
  rw [offsetInBitsFromPath, bind_ok typed.1]
  rcases GEPIndices_spec typed.2 compiled valid nonempty with
    ⟨fits, field, caches2, coherent2, found⟩ | ⟨unfit, e, failed⟩
  case inr =>
    simp only [failed, error_bind]
    exact ⟨nofun, fun ⟨fits, field, _⟩ => absurd ⟨fits, field⟩ unfit⟩
  case inl =>
    simp only [found, ok_bind, GEP2Offset_spec]
    cases walk M.layout ((CType.struct name fields).lower M.layout) (steps.map gepIndex) with
    | none => exact ⟨nofun, nofun⟩
    | some off =>
      -- the last assertion asks for whole bytes
      have whole : word (8 * off) &&& 0x07 = 0 := by
        apply and_seven
        rw [word]
        omega
      simp only [ok_bind, if_pos whole]
      constructor
      · intro ⟨_, _, e⟩
        cases e
        exact ⟨fits, field, off, rfl, rfl⟩
      · intro ⟨_, _, _, e, same⟩
        cases e
        exact ⟨caches2, coherent2, by rw [same]⟩

/-- Union-free structures. For every structure type, every valid path that ends at a field or at an
array element that is no record, and every state of the caches: the call returns eight times the
offset of the path in C (as a `size_t`) if and only if no array index on the path exceeds an
`int`. -/
theorem offset_unionFree {M : IRModule} {caches : Caches} {name : String} {fields : Fields}
    {path : List String} {steps : List Selection} {t : CType} (coherent : caches.Coherent M)
    (compiled : Compiled M name fields) (free : fields.unionFree = true)
    (valid : (CType.struct name fields).trace path = some (steps, t)) (nonempty : path ≠ [])
    (field : AtField steps t) :
    (∃ caches', caches'.Coherent M ∧ offsetInBitsFromPath M name path caches =
        .ok (word (8 * offset M.layout steps), caches')) ↔ Representable steps := by
  have along := CType.trace_along valid
  have law := walk_eq_offset along (along.keeps_of_unionFree (D := M.layout) free)
  rw [offsetInBitsFromPath_iff coherent compiled valid nonempty]
  constructor
  · intro ⟨fits, _⟩
    exact fits
  · intro fits
    exact ⟨fits, field, _, law, rfl⟩

/-- The debug types of `struct sample { char tag; struct { int x; int y; }; char values[]; }`, for any
length of the array. -/
def sampleDebug : DebugInfo := .ofList [
  .composite .structureType "sample" 0 none [.type 1, .type 2, .type 6],
  .derived .member "tag" 8 (some 8),
  .derived .member "" 64 (some 3),
  .composite .structureType "" 64 none [.type 4, .type 5],
  .derived .member "x" 32 (some 9),
  .derived .member "y" 32 (some 9),
  .derived .member "values" 0 (some 7),
  .composite .arrayType "" 0 (some 8) [.other],
  .basic "char" 8,
  .basic "int" 32] (by decide)

/-- The members of the anonymous structure. -/
def samplePoint : Fields := .cons "x" (.basic "int" 32) (.cons "y" (.basic "int" 32) .nil)

/-- The members of `struct sample` with an array of `count` elements. -/
def sampleFields (count : Nat) : Fields :=
  .cons "tag" (.basic "char" 8) (.cons "" (.struct "" samplePoint)
    (.cons "values" (.array (.basic "char" 8) count) .nil))

/-- A module with `struct sample`. -/
def sampleModule (count : Nat) : IRModule where
  debug := sampleDebug
  types := [0]
  structTypes := [("struct.sample", (CType.struct "sample" (sampleFields count)).lower .natural)]
  layout := .natural
  isLayoutIdentical := fun _ _ => true
  identical_self := fun _ => rfl

/-- The structure is in the debug info and in the module. -/
lemma sample_compiled (count : Nat) :
    Compiled (sampleModule count) "sample" (sampleFields count) := by
  have char : Describes sampleDebug (.basic "char" 8) 8 := ⟨rfl, rfl⟩
  have int : Describes sampleDebug (.basic "int" 32) 9 := ⟨rfl, rfl⟩
  have inner : Describes sampleDebug (.struct "" samplePoint) 3 :=
    ⟨64, none, _, rfl, 4, 32, 9, _, rfl, rfl, rfl, nofun, int, 5, 32, 9, _, rfl, rfl, rfl, nofun,
      int, rfl⟩
  have values : Describes sampleDebug (.array (.basic "char" 8) count) 7 :=
    ⟨"", 0, _, 8, rfl, trivial, char⟩
  exact ⟨⟨0, rfl, 0, none, _, rfl, 1, 8, 8, _, rfl, rfl, rfl, nofun, char, 2, 64, 3, _, rfl, rfl, rfl,
    fun _ => nofun, inner, 6, 0, 7, _, rfl, rfl, rfl, nofun, values, rfl⟩, rfl⟩

/-- A member of the anonymous structure, found through empty caches. -/
theorem offset_unionFree_sample :
    ∃ caches', caches'.Coherent (sampleModule 5) ∧
      offsetInBitsFromPath (sampleModule 5) "sample" ["y"] ⟨fun _ => none, fun _ => none⟩ =
        .ok (64, caches') := by
  have valid : (CType.struct "sample" (sampleFields 5)).trace ["y"] = some
      ([(.struct "sample" (sampleFields 5), 1), (.struct "" samplePoint, 1)], .basic "int" 32) := rfl
  have fits := representable_of_records (List.forall_mem_cons.2
    ⟨trivial, List.forall_mem_singleton.2 trivial⟩ : ∀ sel ∈ [(CType.struct "sample" (sampleFields 5), 1),
      (.struct "" samplePoint, 1)], IsRecord sel.1)
  exact (offset_unionFree coherent_empty (sample_compiled 5) rfl valid (List.cons_ne_nil _ _)
    fun _ => id).2 fits

/-- In an array of more than `2 ^ 31` elements, the element after the last one an `int` can count is a
valid path, and the call throws. -/
theorem sample_index_out_of_range :
    ((CType.struct "sample" (sampleFields 3000000000)).trace ["values", "2147483648"]).map
        (fun r => 8 * offset .natural r.1) = some 17179869280 ∧
      offsetInBitsFromPath (sampleModule 3000000000) "sample" ["values", "2147483648"]
        ⟨fun _ => none, fun _ => none⟩ = .error .outOfRange :=
  ⟨by decide, rfl⟩

end Irx.Debug
