import Irx.Debug.Paths
import Irx.Generator.Fields
import Irx.Generator.Order
import Irx.Lib.Traversal

/-!
# The walks of the generator end

`generate_struct` writes the graph of a type into a comment above its class, with `print_dot`, which goes
along all edges of the debug types and has a list of names of its own. Both lists leave types without a name
out. `print_dot` and `print` end on every graph in which names are on every cycle, `generate_struct` and
`resolve2` if and only if there is a name on each cycle of the types that `resolve2` refers to
(`terminates_iff`): it goes past a typedef that is behind a qualifier.
-/

namespace Irx.Generator
open Irx.Lib Irx.Debug Relation

/-- A line of a graph: a type with its tag and name, or an edge. -/
inductive Dot where
  | node (CTy : Nat) (tag : Tag) (name : String)
  | edge (CTy DITy : Nat)
  deriving DecidableEq

/-- The names in `done2`, and the graphs written so far. -/
structure Dots where
  done2 : List String
  Output : List Dot

/-- The state of the generator with the graphs. -/
structure GeneratorState where
  ctx : GeneratorStruct
  dots : Dots

section Dot

variable (g : DebugInfo)

/-- The type of an element. -/
def elementType : DINode → Option Nat
  | .type m => some m
  | .other => none

/-- Where `print_dot` goes on. -/
def dotTargets (CTy : Nat) : List Nat :=
  match g.node CTy with
  | .composite tag _ _ base elements =>
    (if tag = .arrayType then base.toList else []) ++ elements.filterMap elementType
  | .derived _ _ _ base => base.toList
  | _ => []

/-- `print_dot`, for at most the given depth of calls. -/
def print_dot : Nat → Dots → Nat → Except Abort Dots
  | 0, _, _ => .error .undefined
  | depth + 1, s, CTy =>
    let name := getName g CTy
    if name ∈ s.done2 then .ok s
    else
      let s : Dots := ⟨if name = "" then s.done2 else s.done2 ++ [name],
        s.Output ++ [.node CTy (g.node CTy).getTag name]⟩
      (dotTargets g CTy).foldlM (fun s DITy => do
        let s ← print_dot depth s DITy
        .ok { s with Output := s.Output ++ [.edge CTy DITy] }) s

/-- `resolve2`, with the graphs. -/
def resolve2_dot (generate_struct : GeneratorState → Nat → Except Abort GeneratorState)
    (s : GeneratorState) (DITy : Nat) : Except Abort GeneratorState :=
  (references g DITy).foldlM generate_struct s

/-- `generate_struct`, with the graphs, for at most the given depth of calls. -/
def generate_struct_dot : Nat → GeneratorState → Nat → Except Abort GeneratorState
  | 0, _, _ => .error .undefined
  | depth + 1, s, CTy =>
    let name := getName g CTy
    if name ∈ s.ctx.done then .ok s
    else if name = "" then resolve2_dot g (generate_struct_dot depth) s CTy
    else do
      let s ← resolve2_dot g (generate_struct_dot depth)
        { s with ctx := { s.ctx with done := s.ctx.done ++ [name] } } CTy
      let dots ← print_dot g depth s.dots CTy
      let lines ← print g CTy true
      .ok ⟨{ s.ctx with Output := s.ctx.Output ++ [lines] }, dots⟩

/-- A base type or an element. -/
def Edge (n m : Nat) : Prop := DIType.getBaseType (g.node n) = some m ∨ .type m ∈ (g.node n).elements

/-- The walk goes on from a type without a name. -/
def Skips (n m : Nat) : Prop := getName g n = "" ∧ m ∈ references g n

/-- Finitely many debug types with names on every cycle. The elements of arrays have sizes; structures and
unions are composite types, and pointers are not. -/
structure WellNamed : Prop where
  names : Names g
  nodes : {n | g.node n ≠ .subroutine}.Finite
  named : ∀ n, ¬ TransGen (fun n m => getName g n = "" ∧ Edge g n m) n n
  element : ∀ a name bits base elements p, g.node a = .composite .arrayType name bits base elements →
    resolve g base = some p → getSizeInBits g p ≠ 0
  record : ∀ n, IsRecord g n → isComposite g n
  pointer : ∀ n name bits base elements, g.node n ≠ .composite .pointerType name bits base elements

/-- The functions return from every type, in every state, at some depth of calls; `resolveUntil` needs no
more rounds than it has in `resolve`. A type with a name is marked where `generate_struct` enters it, and no
name is marked or defined twice. -/
structure Terminates : Prop where
  resolve : ∀ kinds n rounds, .pointerType ∈ kinds → g.rank n < rounds →
    resolveUntil g kinds rounds (some n) = resolveUntil g kinds (g.rank n + 1) (some n)
  generate_struct : ∀ s n, ∃ depth s', generate_struct_dot g depth s n = .ok s'
  resolve2 : ∀ s n, ∃ depth s', resolve2_dot g (generate_struct_dot g depth) s n = .ok s'
  print : ∀ n start, ∃ lines, print g n start = .ok lines
  print_dot : ∀ s n, ∃ depth s', print_dot g depth s n = .ok s'
  once : ∀ depth (l : List Nat) (s : GeneratorState), (∀ n ∈ l, (g.node n).getTag ≠ .member) →
    l.foldlM (generate_struct_dot g depth) ⟨⟨[], []⟩, ⟨[], []⟩⟩ = .ok s →
    s.ctx.done.Nodup ∧ (s.ctx.Output.flatten.filterMap Line.defines).Nodup

end Dot

variable {g : DebugInfo} {n m r depth fuel fuel' : Nat} {start : Bool} {kinds : List Tag}
  {base : Option Nat}

/-! ### What a class prints ends -/

/-- As long as there are rounds, their number does not matter. -/
lemma resolveUntil_rounds (pointer : Tag.pointerType ∈ kinds) (deep : g.rank n < fuel)
    (deep' : g.rank n < fuel') :
    resolveUntil g kinds fuel (some n) = resolveUntil g kinds fuel' (some n) := by
  induction fuel generalizing n fuel' with
  | zero => exact absurd deep (Nat.not_lt_zero _)
  | succ fuel ih =>
    cases fuel' with
    | zero => exact absurd deep' (Nat.not_lt_zero _)
    | succ fuel' =>
      rw [resolveUntil, resolveUntil]
      split
      · rfl
      case isFalse other =>
        cases node : g.node n with
        | derived tag name bits base =>
          cases base with
          | none => cases fuel <;> cases fuel' <;> rfl
          | some b =>
            have lower : g.rank b < g.rank n := by
              apply g.rank_derived _ _ _ _ _ node
              rintro rfl
              rw [node] at other
              exact other pointer
            exact ih (by omega) (by omega)
        | _ => rfl

/-- What a type resolves to is the type, or of lower rank. -/
lemma resolve_below (e : resolve g (some n) = some r) : r = n ∨ g.rank r < g.rank n := by
  rw [resolve, resolveUntil] at e
  split at e
  case isTrue =>
    cases e
    exact .inl rfl
  case isFalse other =>
    right
    cases node : g.node n with
    | derived tag name bits base =>
      rw [node] at e other
      cases base with
      | none =>
        cases rank : g.rank n <;> rw [rank] at e <;> cases e
      | some b =>
        have lower := g.rank_derived _ _ _ _ _ node fun same => other (by rw [same, DIType.getTag]; decide)
        exact (resolveUntil_rank (by decide) e).trans_lt lower
    | basic =>
      rw [node] at e
      cases e
    | composite =>
      rw [node] at e
      cases e
    | subroutine =>
      rw [node] at e
      cases e

/-- `toBasicType` ends for every type. -/
lemma toBasicType_ok (A : Nat) : ∃ B, toBasicType g (some A) = .ok B := by
  apply toBasicTypeLoop_ok
  intro m e
  cases e
  exact Nat.lt_succ_self _

/-- An embedded type is always printed. -/
lemma embeddedField_ok (name : String) (A : Nat) (cls : String) :
    ∃ lines, embeddedField g name A cls = .ok lines := by
  obtain ⟨B, below⟩ := toBasicType_ok (g := g) A
  rw [embeddedField, below]
  cases B with
  | none => exact ⟨_, rfl⟩
  | some B => exact ⟨_, rfl⟩

/-- A typedef is printed if the types of lower rank are. -/
lemma printTypedef_ok {print : Nat → Bool → Except Abort (List Line)} {name : String} {bits : Nat}
    (field : String) (node : g.node r = .derived .typedef name bits base)
    (below : ∀ A, g.rank A < g.rank r → ∃ lines, print A false = .ok lines) :
    ∃ lines, printTypedef g print field r base start = .ok lines := by
  rw [printTypedef]
  cases resolved : resolve g base with
  | none => exact ⟨_, rfl⟩
  | some A =>
    cases start with
    | false => exact embeddedField_ok ..
    | true =>
      simp only [Bool.not_true, Bool.false_eq_true, if_false]
      split
      · obtain ⟨B, e⟩ := toBasicType_ok (g := g) A
        rw [e]
        cases B with
        | none => exact ⟨_, rfl⟩
        | some B => exact ⟨_, rfl⟩
      · cases base with
        | none => cases resolved
        | some b =>
          have lower : g.rank b < g.rank r := g.rank_derived _ _ _ _ _ node (by decide)
          have lower : g.rank A < g.rank r := by
            rcases resolve_below resolved with rfl | lower'
            · exact lower
            · exact lower'.trans lower
          obtain ⟨lines, e⟩ := below A lower
          rw [e]
          exact ⟨_, rfl⟩

/-- An array is always printed. -/
lemma printArray_ok (well : WellNamed g) {bits : Nat} {name field : String} {elements : List DINode}
    (node : g.node r = .composite .arrayType name bits base elements) :
    ∃ lines, printArray g field r base = .ok lines := by
  rw [printArray]
  cases resolved : resolve g base with
  | none => exact ⟨_, rfl⟩
  | some p =>
    have element : arrayElement g p = .ok p := by
      rw [arrayElement]
      split
      case h_1 node' => exact absurd node' (well.pointer _ _ _ _ _)
      case h_2 => rfl
    have sized := well.element _ _ _ _ _ p node resolved
    simp only [element, ok_bind, sized, if_false]
    split
    · exact ⟨_, rfl⟩
    · exact ⟨_, rfl⟩

/-- If each part is printed, so are all. -/
lemma mapM_ok {α β ε : Type} {f : α → Except ε β} {l : List α} (each : ∀ a ∈ l, ∃ b, f a = .ok b) :
    ∃ bs, l.mapM f = .ok bs := by
  induction l with
  | nil => exact ⟨[], rfl⟩
  | cons a l ih =>
    obtain ⟨b, first⟩ := each a (.head _)
    obtain ⟨bs, rest⟩ := ih fun a mem => each a (.tail _ mem)
    refine ⟨b :: bs, ?_⟩
    rw [List.mapM_cons, first, rest]
    rfl

/-- The switch ends if `print` does for structures without a name and for what lies below a type. -/
lemma printResolved_ok (well : WellNamed g) {print : Nat → Bool → Except Abort (List Line)} (field : String)
    (unnamed : Unnamed g r → ∃ lines, print r start = .ok lines)
    (below : ∀ A, g.rank A < g.rank r → ∃ lines, print A false = .ok lines) :
    ∃ lines, printResolved g print field r start = .ok lines := by
  rw [printResolved]
  split
  · split
    · exact ⟨_, rfl⟩
    · exact ⟨_, rfl⟩
  case h_2 tag' name bits base tag node =>
    rw [node, DIType.getTag] at tag
    subst tag
    exact printTypedef_ok field node below
  case h_3 tag =>
    split
    case isTrue blank => exact unnamed ⟨.inr tag, blank⟩
    case isFalse => exact embeddedField_ok ..
  case h_4 tag =>
    split
    case isTrue blank => exact unnamed ⟨.inl tag, blank⟩
    case isFalse => exact embeddedField_ok ..
  case h_5 tag' name bits base elements tag node =>
    rw [node, DIType.getTag] at tag
    subst tag
    exact printArray_ok well node
  case h_6 =>
    split
    · exact ⟨_, rfl⟩
    · exact ⟨_, rfl⟩
  case h_7 => exact ⟨_, rfl⟩

/-- The rank bounds the depth of `print`. -/
lemma printDepth_ok (well : WellNamed g) (deep : g.rank n < depth) :
    ∃ lines, printDepth g depth n start = .ok lines := by
  induction depth generalizing n start with
  | zero => exact absurd deep (Nat.not_lt_zero _)
  | succ depth ih =>
    have deep := Nat.le_of_lt_succ deep
    rw [printDepth]
    cases resolved : resolve g (some n) with
    | none => exact ⟨_, rfl⟩
    | some r =>
      simp only
      split
      case h_1 tag name bits base elements node =>
        obtain ⟨parts, e⟩ : ∃ parts, elements.mapM (printElement g
            (printDepth g depth · (start && !opensClass g n start))) = .ok parts := by
          apply mapM_ok
          intro element mem
          cases element with
          | other => exact ⟨_, rfl⟩
          | type m =>
            rw [printElement]
            split
            · exact ih ((g.rank_element _ _ _ _ _ _ m node mem).trans_le deep)
            · exact ⟨_, rfl⟩
        rw [e]
        exact ⟨_, rfl⟩
      case h_2 plain =>
        have le : g.rank r ≤ g.rank n := by
          rcases resolve_below resolved with rfl | lower
          · exact le_rfl
          · exact lower.le
        have printed : ∃ lines, printResolved g (printDepth g depth) (getName g n) r
            (start && !opensClass g n start) = .ok lines := by
          apply printResolved_ok well
          · intro unnamed
            rcases resolve_below resolved with rfl | lower
            · obtain ⟨_, _, _, _, _, node⟩ := isComposite_node (well.record r unnamed.1)
              exact absurd node (plain _ _ _ _ _)
            · exact ih (lower.trans_le deep)
          · intro A lower
            exact ih (lower.trans_le (le.trans deep))
        obtain ⟨lines, e⟩ := printed
        rw [e]
        exact ⟨_, rfl⟩

/-! ### The two walks -/

/-- The name that the walks mark. -/
def markedName (g : DebugInfo) (n : Nat) : Option String :=
  if getName g n = "" then none else some (getName g n)

/-- `print_dot` as a traversal. -/
def dotTraversal (g : DebugInfo) : Traversal Dots Nat Abort where
  known s n := getName g n ∈ s.done2
  enter s n := ⟨if getName g n = "" then s.done2 else s.done2 ++ [getName g n],
    s.Output ++ [.node n (g.node n).getTag (getName g n)]⟩
  succ := dotTargets g
  after n s m := { s with Output := s.Output ++ [.edge n m] }
  leave _ s _ := .ok s
  stop := .undefined

/-- `generate_struct` as a traversal. -/
def structTraversal (g : DebugInfo) : Traversal GeneratorState Nat Abort where
  known s n := getName g n ∈ s.ctx.done
  enter s n := if getName g n = "" then s else
    { s with ctx := { s.ctx with done := s.ctx.done ++ [getName g n] } }
  succ := references g
  after _ s _ := s
  leave depth s n := if getName g n = "" then .ok s else do
    let dots ← print_dot g depth s.dots n
    let lines ← print g n true
    .ok ⟨{ s.ctx with Output := s.ctx.Output ++ [lines] }, dots⟩
  stop := .undefined

/-- Handing a result on is no step. -/
lemma bind_ok_self {ε α : Type} (x : Except ε α) : (do let a ← x; .ok a) = x := by
  cases x <;> rfl

/-- `print_dot` is a depth-first traversal. -/
lemma print_dot_run : print_dot g depth = (dotTraversal g).run depth := by
  induction depth with
  | zero => rfl
  | succ depth ih =>
    funext s n
    rcases Classical.em (getName g n ∈ s.done2) with known | fresh
    · have seen : (dotTraversal g).known s n := decide_eq_true known
      rw [Traversal.run_known seen, print_dot, if_pos known]
    · have unseen : (dotTraversal g).known s n = false := decide_eq_false fresh
      rw [print_dot, if_neg fresh, Traversal.run_fresh unseen, ih]
      exact (bind_ok_self _).symm

/-- `generate_struct` does nothing between two references. -/
lemma structTraversal_step : (structTraversal g).step depth n = (structTraversal g).run depth := by
  funext s m
  exact bind_ok_self _

/-- `generate_struct` is one as well. -/
lemma generate_struct_run : generate_struct_dot g depth = (structTraversal g).run depth := by
  induction depth with
  | zero => rfl
  | succ depth ih =>
    funext s n
    rcases Classical.em (getName g n ∈ s.ctx.done) with known | fresh
    · have seen : (structTraversal g).known s n := decide_eq_true known
      rw [Traversal.run_known seen, generate_struct_dot, if_pos known]
    · have unseen : (structTraversal g).known s n = false := decide_eq_false fresh
      rw [generate_struct_dot, if_neg fresh, Traversal.run_fresh unseen, structTraversal_step, ← ih]
      rcases Classical.em (getName g n = "") with blank | named
      · simp only [structTraversal, blank, if_true, resolve2_dot]
        exact (bind_ok_self _).symm
      · simp only [structTraversal, named, if_false, resolve2_dot]

/-- A node with a name is marked by it. -/
lemma markedName_some {k : String} : markedName g n = some k ↔ getName g n ≠ "" ∧ getName g n = k := by
  rw [markedName]
  split
  case isTrue blank => simp [blank]
  case isFalse named => simp [named]

/-- A node without a name is not marked. -/
lemma markedName_none : markedName g n = none ↔ getName g n = "" := by
  rw [markedName]
  split
  case isTrue blank => simp [blank]
  case isFalse named => simp [named]

/-- The traversal of `print_dot` marks the names that it has printed. -/
lemma dot_marks : (dotTraversal g).Marks (markedName g) (fun s => {k | k ∈ s.done2}) where
  seen s n k named mem := by
    obtain ⟨_, rfl⟩ := markedName_some.1 named
    exact decide_eq_true mem
  entered s n k named := by
    obtain ⟨some, rfl⟩ := markedName_some.1 named
    simp [dotTraversal, some]
  enter s n k mem := by
    show k ∈ if getName g n = "" then s.done2 else s.done2 ++ [getName g n]
    split
    · exact mem
    · exact List.mem_append_left _ mem
  after n s m := Set.Subset.rfl
  leave s n := ⟨0, s, rfl, Set.Subset.rfl⟩
  deeper depth depth' s n s' left _ := left

/-- `print_dot` goes along edges of the graph. -/
lemma dotTargets_edge (mem : m ∈ dotTargets g n) : Edge g n m := by
  rw [dotTargets] at mem
  cases node : g.node n with
  | composite tag name bits base elements =>
    rw [node] at mem
    rcases List.mem_append.1 mem with mem | mem
    · left
      split at mem
      · rw [node]
        exact Option.mem_toList.1 mem
      · cases mem
    · right
      obtain ⟨element, there, e⟩ := List.mem_filterMap.1 mem
      cases element with
      | other => cases e
      | type k =>
        cases e
        rw [node]
        exact there
  | derived tag name bits base =>
    rw [node] at mem
    left
    rw [node]
    exact Option.mem_toList.1 mem
  | basic =>
    rw [node] at mem
    cases mem
  | subroutine =>
    rw [node] at mem
    cases mem

/-- `print_dot` ends: a name is on every cycle. -/
lemma print_dot_ends (well : WellNamed g) (s : Dots) (n : Nat) :
    ∃ depth s', print_dot g depth s n = .ok s' := by
  have finite : {n | dotTargets g n ≠ []}.Finite := by
    apply well.nodes.subset
    intro n some node
    apply some
    rw [dotTargets, node]
  have acyclic : ∀ n, ¬ TransGen (fun n m => markedName g n = none ∧ m ∈ dotTargets g n) n n := by
    intro n cycle
    apply well.named n
    apply TransGen.mono ?_ n n cycle
    exact fun a b step => ⟨markedName_none.1 step.1, dotTargets_edge step.2⟩
  obtain ⟨depth, s', e, _⟩ := Traversal.ends dot_marks finite acyclic s n
  rw [← print_dot_run] at e
  exact ⟨depth, s', e⟩

/-- The traversal of `generate_struct` marks the names that are done. -/
lemma struct_marks (well : WellNamed g) :
    (structTraversal g).Marks (markedName g) (fun s => {k | k ∈ s.ctx.done}) where
  seen s n k named mem := by
    obtain ⟨_, rfl⟩ := markedName_some.1 named
    exact decide_eq_true mem
  entered s n k named := by
    obtain ⟨some, rfl⟩ := markedName_some.1 named
    simp [structTraversal, some]
  enter s n k mem := by
    rcases Classical.em (getName g n = "") with blank | named
    · simpa [structTraversal, blank] using mem
    · simpa [structTraversal, named] using Or.inl mem
  after n s m := Set.Subset.rfl
  leave s n := by
    simp only [structTraversal]
    split
    · exact ⟨0, s, rfl, Set.Subset.rfl⟩
    · obtain ⟨depth, dots, e⟩ := print_dot_ends well s.dots n
      obtain ⟨lines, e'⟩ : ∃ lines, printDepth g (g.rank n + 1) n true = .ok lines :=
        printDepth_ok well (Nat.lt_succ_self _)
      refine ⟨depth, ⟨{ s.ctx with Output := s.ctx.Output ++ [lines] }, dots⟩, ?_, Set.Subset.rfl⟩
      rw [e, print, e']
      rfl
  deeper depth depth' s n s' left le := by
    simp only [structTraversal] at left ⊢
    split at left
    case isTrue blank => rwa [if_pos blank]
    case isFalse named =>
      rw [if_neg named]
      obtain ⟨dots, e, left⟩ := bind_eq_ok.1 left
      rw [print_dot_run] at e ⊢
      rw [Traversal.run_mono dot_marks e le]
      exact left

/-- A function type refers to nothing. -/
lemma references_empty (node : g.node n = .subroutine) : references g n = [] := by
  have unresolved : resolve g (some n) = none := by
    rw [resolve, resolveUntil]
    simp [node, DIType.getTag]
  rw [references, unresolved]

/-- `generate_struct` ends where the walk goes around no cycle of types without a name. -/
lemma generate_struct_ends (well : WellNamed g) (straight : ∀ n, ¬ TransGen (Skips g) n n)
    (s : GeneratorState) (n : Nat) :
    (structTraversal g).Ends (fun s => {k | k ∈ s.ctx.done}) s n := by
  have finite : {n | references g n ≠ []}.Finite := by
    apply well.nodes.subset
    intro n some node
    exact some (references_empty node)
  have acyclic : ∀ n, ¬ TransGen (fun n m => markedName g n = none ∧ m ∈ references g n) n n := by
    intro n cycle
    apply straight n
    apply TransGen.mono ?_ n n cycle
    exact fun a b step => ⟨markedName_none.1 step.1, step.2⟩
  exact Traversal.ends (struct_marks well) finite acyclic s n

/-! ### Names are marked and defined once -/

/-- The graphs aside, it is `generate_struct`. -/
lemma generate_struct_ctx {s s' : GeneratorState} (e : generate_struct_dot g depth s n = .ok s') :
    generate_struct g depth s.ctx n = .ok s'.ctx := by
  induction depth generalizing s n s' with
  | zero => cases e
  | succ depth ih =>
    have below : ∀ {s s' : GeneratorState}, resolve2_dot g (generate_struct_dot g depth) s n = .ok s' →
        resolve2 g (generate_struct g depth) s.ctx n = .ok s'.ctx :=
      fun e => foldlM_sees GeneratorState.ctx (fun s m _ s' e => ih e) e
    rw [generate_struct_dot] at e
    rw [generate_struct]
    split at e
    case isTrue known =>
      cases e
      rw [if_pos known]
    case isFalse fresh =>
      rw [if_neg fresh]
      split at e
      case isTrue blank =>
        rw [if_pos blank]
        exact below e
      case isFalse named =>
        rw [if_neg named]
        obtain ⟨s1, inner, e⟩ := bind_eq_ok.1 e
        obtain ⟨dots, _, e⟩ := bind_eq_ok.1 e
        obtain ⟨lines, wrote, e⟩ := bind_eq_ok.1 e
        cases e
        rw [below inner, ok_bind, wrote]
        rfl

/-- A paragraph defines a name at most once. -/
lemma Shape.defines {lines : List Line} (shape : Shape g n lines) :
    lines.filterMap Line.defines = [] ∨ lines.filterMap Line.defines = [getName g n] := by
  cases shape with
  | nothing => exact .inl rfl
  | renamed => exact .inr rfl
  | dataclass _ plain =>
    right
    rw [List.filterMap_cons, List.filterMap_eq_nil_iff.2 plain]
    rfl

/-- Paragraphs for types of different names define no name twice. -/
lemma defines_nodup (names : Names g) {out : List Nat} {file : List (List Line)}
    (printed : List.Forall₂ (fun n lines => print g n true = .ok lines) out file)
    (types : ∀ n ∈ out, (g.node n).getTag ≠ .member ∧ getName g n ≠ "")
    (apart : out.Pairwise fun n m => getName g n ≠ getName g m) :
    (file.flatten.filterMap Line.defines).Nodup ∧
      ∀ name ∈ file.flatten.filterMap Line.defines, ∃ n ∈ out, name = getName g n := by
  induction printed with
  | nil => exact ⟨.nil, nofun⟩
  | @cons n lines out file prints _ ih =>
    obtain ⟨type, named⟩ := types n (.head _)
    obtain ⟨other, apart⟩ := List.pairwise_cons.1 apart
    obtain ⟨nodup, defined⟩ := ih (fun m mem => types m (.tail _ mem)) apart
    rw [List.flatten_cons, List.filterMap_append]
    rcases (print_shape names type named prints).defines with none | one
    · rw [none]
      exact ⟨nodup, fun name mem => (defined name mem).imp fun m holds => ⟨.tail _ holds.1, holds.2⟩⟩
    · rw [one]
      refine ⟨List.nodup_cons.2 ⟨fun again => ?_, nodup⟩, fun name mem => ?_⟩
      · obtain ⟨m, mem, same⟩ := defined _ again
        exact other m mem same
      · rcases List.mem_cons.1 mem with rfl | mem
        · exact ⟨n, .head _, rfl⟩
        · exact (defined name mem).imp fun m holds => ⟨.tail _ holds.1, holds.2⟩

/-- From the empty state on, no name is marked twice, and none is defined twice. -/
lemma generate_struct_once (names : Names g) {l : List Nat} {s : GeneratorState}
    (types : ∀ n ∈ l, (g.node n).getTag ≠ .member)
    (ran : l.foldlM (generate_struct_dot g depth) ⟨⟨[], []⟩, ⟨[], []⟩⟩ = .ok s) :
    s.ctx.done.Nodup ∧ (s.ctx.Output.flatten.filterMap Line.defines).Nodup := by
  have plain : l.foldlM (generate_struct g depth) ⟨[], []⟩ = .ok s.ctx :=
    foldlM_sees GeneratorState.ctx (fun s n _ s' e => generate_struct_ctx e) ran
  obtain ⟨out, walk, _, printed⟩ := fold_walk (fun n mem ctx ctx' out e printed =>
    generate_struct_walk names (types n mem) e printed) plain ⟨nofun, .nil⟩
  obtain ⟨new, grows, listed⟩ := walk.listed
  rw [List.nil_append] at grows
  subst grows
  refine ⟨walk.nodup .nil, (defines_nodup names printed (fun n mem => ?_) ?_).1⟩
  · obtain ⟨k, _, _, key⟩ := listed.marked n mem
    exact ⟨(typeName_some key).1, (typeName_some key).2.1⟩
  · apply List.Pairwise.imp_of_mem ?_ listed.apart
    intro n m mem mem' other same
    obtain ⟨k, _, _, key⟩ := listed.marked n mem
    obtain ⟨k', _, _, key'⟩ := listed.marked m mem'
    apply other
    rw [key, key', (typeName_some key).2.2, (typeName_some key').2.2, same]

/-- On a cycle of types without a name, the walk does not end. -/
lemma cycle_endless (names : Names g) (cycle : TransGen (Skips g) n n) {s s' : GeneratorState}
    {out : List Nat} (printed : Printed g out s.ctx) : generate_struct_dot g depth s n ≠ .ok s' := by
  intro e
  have type : (g.node n).getTag ≠ .member := by
    obtain ⟨m, _, last⟩ := TransGen.tail'_iff.1 cycle
    exact reference_type names last.2
  obtain ⟨out', walk, _⟩ := generate_struct_walk names type (generate_struct_ctx e) printed
  apply walk.acyclic (.head _)
  apply TransGen.mono ?_ n n cycle
  intro a b step
  exact ⟨if_pos (.inr step.1), step.2⟩

/-- In every finite graph with names on its cycles, all of the functions return, and nothing is marked or
defined twice, if and only if `resolve2` does not lead around a cycle of types without a name. -/
theorem terminates_iff (g : DebugInfo) (well : WellNamed g) :
    Terminates g ↔ ∀ n, ¬ TransGen (Skips g) n n := by
  constructor
  · intro ends n cycle
    have blank : Printed g [] ⟨[], []⟩ := ⟨nofun, .nil⟩
    obtain ⟨depth, s', e⟩ := ends.generate_struct ⟨⟨[], []⟩, ⟨[], []⟩⟩ n
    exact cycle_endless well.names cycle blank e
  · intro straight
    have each := generate_struct_ends well straight
    refine ⟨fun kinds n rounds pointer deep => ?_, fun s n => ?_, fun s n => ?_, fun n start => ?_,
      print_dot_ends well, fun depth l s types ran => ?_⟩
    · exact resolveUntil_rounds pointer deep (Nat.lt_succ_self _)
    · obtain ⟨depth, s', e, _⟩ := each s n
      exact ⟨depth, s', generate_struct_run ▸ e⟩
    · obtain ⟨depth, s', e, _⟩ := Traversal.fold_ends (a := n) (struct_marks well)
        fun m _ s' _ => each s' m
      rw [structTraversal_step, ← generate_struct_run] at e
      exact ⟨depth, s', e⟩
    · exact printDepth_ok well (Nat.lt_succ_self _)
    · exact generate_struct_once well.names types ran

/-- Finitely many types are listed. -/
lemma ofList_nodes (nodes : List DIType)
    (ordered : ∀ n < nodes.length, ∀ m ∈ (nodes.getD n .subroutine).parts, n < m) :
    {n | (DebugInfo.ofList nodes ordered).node n ≠ .subroutine}.Finite := by
  apply (Set.finite_Iio nodes.length).subset
  intro n other
  rw [Set.mem_Iio]
  apply lt_of_not_ge
  intro beyond
  exact other (List.getD_eq_default _ _ beyond)

/-- Where no source is a target, there is no cycle. -/
lemma no_cycle {α : Type} {R : α → α → Prop} (apart : ∀ a b c, R a b → ¬ R b c) (a : α) :
    ¬ TransGen R a a := by
  intro cycle
  obtain ⟨b, first, _⟩ := TransGen.head'_iff.1 cycle
  obtain ⟨c, _, last⟩ := TransGen.tail'_iff.1 cycle
  exact apart c a b last first

/-- Only one node without a name leads on, to the first one. -/
lemma pair_blank {n m : Nat} (blank : getName pairGraph n = "")
    (edge : Edge pairGraph n m) : n = 4 ∧ m = 0 := by
  obtain _ | _ | _ | _ | _ | n := n
  case succ.succ.succ.succ.zero =>
    rcases edge with base | mem
    · cases base
      exact ⟨rfl, rfl⟩
    · cases mem
  case succ.succ.succ.succ.succ =>
    rcases edge with base | mem
    · cases base
    · cases mem
  all_goals exact absurd blank (by decide)

/-- The types are well named. -/
lemma pair_wellNamed : WellNamed pairGraph where
  names := pair_names
  nodes := ofList_nodes pairNodes (by decide)
  named := by
    apply no_cycle
    rintro a b c ⟨blank, edge⟩ ⟨blank', _⟩
    obtain ⟨rfl, rfl⟩ := pair_blank blank edge
    exact absurd blank' (by decide)
  element a name bits base elements p node := by
    obtain _ | _ | _ | _ | _ | a := a <;> cases node
  record n record := by
    obtain _ | _ | _ | _ | _ | n := n
    all_goals first
      | rfl
      | cases record with
        | inl tag => cases tag
        | inr tag => cases tag
  pointer n name bits base elements node := by
    obtain _ | _ | _ | _ | _ | n := n <;> cases node

/-- Two structures that lead to each other. -/
theorem terminates_iff_pair : Terminates pairGraph := by
  apply (terminates_iff pairGraph pair_wellNamed).2
  apply no_cycle
  rintro a b c ⟨blank, mem⟩ ⟨blank', _⟩
  obtain _ | _ | _ | _ | _ | a := a
  case succ.succ.succ.succ.zero =>
    cases List.mem_singleton.1 mem
    exact absurd blank' (by decide)
  case succ.succ.succ.succ.succ => cases mem
  all_goals exact absurd blank (by decide)

/-- The name of the structure. -/
def loopName : String := "T"

/-- A typedef `T` of a structure without a name that has a pointer to `const T`. -/
def loopGraph : DebugInfo := .ofList [
  .derived (.other 38) "" 0 (some 1),
  .derived .typedef loopName 0 (some 2),
  .composite .structureType "" 64 none [.type 3],
  .derived .member "next" 64 (some 4),
  .derived .pointerType "" 64 (some 0)] (by decide)

/-- The edges go around: from the typedef to the structure, and by the pointer to the qualifier. -/
lemma loop_edge (edge : Edge loopGraph n m) : (n, m) ∈ [(0, 1), (1, 2), (2, 3), (3, 4), (4, 0)] := by
  obtain _ | _ | _ | _ | _ | n := n
  all_goals
    rcases edge with base | mem
    · cases base <;> decide
    · cases mem <;> first | decide | contradiction

/-- Every cycle passes the typedef. -/
lemma loop_named (n : Nat) :
    ¬ TransGen (fun n m => typeName loopGraph n = none ∧ Edge loopGraph n m) n n := by
  have up : ∀ n m, TransGen (fun n m => typeName loopGraph n = none ∧ Edge loopGraph n m) n m →
      [3, 4, 0, 1, 2].getD n 5 < [3, 4, 0, 1, 2].getD m 5 := by
    have step : ∀ n m, typeName loopGraph n = none ∧ Edge loopGraph n m →
        [3, 4, 0, 1, 2].getD n 5 < [3, 4, 0, 1, 2].getD m 5 := by
      rintro n m ⟨unnamed, edge⟩
      have around := loop_edge edge
      simp only [List.mem_cons, Prod.mk.injEq, List.not_mem_nil, or_false] at around
      rcases around with ⟨rfl, rfl⟩ | ⟨rfl, rfl⟩ | ⟨rfl, rfl⟩ | ⟨rfl, rfl⟩ | ⟨rfl, rfl⟩
      case inr.inl => cases unnamed
      all_goals decide
    intro n m path
    induction path with
    | single last => exact step _ _ last
    | tail _ last ih => exact ih.trans (step _ _ last)
  intro cycle
  exact absurd (up n n cycle) (lt_irrefl _)

/-- The types are well named. -/
lemma loop_wellNamed : WellNamed loopGraph where
  names := {
    base_type := by
      intro n b e
      obtain _ | _ | _ | _ | _ | n := n
      all_goals cases e <;> decide
    derived_name := by
      intro n tag name bits base node named
      obtain _ | _ | _ | _ | _ | n := n
      all_goals cases node
      · exact absurd rfl named
      · exact .inl rfl
      · exact .inr rfl
      · exact absurd rfl named
    composite_name := by
      intro n tag name bits base elements node named
      obtain _ | _ | _ | _ | _ | n := n
      all_goals cases node
      exact absurd rfl named }
  nodes := ofList_nodes _ _
  named n cycle := by
    apply loop_named n
    apply TransGen.mono ?_ n n cycle
    exact fun a b step => ⟨if_pos (.inr step.1), step.2⟩
  element a name bits base elements p node := by
    obtain _ | _ | _ | _ | _ | a := a <;> cases node
  record n record := by
    obtain _ | _ | _ | _ | _ | n := n
    all_goals first
      | rfl
      | cases record with
        | inl tag => cases tag
        | inr tag => cases tag
  pointer n name bits base elements node := by
    obtain _ | _ | _ | _ | _ | n := n <;> cases node

/-- The nodes without names are a cycle. -/
lemma loop_cycle : TransGen (Skips loopGraph) 2 2 := by
  have pointer : Skips loopGraph 2 4 := ⟨rfl, .head _⟩
  have qualifier : Skips loopGraph 4 0 := ⟨rfl, .head _⟩
  have target : Skips loopGraph 0 2 := ⟨rfl, .head _⟩
  exact ((TransGen.single pointer).tail qualifier).tail target

/-- Every cycle passes the typedef, from which the walk starts for `struct.T`. But `resolve2` goes past it
behind the qualifier, so that `generate_struct` does not return at any depth. -/
theorem typedef_skipped : WellNamed loopGraph ∧
    (∀ n, ¬ TransGen (fun n m => typeName loopGraph n = none ∧ Edge loopGraph n m) n n) ∧
    starts loopGraph [1] ["struct.T"] = [1] ∧
    ∀ depth s', generate_struct_dot loopGraph depth ⟨⟨[], []⟩, ⟨[], []⟩⟩ 1 ≠ .ok s' := by
  refine ⟨loop_wellNamed, loop_named, by decide, fun depth s' e => ?_⟩
  cases depth with
  | zero => cases e
  | succ depth =>
    have marked : Printed loopGraph [] ⟨[loopName], []⟩ := ⟨by decide, .nil⟩
    obtain ⟨s1, inner, _⟩ := bind_eq_ok.1 e
    obtain ⟨s2, first, _⟩ := bind_eq_ok.1 inner
    exact cycle_endless loop_wellNamed.names loop_cycle marked first

end Irx.Generator
