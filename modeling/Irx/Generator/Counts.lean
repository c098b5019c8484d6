import Irx.Debug.Search
import Irx.Generator.Print

/-!
# Lengths of arrays

The number of elements of an array is nowhere read from its subrange: the recursive search, twice, and the
generator divide the size of the array by the size of the node of its element type, and this node may be a
typedef or an empty structure (`counts_iff`).
-/

namespace Irx.Generator
open Irx.Lib Irx.Debug

/-- The sizes of arrays as compilers write them. -/
structure ArraySizes (g : DebugInfo) (bounds : Nat → List Nat) : Prop where
  /-- An array has an element type, a subrange for each dimension, and the size of all its elements. -/
  size : ∀ a name bits base elements, g.node a = .composite .arrayType name bits base elements →
    elements.length = (bounds a).length ∧ ∃ b k, base = some b ∧ bare g b = some k ∧
      bits = (bounds a).prod * bitsOf g b
  /-- Typedefs and qualified types have no size of their own. -/
  renamed : ∀ n tag name bits base, g.node n = .derived tag name bits base → tag.renames → bits = 0
  /-- Behind typedefs and qualifiers, the elements are no members. -/
  element : ∀ a name bits b k elements tag name' bits' base,
    g.node a = .composite .arrayType name bits (some b) elements → bare g b = some k →
    g.node k = .derived tag name' bits' base → tag = .pointerType
  pointer : ∀ n name bits base elements, g.node n ≠ .composite .pointerType name bits base elements

/-- The number of elements that a line gives an array. -/
def Line.count : Line → Option Nat
  | .field _ (.string n) => some n
  | .field _ (.list _ n) => some n
  | _ => none

/-- The searches and the generator compute the length of the array, whatever the field is called. -/
structure Counts (g : DebugInfo) (bounds : Nat → List Nat) (a bits : Nat) (base : Option Nat)
    (elements : List DINode) : Prop where
  search : arraySize g bits base elements = .ok (bounds a).prod
  print : ∀ field, ∃ lines, printArray g field a base = .ok lines ∧
    ∀ line ∈ lines, ∀ n, line.count = some n → n = (bounds a).prod

variable {g : DebugInfo} {bounds : Nat → List Nat} {a b k p depth fuel bits : Nat} {name field : String}
variable {base : Option Nat} {elements : List DINode} {needle path : List String} {info : BasicTypeInfo}

/-- Where there is no length, the search does not get past the array. -/
lemma process_uncounted {e : Abort} (node : g.node a = .composite .arrayType name bits base elements)
    (uncounted : arraySize g bits base elements = .error e) :
    process_element g needle (depth + 1) info (some a) path = .error e := by
  rw [process_element, node]
  simp only [reduceCtorEq, or_self, if_false, if_true, uncounted]
  rfl

/-- The generator reads the size of the node. -/
lemma getSizeInBits_eq (n : Nat) : getSizeInBits g n = (g.node n).sizeInBits := by
  rw [getSizeInBits]
  cases g.node n with
  | basic => rfl
  | derived => rfl
  | composite => rfl
  | subroutine => rfl

/-- Below qualifiers, there is the type itself or a typedef of it. -/
lemma resolveUntil_cases (pointer : ∀ tag name bits base, g.node k = .derived tag name bits base →
      tag = .pointerType) (e : bare g b = some k)
    (resolved : resolveUntil g [.baseType, .structureType, .unionType, .arrayType, .pointerType, .typedef] fuel
      (some b) = some p) : p = k ∨ ∃ name bits base, g.node p = .derived .typedef name bits base := by
  induction fuel generalizing b with
  | zero => cases resolved
  | succ fuel ih =>
    rw [resolveUntil] at resolved
    obtain ⟨tag, name, bits, base, node, renames, e'⟩ | ⟨own, _⟩ := bare_cases g b
    · cases base with
      | none => cases e.symm.trans e'
      | some b' =>
        split at resolved
        case isTrue kind =>
          cases resolved
          right
          rw [node, DIType.getTag] at kind
          cases tag with
          | typedef => exact ⟨name, bits, some b', node⟩
          | other => exact absurd kind (by simp)
          | _ => cases renames
        case isFalse =>
          rw [node] at resolved
          exact ih (e'.symm.trans e) resolved
    · cases own.symm.trans e
      split at resolved
      case isTrue =>
        cases resolved
        exact .inl rfl
      case isFalse other =>
        split at resolved
        case h_1 node =>
          rw [node, DIType.getTag, pointer _ _ _ _ node] at other
          exact absurd (by simp) other
        case h_2 => cases resolved

section Array

variable (sizes : ArraySizes g bounds) (node : g.node a = .composite .arrayType name bits base elements)
include sizes node

/-- The searches have the length of an array of one dimension whose element node has a size. -/
lemma arraySize_iff : arraySize g bits base elements = .ok (bounds a).prod ↔
    (bounds a).length = 1 ∧ ∃ b, base = some b ∧ (g.node b).sizeInBits ≠ 0 := by
  obtain ⟨dims, b, _, rfl, _, whole⟩ := sizes.size _ _ _ _ _ node
  constructor
  · intro counted
    obtain ⟨_, e, single, sized, _⟩ := arraySize_ok counted
    exact ⟨dims.symm.trans single, _, e, sized⟩
  · rintro ⟨single, _, ⟨⟩, sized⟩
    have own : bare g b = some b := by
      obtain ⟨_, _, _, _, node', renames, _⟩ | ⟨own, _⟩ := bare_cases g b
      · exact absurd (by rw [node']; exact sizes.renamed _ _ _ _ _ node' renames) sized
      · exact own
    have size : bitsOf g b = (g.node b).sizeInBits := by rw [bitsOf, own, Option.elim_some]
    have one : elements.length = 1 := dims.trans single
    rw [arraySize]
    simp only [one, ne_eq, not_true, if_false, sized]
    rw [whole, size, Nat.mul_div_cancel _ (Nat.pos_of_ne_zero sized)]

/-- The generator has the length unless the type below the qualifiers is a typedef or empty. -/
lemma printArray_iff :
    (∀ field, ∃ lines, printArray g field a base = .ok lines ∧
      ∀ line ∈ lines, ∀ n, line.count = some n → n = (bounds a).prod) ↔
      ∀ p, resolve g base = some p → (g.node p).sizeInBits ≠ 0 := by
  obtain ⟨_, b, k, rfl, e, whole⟩ := sizes.size _ _ _ _ _ node
  have direct : ∀ p, arrayElement g p = .ok p := by
    intro p
    rw [arrayElement]
    split
    case h_1 node' => exact absurd node' (sizes.pointer _ _ _ _ _)
    case h_2 => rfl
  constructor
  · intro prints p resolved empty
    obtain ⟨lines, printed, _⟩ := prints ""
    rw [printArray, resolved] at printed
    simp only [direct, ok_bind, getSizeInBits_eq, empty, if_true] at printed
    cases printed
  · intro sized field
    rw [printArray]
    cases resolved : resolve g (some b) with
    | none => exact ⟨[], rfl, fun line mem => absurd mem List.not_mem_nil⟩
    | some p =>
      have filled := sized p resolved
      obtain rfl | ⟨_, _, _, typedef⟩ := resolveUntil_cases
        (fun tag name bits base => sizes.element _ _ _ _ _ _ _ _ _ _ node e) e resolved
      · have size : bitsOf g b = (g.node p).sizeInBits := by rw [bitsOf, e, Option.elim_some]
        have count : getSizeInBits g a / getSizeInBits g p = (bounds a).prod := by
          rw [getSizeInBits_eq, getSizeInBits_eq, node]
          show bits / _ = _
          rw [whole, size, Nat.mul_div_cancel _ (Nat.pos_of_ne_zero filled)]
        simp only [direct, ok_bind, count]
        rw [getSizeInBits_eq, if_neg filled]
        split
        · refine ⟨_, rfl, fun line mem n counted => ?_⟩
          rw [List.mem_singleton.1 mem] at counted
          exact (Option.some.inj counted).symm
        · refine ⟨_, rfl, fun line mem n counted => ?_⟩
          rw [List.mem_singleton.1 mem] at counted
          exact (Option.some.inj counted).symm
      · exact absurd (by rw [typedef]; exact sizes.renamed _ _ _ _ _ typedef rfl) filled

/-- The three functions compute the declared length of an array if and only if it has one dimension and the
node of its element type has a size, which typedefs and empty structures do not. -/
theorem counts_iff : Counts g bounds a bits base elements ↔
    (bounds a).length = 1 ∧ ∃ b, base = some b ∧ (g.node b).sizeInBits ≠ 0 := by
  constructor
  · intro counts
    exact (arraySize_iff sizes node).1 counts.search
  · intro counted
    refine ⟨(arraySize_iff sizes node).2 counted, (printArray_iff sizes node).2 ?_⟩
    obtain ⟨_, b, k, rfl, e, _⟩ := sizes.size _ _ _ _ _ node
    obtain ⟨_, _, ⟨⟩, filled⟩ := counted
    intro p resolved
    rw [resolve, resolveUntil] at resolved
    split at resolved
    case isTrue =>
      cases resolved
      exact filled
    case isFalse other =>
      split at resolved
      case h_1 tag name' bits' base' node' =>
        obtain ⟨_, _, _, _, node'', renames, _⟩ | ⟨own, _⟩ := bare_cases g b
        · exact absurd (by rw [node'']; exact sizes.renamed _ _ _ _ _ node'' renames) filled
        · cases own.symm.trans e
          rw [node', DIType.getTag, sizes.element _ _ _ _ _ _ _ _ _ _ node e node'] at other
          exact absurd (by simp) other
      case h_2 => cases resolved

end Array

/-- The arrays have their sizes. -/
lemma fields_arraySizes : ArraySizes fieldsDebug fieldsBounds where
  size a name bits base elements node := by
    obtain rfl | rfl := fields_array (by rw [node]; rfl)
    · cases node
      exact ⟨rfl, 6, 6, rfl, rfl, rfl⟩
    · cases node
      exact ⟨rfl, 7, 8, rfl, rfl, rfl⟩
  renamed n tag name bits base node renames := by
    have empty := fields_node (P := fun node => node.getTag.renames → node.sizeInBits = 0) (by decide)
      (fun _ => rfl) n
    rw [node] at empty
    exact empty renames
  element a name bits b k elements tag name' bits' base node e node' := by
    obtain rfl | rfl := fields_array (by rw [node]; rfl)
    · cases node
      cases e
      cases node'
      rfl
    · cases node
      cases e
      cases node'
  pointer n name bits base elements node := by
    exact fields_written.tag n name bits base elements node

/-- An array of pointers. -/
theorem counts_iff_pointers : Counts fieldsDebug fieldsBounds 4 128 (some 6) [.other] :=
  (counts_iff fields_arraySizes rfl).2 ⟨rfl, 6, rfl, by decide⟩

/-- An array of a typedef: the searches and the generator divide by zero. -/
theorem typedef_uncounted : fieldsDebug.node 5 = .composite .arrayType "" 32 (some 7) [.other] ∧
    (fieldsBounds 5).prod = 4 ∧ ¬ Counts fieldsDebug fieldsBounds 5 32 (some 7) [.other] ∧
    arraySize fieldsDebug 32 (some 7) [.other] = .error .undefined ∧
    printArray fieldsDebug "bytes" 5 (some 7) = .error .undefined := by
  refine ⟨rfl, rfl, ?_, rfl, rfl⟩
  intro counts
  cases counts.search

end Irx.Generator
