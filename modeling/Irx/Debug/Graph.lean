import Irx.Basic
import Irx.Lib.CTypes

/-!
# Debug types and the search for members

The DWARF types of a module form a graph whose nodes are numbered; null pointers are `none`. Pointers
may close cycles, everything else leads to a node of lower rank, since no C type contains itself.
`GEP2MemberInfo` looks a member up in a composite type, also inside members without a name, and `GEP`
does so along a path; they return the index of every step together with the debug type it ends at.
-/

namespace Irx.Debug
open Irx.Lib

/-- The DWARF tags that the search tells apart. -/
inductive Tag where
  | baseType
  | structureType
  | unionType
  | arrayType
  | pointerType
  | typedef
  | member
  | subroutineType
  | other (n : Nat)
  deriving DecidableEq

/-- An element of a composite type: a type, or a subrange, an enumerator or a function. -/
inductive DINode where
  | type (id : Nat)
  | other
  deriving DecidableEq

/-- A debug type: `DIBasicType`, `DIDerivedType`, `DICompositeType` or `DISubroutineType`. -/
inductive DIType where
  | basic (name : String) (sizeInBits : Nat)
  | derived (tag : Tag) (name : String) (sizeInBits : Nat) (baseType : Option Nat)
  | composite (tag : Tag) (name : String) (sizeInBits : Nat) (baseType : Option Nat)
      (elements : List DINode)
  | subroutine

/-- The debug types of a module. Only pointers lead to a node that is not of lower rank. -/
structure DebugInfo where
  node : Nat → DIType
  rank : Nat → Nat
  rank_derived : ∀ n tag name bits b, node n = .derived tag name bits (some b) →
    tag ≠ .pointerType → rank b < rank n
  rank_base : ∀ n tag name bits b elements,
    node n = .composite tag name bits (some b) elements → rank b < rank n
  rank_element : ∀ n tag name bits base elements m,
    node n = .composite tag name bits base elements → .type m ∈ elements → rank m < rank n

/-- The nodes that a type contains or is made from; what a pointer points to is not among them. -/
def DIType.parts : DIType → List Nat
  | .basic _ _ => []
  | .derived tag _ _ base => if tag = .pointerType then [] else base.toList
  | .composite _ _ _ base elements => base.toList ++ elements.filterMap fun
    | .type m => some m
    | .other => none
  | .subroutine => []

/-- Debug types listed so that the parts of a type come after it. -/
def DebugInfo.ofList (nodes : List DIType)
    (ordered : ∀ n < nodes.length, ∀ m ∈ (nodes.getD n .subroutine).parts, n < m) : DebugInfo :=
  have down : ∀ n m, m ∈ (nodes.getD n .subroutine).parts → nodes.length - m < nodes.length - n := by
    intro n m mem
    by_cases lt : n < nodes.length
    · have := ordered n lt m mem
      omega
    · rw [List.getD_eq_default _ _ (not_lt.1 lt)] at mem
      cases mem
  { node := fun n => nodes.getD n .subroutine
    rank := fun n => nodes.length - n
    rank_derived := by
      intro n tag name bits b e ne
      apply down n b
      rw [e, DIType.parts, if_neg ne]
      exact .head _
    rank_base := by
      intro n tag name bits b elements e
      apply down n b
      rw [e]
      exact .head _
    rank_element := by
      intro n tag name bits base elements m e mem
      apply down n m
      rw [e]
      exact List.mem_append_right _ (List.mem_filterMap.2 ⟨_, mem, rfl⟩) }

/-- `getTag`. -/
def DIType.getTag : DIType → Tag
  | .basic _ _ => .baseType
  | .derived tag _ _ _ => tag
  | .composite tag _ _ _ _ => tag
  | .subroutine => .subroutineType

/-- `getName`. -/
def DIType.getName : DIType → String
  | .basic name _ => name
  | .derived _ name _ _ => name
  | .composite _ name _ _ _ => name
  | .subroutine => ""

/-- An index with the debug type it leads to. -/
structure DITypedIndex where
  index : Nat
  DITy : Option Nat
  deriving DecidableEq

section Loop

variable (node : Nat → DIType)

/-- The second half of the loop body of `toBasicType`, with the next round as a parameter. -/
def secondHalf (again : Option Nat → Except Abort (Option Nat)) (m : Nat) : Except Abort (Option Nat) :=
  match node m with
  | .basic _ _ => .ok (some m)
  | .composite tag _ _ base _ => if tag = .arrayType then again base else again none
  | .derived _ _ _ _ => again (some m)
  | .subroutine => again none

/-- The loop of `toBasicType`, for at most the given number of rounds. The nodes may have cycles. -/
def toBasicTypeLoop : Nat → Option Nat → Except Abort (Option Nat)
  | _, none => .ok none
  | 0, some _ => .error .undefined
  | rounds + 1, some n =>
    if (node n).getTag = .structureType then .ok none
    else if (node n).getTag = .unionType then .ok none
    else if (node n).getTag = .pointerType then .ok none
    else
      let DITy := match node n with
        | .derived _ _ _ base => base
        | _ => some n
      match DITy with
      | none => toBasicTypeLoop rounds none
      | some m => secondHalf node (toBasicTypeLoop rounds) m

/-- There is no basic type below a missing type. -/
@[simp] lemma toBasicTypeLoop_none {rounds : Nat} : toBasicTypeLoop node rounds none = .ok none := by
  rw [toBasicTypeLoop]

end Loop

section Search

variable (g : DebugInfo)

/-- The typedef loop of `resolveDerivedTypeBaseType`, for at most the given number of rounds. -/
def stripTypedefs : Nat → Nat → Except Abort Nat
  | 0, _ => .error .undefined
  | fuel + 1, n =>
    match g.node n with
    | .derived .typedef _ _ base =>
      match base with
      | none => .error .undefined
      | some b => stripTypedefs fuel b
    | _ => .ok n

/-- The base type of a derived type, without the typedefs around it. -/
def resolveDerivedTypeBaseType (DIMemberTy : Option Nat) : Except Abort (Option Nat) :=
  match DIMemberTy with
  | none => .ok none
  | some n =>
    match g.node n with
    | .derived _ _ _ none => .error .undefined
    | .derived _ _ _ (some b) => (stripTypedefs g (g.rank b + 1) b).map some
    | _ => (stripTypedefs g (g.rank n + 1) n).map some

/-- The basic type below derived types and arrays. -/
def toBasicType (DITy : Option Nat) : Except Abort (Option Nat) :=
  match DITy with
  | none => .ok none
  | some n => toBasicTypeLoop g.node (g.rank n + 1) (some n)

/-- The name by which the Python side knows a type. -/
def DIType2StringType (DITy : Option Nat) : Except Abort String :=
  match DITy with
  | none => .ok "unknown"
  | some n =>
    if (g.node n).getTag = .pointerType then .ok "PTR"
    else do
      let DIBTy ← toBasicType g (some n)
      match DIBTy with
      | none => .ok "unknown"
      | some m => .ok (g.node m).getName

/-- The size of a field in bits; composite types are not expected. -/
def getDIFieldSize (DITy : Option Nat) : Except Abort Nat := do
  let size_in_bits ← match DITy with
    | none => .error .undefined
    | some n =>
      match g.node n with
      | .basic _ bits => .ok bits
      | .derived _ _ bits _ => .ok bits
      | _ => .error .assertion
  if size_in_bits &&& 0x07 = 0 then .ok size_in_bits else .error .assertion

/-- `isspace`. -/
def isSpace (c : Char) : Bool := c = ' ' || ('\t' ≤ c && c ≤ '\r')

/-- Whether a numeral is negative, and what follows its sign. -/
def sign : List Char → Bool × List Char
  | '-' :: cs => (true, cs)
  | '+' :: cs => (false, cs)
  | cs => (false, cs)

/-- `std::stoi`: blanks, a sign and digits; the rest is ignored. -/
def stoi (s : String) : Except Abort Int :=
  let (negative, cs) := sign (s.toList.dropWhile isSpace)
  let digits := cs.takeWhile Char.isDigit
  if digits = [] then .error .invalidArgument
  else
    let value : Int := if negative then -decimal digits else decimal digits
    if -2147483648 ≤ value ∧ value ≤ 2147483647 then .ok value else .error .outOfRange

/-- The loop over the elements in `GEP2MemberInfo`, from an index on, with the recursive call as a
parameter. The index stands still in a union. -/
def memberLoop (recurse : Nat → Except Abort (List DITypedIndex)) (tag : Tag) (member : String) :
    Nat → List DINode → Except Abort (List DITypedIndex)
  | _, [] => .ok []
  | index, DINode :: rest =>
    let next := memberLoop recurse tag member (if tag ≠ .unionType then index + 1 else index) rest
    match DINode with
    | .other => next
    | .type m =>
      match g.node m with
      | .derived _ name _ base =>
        if name = "" then
          match base with
          | none => .error .undefined
          | some b =>
            match g.node b with
            | .composite _ _ _ _ _ => do
              let sub ← recurse b
              if sub.length > 0 then .ok (⟨index, some b⟩ :: sub) else next
            | _ => next
        else if name = member then .ok [⟨index, some m⟩]
        else next
      | _ => next

/-- The indices of a member in a composite type, or none. The first number bounds the depth of the
recursion. -/
def GEP2MemberInfo : Nat → Nat → String → Except Abort (List DITypedIndex)
  | 0, _, _ => .error .undefined
  | depth + 1, CTy, member =>
    match g.node CTy with
    | .composite tag _ _ base elements =>
      if tag = .arrayType then do
        let idx ← stoi member
        if idx ≥ 0 then .ok [⟨idx.toNat, base⟩] else .ok []
      else memberLoop g (fun b => GEP2MemberInfo depth b member) tag member 0 elements
    | _ => .error .undefined

/-- The loop of `GEP` over the path. -/
def gepLoop : Option Nat → List DITypedIndex → List String → Except Abort (List DITypedIndex)
  | _, indices, [] => .ok indices
  | none, _, _ :: _ => .ok []
  | some CTy, indices, member :: needle => do
    let sub ← GEP2MemberInfo g (g.rank CTy + 1) CTy member
    match sub.getLast? with
    | none => .ok []
    | some back => do
      let DIBTy ← resolveDerivedTypeBaseType g back.DITy
      match DIBTy with
      | none => .error .undefined
      | some n =>
        let NewCTy := match g.node n with
          | .composite _ _ _ _ _ => some n
          | _ => none
        gepLoop NewCTy (indices ++ sub) needle

/-- The indices of a path. -/
def GEP (CTy : Option Nat) (needle : List String) : Except Abort (List DITypedIndex) :=
  gepLoop g CTy [⟨0, CTy⟩] needle

end Search

end Irx.Debug
