import Irx.Debug.Access
import Irx.Debug.Steps

/-!
# Offsets behind unions

LLVM has one type for a union, that of its most aligned largest member, and a structure with bit-fields has
elements of its own. `Lowering` is what a compiler makes of all other types, and `SideBySide` goes along the
steps of a path behind the first union, where the elements of the kept member's type are compared with the
members that C means. They are the same where the path goes on through the members that LLVM keeps
(`NamesAt.sideBySide`). `offset_union` says for which valid paths the call returns the offset in C.
-/

namespace Irx.Debug
open Irx.Lib

section Unions

variable (g : DebugInfo)

/-- A bit-field is not as large as its type. -/
def isBitField (m : Nat) : Bool :=
  match g.node m with
  | .derived .member _ bits (some b) => bits ≠ bitsOf g b
  | _ => false

/-- A structure or union that lists members only, and no bit-fields. -/
def isWhole (c : Nat) : Bool :=
  isRecord g c && (g.node c).elements.all fun
    | .type m => !isBitField g m
    | .other => false

/-- A union of members that are no bit-fields. -/
def isWholeUnion (c : Nat) : Bool := isWhole g c && (g.node c).getTag = .unionType

/-- A structure of members that are no bit-fields, or an array. -/
def isStraight (c : Nat) : Bool := isWhole g c || (g.node c).getTag = .arrayType

variable (lower : Nat → LType)

/-- The LLVM type of a member. -/
def memberType : DINode → Option LType
  | .type m =>
    match g.node m with
    | .derived _ _ _ base => base.map lower
    | _ => none
  | .other => none

/-- The LLVM types of the members of a structure or union. -/
def memberTypes (c : Nat) : List LType := (g.node c).elements.filterMap (memberType g lower)

/-- What a compiler makes of the debug types: a structure without bit-fields has an element for each member,
at its offset, and of a union the most aligned largest member is kept. -/
structure Lowering (bounds : Nat → List Nat) (offset : Nat → Nat) (D : DataLayout) : Prop where
  named : ∀ n k, bare g n = some k → lower n = lower k
  struct : ∀ c, isWhole g c → (g.node c).getTag = .structureType →
    lower c = .struct (memberTypes g lower c) ∧ ∀ front m back,
      (g.node c).elements = front ++ .type m :: back →
        offset m = 8 * D.elementOffset (memberTypes g lower c) front.length
  union : ∀ c, isWhole g c → (g.node c).getTag = .unionType →
    lower c = D.unionOf (memberTypes g lower c) ∧ ∀ m, .type m ∈ (g.node c).elements → offset m = 0
  array : ∀ a name bits b elements, g.node a = .composite .arrayType name bits (some b) elements →
    lower a = (bounds a).foldr LType.array (lower b) ∧ bitsOf g b = 8 * D.allocSize (lower b)
  row : ∀ n t, D.allocSize (.array n t) = n * D.allocSize t

/-- From the first union on, the elements that the indices have in the type of the kept member start, in
sum, where the members and array elements of the path do. A structure with bit-fields, where the elements
are no members, is compared with the type that LLVM has for it. -/
def SideBySide (D : DataLayout) : List Step → Prop
  | [] => True
  | s :: rest =>
    if isWholeUnion g s.container then
      ∃ kept, D.kept (memberTypes g lower s.container) = some kept ∧ Shifted D kept (way rest) 0
    else if isStraight g s.container then SideBySide D rest
    else Shifted D (lower s.container) (way (s :: rest)) 0

/-- The steps go through structures without bit-fields and through arrays, and behind each union on in the
type of the member that LLVM keeps. -/
def ThroughKept (D : DataLayout) : List Step → Prop
  | [] => True
  | s :: rest =>
    isStraight g s.container ∧
      (isWholeUnion g s.container → ∀ next ∈ rest.head?,
        D.kept (memberTypes g lower s.container) = some (lower next.container)) ∧
      ThroughKept D rest

/-- A basic or derived type of whole bytes. -/
def HasSize (y : Nat) : Prop :=
  ∃ bits, bits % 8 = 0 ∧ ((∃ name, g.node y = .basic name bits) ∨
    ∃ tag name base, g.node y = .derived tag name bits base)

/-- The path is read as C means it, and what it ends at has a size. -/
structure Readable (bounds : Nat → List Nat) (c : Nat) (path : List String) : Prop where
  unbroken : ¬ Breaks g c path
  unmisled : ¬ Misled g bounds c path
  sized : ∀ y, Reads g c path y → HasSize g y

/-- The LLVM type of a place. -/
def placeType (bounds : Nat → List Nat) (p : Place) : LType :=
  if p.used = 0 then lower p.type
  else
    match bare g p.type with
    | none => lower p.type
    | some a =>
      match g.node a with
      | .composite _ _ _ (some b) _ => ((bounds a).drop p.used).foldr LType.array (lower b)
      | _ => lower p.type

end Unions

variable {g : DebugInfo} {bounds : Nat → List Nat} {offset : Nat → Nat} {D : DataLayout}
variable {lower : Nat → LType} {a b c k m n x y bits used : Nat} {p q : Place} {path : List String}
variable {steps later : List Step} {front back : List DINode} {component field name : String}
variable {IR : IRModule} {caches : Caches} {info : BasicTypeInfo}

/-! ### Side by side -/

/-- A step to a member starts at its structure. -/
@[simp] lemma memberStep_container : (memberStep g offset c m front).container = c := rfl

/-- A step to an item starts at its array. -/
@[simp] lemma indexStep_container (i : Nat) : (indexStep g bounds a b used i).container = a := rfl

/-- Only structures and unions have members. -/
lemma isWhole_record (whole : isWhole g c) : isRecord g c := (Bool.and_eq_true_iff.1 whole).1

/-- Of a structure without bit-fields, the `i`-th element is of the type of the `i`-th member. -/
lemma memberTypes_at (ctypes : CTypes g bounds) (whole : isWhole g c)
    (listed : (g.node c).elements = front ++ .type m :: back)
    (node : g.node m = .derived .member name bits (some b)) :
    (memberTypes g lower c)[front.length]? = some (lower b) := by
  have record := isWhole_record whole
  have typed : ∀ e ∈ front, ∃ t, memberType g lower e = some t := by
    intro e mem
    have listed' : e ∈ (g.node c).elements := by
      rw [listed]
      exact List.mem_append_left _ mem
    cases e with
    | other =>
      have all := List.all_eq_true.1 (Bool.and_eq_true_iff.1 whole).2 _ listed'
      cases all
    | type m =>
      obtain ⟨_, _, _, b, _, node, _⟩ :=
        ctypes.member c m (isRecord_composite record) (isRecord_tag record) listed'
      exact ⟨lower b, by rw [memberType, node]; rfl⟩
  have length : (front.filterMap (memberType g lower)).length = front.length := by
    clear listed
    induction front with
    | nil => rfl
    | cons e front ih =>
      obtain ⟨t, type⟩ := typed e (.head _)
      rw [List.filterMap_cons_some type, List.length_cons, List.length_cons,
        ih fun e mem => typed e (.tail _ mem)]
  have here : memberType g lower (.type m) = some (lower b) := by
    rw [memberType, node]
    rfl
  rw [memberTypes, listed, List.filterMap_append, List.filterMap_cons_some here, ← length,
    List.getElem?_append_right le_rfl, Nat.sub_self]
  rfl

/-- A step to a member. -/
lemma shifted_memberStep (ctypes : CTypes g bounds) (lowering : Lowering g lower bounds offset D)
    (record : isRecord g c) (listed : (g.node c).elements = front ++ .type m :: back)
    (node : g.node m = .derived .member name bits (some b))
    (rest : Shifted D (lower b) (way later) 0 ↔ SideBySide g lower D later) :
    Shifted D (lower c) (way (memberStep g offset c m front :: later)) 0 ↔
      SideBySide g lower D (memberStep g offset c m front :: later) := by
  rw [SideBySide]
  by_cases whole : isWhole g c
  case neg =>
    have tag := isRecord_tag record
    have noUnion : ¬ isWholeUnion g c := fun union => whole (Bool.and_eq_true_iff.1 union).1
    have noStraight : ¬ isStraight g c := by
      rw [isStraight, Bool.or_eq_true, decide_eq_true_eq, not_or]
      exact ⟨whole, tag⟩
    rw [memberStep_container, if_neg noUnion, if_neg noStraight]
  case pos =>
    have at_ : (memberTypes g lower c)[front.length]? = some (lower b) :=
      memberTypes_at ctypes whole listed node
    by_cases union : (g.node c).getTag = .unionType
    case pos =>
      obtain ⟨lowered, start⟩ := lowering.union c whole union
      obtain ⟨kept, keeps⟩ := D.kept_of_mem (List.mem_of_getElem? at_)
      have isUnion : isWholeUnion g c := by
        rw [isWholeUnion, whole, union]
        rfl
      have first : way (memberStep g offset c m front :: later) = (0, 0) :: way later := by
        rw [way, List.map_cons, memberStep, position, if_pos union, start m (mem_elements listed)]
        rfl
      rw [first, lowered, DataLayout.unionOf, memberStep_container, if_pos isUnion, keeps,
        shifted_first rfl]
      constructor
      · exact fun shifted => ⟨kept, rfl, shifted⟩
      · rintro ⟨_, ⟨⟩, shifted⟩
        exact shifted
    case neg =>
      have struct : (g.node c).getTag = .structureType := by
        obtain ⟨_, _, _, _, _, nodec⟩ := isComposite_node (isRecord_composite record)
        rw [nodec] at union ⊢
        exact ((isRecord_node_iff nodec).1 record).resolve_right union
      obtain ⟨lowered, start⟩ := lowering.struct c whole struct
      have noUnion : ¬ isWholeUnion g c := by
        rw [isWholeUnion, Bool.and_eq_true, decide_eq_true_eq]
        exact fun both => union both.2
      have straight : isStraight g c := by rw [isStraight, whole, Bool.true_or]
      have first : way (memberStep g offset c m front :: later) =
          (front.length, 8 * D.elementOffset (memberTypes g lower c) front.length) :: way later := by
        rw [way, List.map_cons, memberStep, position, if_neg union, start _ _ _ listed]
        rfl
      rw [first, lowered, shifted_struct at_, rest, memberStep_container, if_neg noUnion, if_pos straight]

/-- The steps to a member. -/
lemma MemberAt.shifted (ctypes : CTypes g bounds) (lowering : Lowering g lower bounds offset D)
    (at_ : MemberAt g offset field c x steps) (node : g.node x = .derived .member name bits (some b))
    (rest : Shifted D (lower b) (way later) 0 ↔ SideBySide g lower D later) :
    Shifted D (lower c) (way (steps ++ later)) 0 ↔ SideBySide g lower D (steps ++ later) := by
  induction at_ with
  | named record listed => exact shifted_memberStep ctypes lowering record listed node rest
  | inside record listed node' entered _ ih =>
    refine shifted_memberStep ctypes lowering record listed node' ?_
    rw [lowering.named _ _ entered]
    exact ih node

/-- Rows are as large as their elements. -/
lemma rows_allocSize (lowering : Lowering g lower bounds offset D) (dims : List Nat) (t : LType) :
    D.allocSize (dims.foldr LType.array t) = dims.prod * D.allocSize t := by
  induction dims with
  | nil => rw [List.foldr_nil, List.prod_nil, Nat.one_mul]
  | cons n dims ih => rw [List.foldr_cons, lowering.row, ih, List.prod_cons, Nat.mul_assoc]

/-- The items of an array are where its type has them. -/
lemma sideBySide_indexStep {elements : List DINode} {i : Nat}
    (node : g.node a = .composite .arrayType name bits (some b) elements) :
    SideBySide g lower D (indexStep g bounds a b used i :: later) ↔ SideBySide g lower D later := by
  have array : (g.node a).getTag = .arrayType := by rw [node]; rfl
  have noUnion : ¬ isWholeUnion g a := by
    rw [isWholeUnion, Bool.and_eq_true, decide_eq_true_eq, array]
    exact fun both => absurd both.2 (by decide)
  have straight : isStraight g a := by rw [isStraight, array, decide_eq_true rfl, Bool.or_true]
  rw [SideBySide, indexStep_container, if_neg noUnion, if_pos straight]

/-- A step to a row or an element of an array. -/
lemma shifted_indexStep (lowering : Lowering g lower bounds offset D) {elements : List DINode}
    {i bound : Nat}
    (node : g.node a = .composite .arrayType name bits (some b) elements)
    (dimension : (bounds a)[used]? = some bound)
    (rest : Shifted D (((bounds a).drop (used + 1)).foldr LType.array (lower b)) (way later) 0 ↔
      SideBySide g lower D later) :
    Shifted D (((bounds a).drop used).foldr LType.array (lower b))
        (way (indexStep g bounds a b used i :: later)) 0 ↔
      SideBySide g lower D (indexStep g bounds a b used i :: later) := by
  obtain ⟨lt, rfl⟩ := List.getElem?_eq_some_iff.1 dimension
  have bits := (lowering.array _ _ _ _ _ node).2
  have first : way (indexStep g bounds a b used i :: later) = (i, 8 *
      (i * D.allocSize (((bounds a).drop (used + 1)).foldr LType.array (lower b)))) :: way later := by
    rw [way, List.map_cons, indexStep, rowBits, rows_allocSize lowering, bits]
    congr 2
    ring
  rw [sideBySide_indexStep node, first, List.drop_eq_getElem_cons lt, List.foldr_cons, shifted_array, rest]

/-- At a type, the place has its LLVM type. -/
lemma placeType_type (n : Nat) : placeType g lower bounds ⟨n, 0⟩ = lower n := if_pos rfl

/-- The LLVM type of an array, or of a row of it. -/
lemma placeType_array (lowering : Lowering g lower bounds offset D) {elements : List DINode}
    (own : bare g n = some a) (node : g.node a = .composite .arrayType name bits (some b) elements) :
    placeType g lower bounds ⟨n, used⟩ = ((bounds a).drop used).foldr LType.array (lower b) := by
  rw [placeType]
  split
  case isTrue start =>
    cases start
    rw [lowering.named _ _ own, (lowering.array _ _ _ _ _ node).1]
    rfl
  case isFalse => simp only [own, node]

/-- The steps of a component. -/
lemma SelectsAt.shifted (ctypes : CTypes g bounds) (lowering : Lowering g lower bounds offset D)
    (selects : SelectsAt g bounds offset p component q steps bits)
    (rest : Shifted D (placeType g lower bounds q) (way later) 0 ↔ SideBySide g lower D later) :
    Shifted D (placeType g lower bounds p) (way (steps ++ later)) 0 ↔
      SideBySide g lower D (steps ++ later) := by
  cases selects with
  | member own at_ node =>
    rw [placeType_type] at rest ⊢
    rw [lowering.named _ _ own]
    exact at_.shifted ctypes lowering node rest
  | row own node dimension =>
    rw [placeType_array lowering (bare_node node) node] at rest
    rw [placeType_array lowering own node]
    exact shifted_indexStep lowering node dimension rest
  | element own node dimension _ _ last =>
    rw [placeType_type] at rest
    rw [placeType_array lowering own node]
    refine shifted_indexStep lowering node dimension ?_
    rwa [last, List.drop_length]

/-- The steps of a path. -/
lemma NamesAt.shifted (ctypes : CTypes g bounds) (lowering : Lowering g lower bounds offset D)
    (names : NamesAt g bounds offset p path steps bits) :
    Shifted D (placeType g lower bounds p) (way steps) 0 ↔ SideBySide g lower D steps := by
  induction names with
  | @last p q component steps bits selects =>
    have here : Shifted D (placeType g lower bounds q) (way []) 0 ↔ SideBySide g lower D [] :=
      iff_of_true shifted_nil trivial
    have same := selects.shifted ctypes lowering here
    rwa [List.append_nil] at same
  | cons selects _ ih => exact selects.shifted ctypes lowering ih

/-! ### Through the kept members -/

/-- The steps to a member start at the type that has it. -/
lemma MemberAt.head (at_ : MemberAt g offset field c x steps) :
    ∃ s rest, steps = s :: rest ∧ s.container = c := by
  cases at_ with
  | named => exact ⟨_, _, rfl, rfl⟩
  | inside => exact ⟨_, _, rfl, rfl⟩

/-- The steps of a path start at a type that is lowered like its first one. -/
lemma NamesAt.head (lowering : Lowering g lower bounds offset D)
    (names : NamesAt g bounds offset ⟨n, 0⟩ path steps bits) :
    ∃ s rest, steps = s :: rest ∧ lower s.container = lower n := by
  have first : ∀ {component q steps bits}, SelectsAt g bounds offset ⟨n, 0⟩ component q steps bits →
      ∃ s rest, steps = s :: rest ∧ lower s.container = lower n := by
    intro component q steps bits selects
    cases selects with
    | member own at_ _ =>
      obtain ⟨s, rest, rfl, rfl⟩ := at_.head
      exact ⟨s, rest, rfl, (lowering.named _ _ own).symm⟩
    | row own => exact ⟨_, _, rfl, (lowering.named _ _ own).symm⟩
    | element own => exact ⟨_, _, rfl, (lowering.named _ _ own).symm⟩
  cases names with
  | last selects => exact first selects
  | cons selects _ =>
    obtain ⟨s, rest, rfl, same⟩ := first selects
    exact ⟨s, _, rfl, same⟩

/-- What is true of steps is true of the later ones. -/
lemma ThroughKept.drop {steps' : List Step} (through : ThroughKept g lower D (steps ++ steps')) :
    ThroughKept g lower D steps' := by
  induction steps with
  | nil => exact through
  | cons _ _ ih => exact ih through.2.2

/-- Behind a step to a member of the type that is kept, the elements are those of the member. -/
lemma sideBySide_memberStep (ctypes : CTypes g bounds)
    (listed : (g.node c).elements = front ++ .type m :: back)
    (node : g.node m = .derived .member name bits (some b))
    (next : ∀ s ∈ later.head?, lower s.container = lower b) (rest : Shifted D (lower b) (way later) 0)
    (beside : SideBySide g lower D later)
    (through : ThroughKept g lower D (memberStep g offset c m front :: later)) :
    SideBySide g lower D (memberStep g offset c m front :: later) := by
  obtain ⟨straight, union, _⟩ := through
  rw [memberStep_container] at straight union
  rw [SideBySide, memberStep_container, if_pos straight]
  split
  case isFalse => exact beside
  case isTrue crossed =>
    have whole : isWhole g c := (Bool.and_eq_true_iff.1 crossed).1
    have at_ : (memberTypes g lower c)[front.length]? = some (lower b) :=
      memberTypes_at ctypes whole listed node
    obtain ⟨kept, keeps⟩ := D.kept_of_mem (List.mem_of_getElem? at_)
    refine ⟨kept, keeps, ?_⟩
    cases later with
    | nil => exact shifted_nil
    | cons s later =>
      cases keeps.symm.trans (union crossed s rfl)
      rwa [next s rfl]

section Through

variable (ctypes : CTypes g bounds) (lowering : Lowering g lower bounds offset D)
include ctypes lowering

/-- The steps to a member, where the later steps go on side by side. -/
lemma MemberAt.sideBySide (at_ : MemberAt g offset field c x steps)
    (node : g.node x = .derived .member name bits (some b))
    (next : ∀ s ∈ later.head?, lower s.container = lower b) (rest : Shifted D (lower b) (way later) 0)
    (beside : SideBySide g lower D later) (through : ThroughKept g lower D (steps ++ later)) :
    SideBySide g lower D (steps ++ later) := by
  induction at_ with
  | named _ listed => exact sideBySide_memberStep ctypes listed node next rest beside through
  | inside _ listed node' entered at_ ih =>
    have inner := ih node through.2.2
    have same := lowering.named _ _ entered
    refine sideBySide_memberStep ctypes listed node' ?_ ?_ inner through
    · obtain ⟨s, steps, rfl, start⟩ := at_.head
      rintro _ ⟨⟩
      rw [start, same]
    · rw [same]
      exact (at_.shifted ctypes lowering node (iff_of_true rest beside)).2 inner

/-- The steps of a component. -/
lemma SelectsAt.sideBySide (selects : SelectsAt g bounds offset p component q steps bits)
    (next : q.used = 0 → ∀ s ∈ later.head?, lower s.container = lower q.type)
    (rest : Shifted D (placeType g lower bounds q) (way later) 0)
    (beside : SideBySide g lower D later) (through : ThroughKept g lower D (steps ++ later)) :
    SideBySide g lower D (steps ++ later) := by
  cases selects with
  | member own at_ node =>
    rw [placeType_type] at rest
    exact at_.sideBySide ctypes lowering node (next rfl) rest beside through
  | row _ node => exact (sideBySide_indexStep node).2 beside
  | element _ node => exact (sideBySide_indexStep node).2 beside

/-- A path that goes on through the members that LLVM keeps goes side by side. -/
lemma NamesAt.sideBySide (names : NamesAt g bounds offset p path steps bits)
    (through : ThroughKept g lower D steps) : SideBySide g lower D steps := by
  induction names with
  | @last p q component steps bits selects =>
    rw [← List.append_nil steps] at through ⊢
    exact selects.sideBySide ctypes lowering (fun _ => nofun) shifted_nil trivial through
  | @cons p q component path steps steps' bits bits' selects rest ih =>
    have beside := ih through.drop
    refine selects.sideBySide ctypes lowering (fun start => ?_)
      ((rest.shifted ctypes lowering).2 beside) beside through
    obtain ⟨n, used⟩ := q
    cases start
    obtain ⟨s, steps, rfl, same⟩ := rest.head lowering
    rintro _ ⟨⟩
    exact same

end Through

/-! ### What the search says -/

/-- The debug types of which the size is known. -/
lemma hasSize_iff : HasSize g y ↔ ∃ bits, getDIFieldSize g (some y) = .ok bits := by
  rw [getDIFieldSize]
  constructor
  · rintro ⟨bits, whole, ⟨name, node⟩ | ⟨tag, name, base, node⟩⟩
    · simp only [node, ok_bind, if_pos (and_seven whole)]
      exact ⟨_, rfl⟩
    · simp only [node, ok_bind, if_pos (and_seven whole)]
      exact ⟨_, rfl⟩
  · rintro ⟨bits, sized⟩
    have whole : ∀ n : Nat,
        (if n &&& 0x07 = 0 then .ok n else .error .assertion : Except Abort Nat) = .ok bits →
          n % 8 = 0 := by
      intro n sized
      split at sized
      case isTrue seven =>
        rwa [show (0x07 : Nat) = 2 ^ 3 - 1 from rfl, Nat.and_two_pow_sub_one_eq_mod] at seven
      case isFalse => cases sized
    cases node : g.node y with
    | basic name size =>
      simp only [node, ok_bind] at sized
      exact ⟨size, whole size sized, .inl ⟨name, node⟩⟩
    | derived tag name size base =>
      simp only [node, ok_bind] at sized
      exact ⟨size, whole size sized, .inr ⟨tag, name, base, node⟩⟩
    | composite =>
      simp only [node] at sized
      cases sized
    | subroutine =>
      simp only [node] at sized
      cases sized

section Says

variable (ctypes : CTypes IR.debug bounds) (declared : Declared IR.debug)
variable (found : IR.types.find? (isStructNamed IR name) = some c)

/-- What is found is a structure. -/
lemma found_composite (found : IR.types.find? (isStructNamed IR name) = some c) :
    isComposite IR.debug c := by
  have named := List.find?_some found
  rw [isStructNamed] at named
  split at named
  case h_1 node => rw [isComposite, node]
  case h_2 => cases named

include ctypes declared found

/-- The answer for a valid path has no indices, or those of its steps. -/
lemma Told.gep_steps (told : Told IR name path info)
    (names : NamesAt IR.debug bounds offset ⟨c, 0⟩ path steps bits) :
    info.gep = [] ∨ info.gep = 0 :: steps.map Step.index := by
  rw [Told, found] at told
  obtain ⟨out, ran, told⟩ := bind_eq_ok.1 told
  rw [fieldInfo_gep told]
  by_cases filled : out = []
  case pos =>
    subst filled
    exact .inl rfl
  case neg => exact .inr (GEP_indices ctypes declared (found_composite found) names ran filled)

/-- The indices of a valid path are found exactly if it is readable. -/
lemma told_iff (names : NamesAt IR.debug bounds offset ⟨c, 0⟩ path steps bits) :
    (∃ info, Told IR name path info ∧ info.gep = 0 :: steps.map Step.index) ↔
      Readable IR.debug bounds c path := by
  have composite := found_composite found
  have more : path ≠ [] := by
    cases names with
    | last => exact nofun
    | cons => exact nofun
  have valid : Valid IR.debug bounds ⟨c, 0⟩ path := (namesAt_iff ctypes more).1 ⟨_, _, names⟩
  have outcome := GEP_outcome ctypes composite path
  simp only [Told, found]
  constructor
  · rintro ⟨info, told, indices⟩
    obtain ⟨out, ran, told⟩ := bind_eq_ok.1 told
    have filled : out ≠ [] := by
      rintro rfl
      rw [fieldInfo_gep told] at indices
      cases indices
    rw [ran] at outcome
    cases outcome with
    | nothing _ _ e =>
      cases e
      exact absurd rfl filled
    | breaks _ e => cases e
    | @reads out' i y reads e last =>
      cases e
      have unbroken := reads.unbroken ctypes
      refine ⟨unbroken, ?_, fun y' reads' => ?_⟩
      · rw [misled_iff ctypes composite unbroken, not_not]
        exact iff_of_true ⟨y, reads⟩ valid
      · cases reads.unique ctypes reads'
        rw [fieldInfo, last] at told
        obtain ⟨bits, sized, _⟩ := bind_eq_ok.1 told
        exact hasSize_iff.2 ⟨bits, sized⟩
  · intro readable
    have unmisled := readable.unmisled
    rw [misled_iff ctypes composite readable.unbroken, not_not] at unmisled
    obtain ⟨y, reads⟩ := unmisled.2 valid
    cases outcome with
    | nothing none => exact absurd reads (none y)
    | breaks breaks => exact absurd breaks readable.unbroken
    | @reads out i y' reads' ran last =>
      have filled : out ≠ [] := by
        rintro rfl
        cases last
      obtain ⟨bits, sized⟩ := hasSize_iff.1 (readable.sized y' reads')
      obtain ⟨m, resolved⟩ := reads'.resolves more
      obtain ⟨text, typed⟩ := DIType2StringType_ok (g := IR.debug) (some m)
      have told : ∃ info, fieldInfo IR out = .ok info := by
        rw [fieldInfo]
        simp only [last, sized, resolved, typed, ok_bind]
        exact ⟨_, rfl⟩
      obtain ⟨info, told⟩ := told
      refine ⟨info, (bind_ok ran _).trans told, ?_⟩
      rw [fieldInfo_gep told]
      exact GEP_indices ctypes declared composite names ran filled

end Says

/-- The indices of a way are those of its steps. -/
lemma way_indices (steps : List Step) : (way steps).map Prod.fst = steps.map Step.index := by
  rw [way, List.map_map]
  rfl

/-- The offsets of a way are those of its steps. -/
lemma way_offsets (steps : List Step) : ((way steps).map Prod.snd).sum = bitOffset steps := by
  rw [way, List.map_map]
  rfl

/-- Two numbers of bits are the same `size_t` if their difference is a multiple of `2 ^ 64`. -/
lemma word_eq_iff (a b : Nat) : word a = word b ↔ (2 ^ 64 : Int) ∣ (a : Int) - b - 0 := by
  rw [word, word]
  omega

/-- The debug types of `struct holder { union { struct { char a; int b; } s; struct { long p; long q; }
l; } u; }`. -/
def holderDebug : DebugInfo := .ofList [
  .composite .structureType "holder" 128 none [.type 1],
  .derived .member "u" 128 (some 2),
  .composite .unionType "" 128 none [.type 3, .type 4],
  .derived .member "s" 64 (some 5),
  .derived .member "l" 128 (some 6),
  .composite .structureType "" 64 none [.type 7, .type 8],
  .composite .structureType "" 128 none [.type 9, .type 10],
  .derived .member "a" 8 (some 11),
  .derived .member "b" 32 (some 12),
  .derived .member "p" 64 (some 13),
  .derived .member "q" 64 (some 13),
  .basic "char" 8,
  .basic "int" 32,
  .basic "long" 64] (by decide)

/-- Where the members are, in bits. -/
def holderOffset (x : Nat) : Nat := if x = 8 then 32 else if x = 10 then 64 else 0

/-- The LLVM type of the union: that of `l`. -/
def holderUnion : LType :=
  DataLayout.natural.unionOf [.struct [.scalar 8, .scalar 32], .struct [.scalar 64, .scalar 64]]

/-- The LLVM types. -/
def holderLower : Nat → LType
  | 0 => .struct [holderUnion]
  | 2 => holderUnion
  | 5 => .struct [.scalar 8, .scalar 32]
  | 6 => .struct [.scalar 64, .scalar 64]
  | 11 => .scalar 8
  | 12 => .scalar 32
  | _ => .scalar 64

/-- A module with `struct holder`. -/
def holderModule : IRModule where
  debug := holderDebug
  types := [0]
  structTypes := [("struct.holder", holderLower 0)]
  layout := .natural
  isLayoutIdentical := fun _ _ => true
  identical_self := fun _ => rfl

/-- The members with the types that list them. -/
def holderMembers : List (Nat × Nat) := [(0, 1), (2, 3), (2, 4), (5, 7), (5, 8), (6, 9), (6, 10)]

/-- All other nodes are function types. -/
lemma holder_node (n : Nat) : n < 14 ∨ holderDebug.node n = .subroutine := by
  by_cases lt : n < 14
  · exact .inl lt
  · exact .inr (List.getD_eq_default _ _ (not_lt.1 lt))

/-- The members of all structures and unions. -/
lemma holder_mem (mem : .type m ∈ (holderDebug.node c).elements) : (c, m) ∈ holderMembers := by
  obtain lt | out := holder_node c
  · have all : ∀ c < 14, ∀ e ∈ (holderDebug.node c).elements, ∀ m < 14, e = .type m →
        (c, m) ∈ holderMembers := by decide
    have small : ∀ c < 14, ∀ e ∈ (holderDebug.node c).elements, ∃ m < 14, e = .type m := by decide
    obtain ⟨m', lt', e⟩ := small c lt _ mem
    cases e
    exact all c lt _ mem m lt' rfl
  · rw [out] at mem
    cases mem

/-- There are no arrays. -/
lemma holder_no_array (n : Nat) : (holderDebug.node n).getTag ≠ .arrayType := by
  obtain lt | out := holder_node n
  · have all : ∀ n < 14, (holderDebug.node n).getTag ≠ .arrayType := by decide
    exact all n lt
  · rw [out]
    decide

/-- All members have names. -/
lemma holder_named (mem : .type m ∈ (holderDebug.node c).elements) : (holderDebug.node m).getName ≠ "" := by
  have all : ∀ cm ∈ holderMembers, (holderDebug.node cm.2).getName ≠ "" := by decide
  exact all _ (holder_mem mem)

/-- The debug types are those of C. -/
lemma holder_ctypes : CTypes holderDebug fun _ => [] where
  member c m _ _ mem := by
    have listed := holder_mem mem
    simp only [holderMembers, List.mem_cons, Prod.mk.injEq, List.not_mem_nil, or_false] at listed
    rcases listed with ⟨rfl, rfl⟩ | ⟨rfl, rfl⟩ | ⟨rfl, rfl⟩ | ⟨rfl, rfl⟩ | ⟨rfl, rfl⟩ | ⟨rfl, rfl⟩ |
      ⟨rfl, rfl⟩
    all_goals exact ⟨rfl, _, _, _, _, rfl, rfl, fun e => absurd e (by decide)⟩
  array a name bits base elements node := absurd (by rw [node]; rfl) (holder_no_array a)
  unique field c x x' has has' := by
    refine has.unique_of_named (fun c m _ mem => holder_named mem) ?_ has'
    intro c m m' _ mem mem' same
    have all : ∀ p ∈ holderMembers, ∀ q ∈ holderMembers, p.1 = q.1 →
        (holderDebug.node p.2).getName = (holderDebug.node q.2).getName → p.2 = q.2 := by decide
    exact all _ (holder_mem mem) _ (holder_mem mem') rfl same

/-- The members are reached by their own elements. -/
lemma holder_via (mem : .type m ∈ (holderDebug.node c).elements)
    (via : Via holderDebug (bare holderDebug) field m x) : x = m := by
  obtain ⟨_, _, _, _, same⟩ | ⟨_, _, _, node, _⟩ := via
  · exact same
  · exact absurd (congrArg DIType.getName node) (holder_named mem)

/-- The debug types are those of declarations. -/
lemma holder_declared : Declared holderDebug where
  listed c front m back e mem := by
    have nodup : (holderDebug.node c).elements.Nodup := by
      obtain lt | out := holder_node c
      · have all : ∀ c < 14, (holderDebug.node c).elements.Nodup := by decide
        exact all c lt
      · rw [out]
        exact List.nodup_nil
    rw [e] at nodup
    exact (List.nodup_append.1 nodup).2.2 _ mem _ (.head _) rfl
  once c field m m' x mem mem' via via' := (holder_via mem via).symm.trans (holder_via mem' via')
  name x field bits base node := by
    obtain lt | out := holder_node x
    · have all : ∀ x < 14, index? (holderDebug.node x).getName = none := by decide
      have named := all x lt
      rwa [node] at named
    · cases out.symm.trans node

/-- The structures are lowered as Clang does it. -/
lemma holder_lowering : Lowering holderDebug holderLower (fun _ => []) holderOffset .natural where
  named n k e := by
    have own : bare holderDebug n = some n := by
      obtain lt | out := holder_node n
      · have all : ∀ n < 14, bare holderDebug n = some n := by decide
        exact all n lt
      · refine bare_self fun tag name bits base node => ?_
        cases out.symm.trans node
    cases own.symm.trans e
    rfl
  struct c whole tag := by
    have known : ∀ c < 14, (holderDebug.node c).getTag = .structureType → c = 0 ∨ c = 5 ∨ c = 6 := by decide
    obtain lt | out := holder_node c
    case inr =>
      rw [out] at tag
      cases tag
    have lowered : holderLower c = .struct (memberTypes holderDebug holderLower c) := by
      obtain rfl | rfl | rfl := known c lt tag
      all_goals rfl
    refine ⟨lowered, fun front m back listed => ?_⟩
    have short : ∀ c < 14, (holderDebug.node c).elements.length ≤ 2 := by decide
    have starts : ∀ c ∈ [0, 5, 6], ∀ i < 2, ∀ cm ∈ holderMembers, cm.1 = c →
        (holderDebug.node c).elements[i]? = some (.type cm.2) → holderOffset cm.2 =
          8 * DataLayout.natural.elementOffset (memberTypes holderDebug holderLower c) i := by decide
    have le := short c lt
    have at_ : (holderDebug.node c).elements[front.length]? = some (.type m) := by
      rw [listed, List.getElem?_append_right le_rfl, Nat.sub_self]
      rfl
    rw [listed, List.length_append, List.length_cons] at le
    have record : c ∈ [0, 5, 6] := by simpa using known c lt tag
    exact starts c record front.length (by omega) _ (holder_mem (mem_elements listed)) rfl at_
  union c whole tag := by
    have known : ∀ c < 14, (holderDebug.node c).getTag = .unionType → c = 2 := by decide
    obtain lt | out := holder_node c
    case inr =>
      rw [out] at tag
      cases tag
    obtain rfl := known c lt tag
    refine ⟨rfl, fun m mem => ?_⟩
    have all : ∀ cm ∈ holderMembers, cm.1 = 2 → holderOffset cm.2 = 0 := by decide
    exact all _ (holder_mem mem) rfl
  array a name bits b elements node := absurd (by rw [node]; rfl) (holder_no_array a)
  row n t := rfl

/-- The union is the first member. -/
lemma holder_u : MemberAt holderDebug holderOffset "u" 0 1 [⟨0, 0, 0⟩] := by
  have listed : (holderDebug.node 0).elements = [] ++ .type 1 :: [] := rfl
  exact .named rfl listed rfl (by decide)

/-- The small structure is in the union. -/
lemma holder_s : MemberAt holderDebug holderOffset "s" 2 3 [⟨2, 0, 0⟩] := by
  have listed : (holderDebug.node 2).elements = [] ++ .type 3 :: [.type 4] := rfl
  exact .named rfl listed rfl (by decide)

/-- The large structure is in the union. -/
lemma holder_l : MemberAt holderDebug holderOffset "l" 2 4 [⟨2, 0, 0⟩] := by
  have listed : (holderDebug.node 2).elements = [.type 3] ++ .type 4 :: [] := rfl
  exact .named rfl listed rfl (by decide)

/-- The second member of the small structure. -/
lemma holder_b : MemberAt holderDebug holderOffset "b" 5 8 [⟨5, 1, 32⟩] := by
  have listed : (holderDebug.node 5).elements = [.type 7] ++ .type 8 :: [] := rfl
  exact .named rfl listed rfl (by decide)

/-- The second member of the large structure. -/
lemma holder_q : MemberAt holderDebug holderOffset "q" 6 10 [⟨6, 1, 64⟩] := by
  have listed : (holderDebug.node 6).elements = [.type 9] ++ .type 10 :: [] := rfl
  exact .named rfl listed rfl (by decide)

end Irx.Debug
