import Irx.Debug.Reading
import Irx.Generator.Walk

/-!
# The fields of a class and the members they stand for

The printer flattens every member whose type has no name, `GEP` every member that has no name itself and is
written with the structure or union as its type. `Generates` says which member a printed field comes from,
and `fields_found_iff` that `GEP` finds it for every field unless the two differ (`Strays`).
-/

namespace Irx.Generator
open Irx.Lib Irx.Debug Relation

section Fields

variable (g : DebugInfo)

/-- The member gets a field of the name itself. -/
def PrintsField (field : String) (m : Nat) : Prop :=
  ∃ r lines v, resolve g (some m) = some r ∧ ¬ Unnamed g r ∧ print g m false = .ok lines ∧
    .field field v ∈ lines

/-- In the class of `S`, the field comes from the member `x`. -/
inductive Generates (field : String) : Nat → Nat → Prop where
  | own {S x} : .type x ∈ (g.node S).elements → PrintsField g field x → Generates field S x
  | flattened {S m r x} : .type m ∈ (g.node S).elements → resolve g (some m) = some r → Unnamed g r →
    Generates field r x → Generates field S x

/-- `GEP` leads from `S` by the name to the member `x`. -/
def FoundBy (field : String) (S x : Nat) : Prop :=
  ∃ out i, GEP g (some S) [field] = .ok out ∧ out.getLast? = some ⟨i, some x⟩

/-- The member has no name, and the structure or union itself for its type. -/
def Anonymous (m r : Nat) : Prop := ∃ bits, g.node m = .derived .member "" bits (some r)

/-- A field that does not stand for the member that `GEP` would look up. -/
inductive Strays : Nat → Prop where
  /-- A field without a name. -/
  | blank {S m} : .type m ∈ (g.node S).elements → PrintsField g "" m → Strays S
  /-- A field of a structure without a name, for a member that has a name or a qualified type. -/
  | flattened {S m r field x} : .type m ∈ (g.node S).elements → resolve g (some m) = some r →
    Unnamed g r → ¬ Anonymous g m r → Generates g field r x → Strays S
  | inside {S m r} : .type m ∈ (g.node S).elements → Anonymous g m r → Unnamed g r → Strays r → Strays S

/-- How C types share nodes: a member belongs to one type, and the type that is written in a member without
a name is the type of no other member. Structures and unions are composite types. -/
structure Sharing : Prop where
  record : ∀ n, IsRecord g n → isRecord g n
  owner : ∀ S S' m, .type m ∈ (g.node S).elements → .type m ∈ (g.node S').elements → S = S'
  alone : ∀ S S' m m' r, .type m ∈ (g.node S).elements → Anonymous g m r → Unnamed g r →
    .type m' ∈ (g.node S').elements → resolve g (some m') = some r → m = m'

end Fields

variable {g : DebugInfo} {bounds : Nat → List Nat} {S T c m r x depth : Nat} {field : String}
  {lines : List Line} {start : Bool}

/-! ### What a class prints -/

/-- What `print` writes for a member. -/
lemma printDepth_member {name : String} {bits : Nat} {base : Option Nat}
    (node : g.node m = .derived .member name bits base) : printDepth g (depth + 1) m false =
      match resolve g (some m) with
      | none => .ok []
      | some r => printResolved g (printDepth g depth) name r false := by
  cases resolved : resolve g (some m) with
  | none => exact printDepth_unresolved resolved
  | some r =>
    have own : getName g m = name := by rw [getName, node, DIType.getName]
    have plain : ∀ tag name bits base elements, g.node m ≠ .composite tag name bits base elements := by
      intro tag name bits base elements same
      cases node.symm.trans same
    rw [printDepth_plain plain resolved, own]

/-- A field has the name of its member. -/
lemma printsField_name {name : String} {bits : Nat} {base : Option Nat}
    (node : g.node m = .derived .member name bits base) (prints : PrintsField g field m) :
    field = name := by
  obtain ⟨r, lines, v, resolved, other, e, mem⟩ := prints
  rw [print, printDepth_member node, resolved] at e
  obtain ⟨v', same⟩ := (printResolved_field (printDepth g (g.rank m)) other).2 lines e _ mem
  cases same
  rfl

/-- A member gets the fields of its own name, or those of its type. -/
lemma printDepth_member_iff {name : String} {bits : Nat} {base : Option Nat}
    (node : g.node m = .derived .member name bits base)
    (below : ∀ r lines, Unnamed g r → printDepth g depth r false = .ok lines →
      ((∃ v, .field field v ∈ lines) ↔ ∃ x, Generates g field r x))
    (e : printDepth g (depth + 1) m false = .ok lines) :
    (∃ v, .field field v ∈ lines) ↔ PrintsField g field m ∨
      ∃ r x, resolve g (some m) = some r ∧ Unnamed g r ∧ Generates g field r x := by
  rw [printDepth_member node] at e
  cases resolved : resolve g (some m) with
  | none =>
    rw [resolved] at e
    cases e
    constructor
    · rintro ⟨v, mem⟩
      cases mem
    · rintro (⟨r, _, _, resolved', _⟩ | ⟨r, _, resolved', _⟩)
      · cases resolved.symm.trans resolved'
      · cases resolved'
  | some r =>
    simp only [resolved] at e
    by_cases unnamed : Unnamed g r
    case pos =>
      rw [printResolved_unnamed unnamed] at e
      rw [below r lines unnamed e]
      constructor
      · rintro ⟨x, generates⟩
        exact .inr ⟨r, x, rfl, unnamed, generates⟩
      · rintro (⟨r', _, _, resolved', other, _⟩ | ⟨_, x, ⟨⟩, _, generates⟩)
        · cases resolved.symm.trans resolved'
          exact absurd unnamed other
        · exact ⟨x, generates⟩
    case neg =>
      have own : print g m false = .ok lines := by
        rw [print, printDepth_member node, resolved]
        exact (printResolved_field _ unnamed).1.trans e
      constructor
      · rintro ⟨v, mem⟩
        exact .inl ⟨r, lines, v, resolved, unnamed, own, mem⟩
      · rintro (⟨_, _, v, _, _, own', mem⟩ | ⟨_, _, ⟨⟩, unnamed', _⟩)
        · cases own.symm.trans own'
          exact ⟨v, mem⟩
        · exact absurd unnamed' unnamed

/-- The structures and unions of both parts of the repository are the same. -/
lemma isRecord_iff : isRecord g S ↔ isComposite g S ∧ IsRecord g S := by
  rw [isRecord, isComposite, IsRecord]
  cases node : g.node S with
  | composite => simp [DIType.getTag]
  | _ => simp

/-- A class, or what is printed in one, has the fields that are written for its elements. -/
lemma printDepth_record (record : isRecord g S) (closes : getName g S ≠ "" ∨ start = false)
    (e : printDepth g (depth + 1) S start = .ok lines) :
    ∃ parts, (g.node S).elements.mapM (printElement g (printDepth g depth · false)) = .ok parts ∧
      ∀ field v, .field field v ∈ lines ↔ .field field v ∈ parts.flatten := by
  obtain ⟨composite, tag⟩ := isRecord_iff.1 record
  obtain ⟨tag', name, bits, base, elements, node⟩ := isComposite_node composite
  have resolved : resolve g (some S) = some S := by
    apply resolve_self
    obtain tag | tag := tag <;> simp [tag]
  have inner : (start && !opensClass g S start) = false := by
    obtain named | rfl := closes
    · obtain tag | tag := tag <;> simp [opensClass, tag, named]
    · rfl
  rw [printDepth] at e
  simp only [resolved, inner, node] at e
  obtain ⟨parts, each, e⟩ := bind_eq_ok.1 e
  cases e
  refine ⟨parts, by rw [node]; exact each, fun field v => ?_⟩
  rw [List.mem_append, or_iff_right]
  intro mem
  split at mem
  · cases List.mem_singleton.1 mem
  · cases mem

/-- The fields of a class come from its members. -/
lemma printDepth_generates (ctypes : CTypes g bounds) (sharing : Sharing g) (record : isRecord g S)
    (closes : getName g S ≠ "" ∨ start = false) (e : printDepth g depth S start = .ok lines) :
    (∃ v, .field field v ∈ lines) ↔ ∃ x, Generates g field S x := by
  -- a record needs the members, which need the records below
  suffices both : (∀ m name bits base lines, g.node m = .derived .member name bits base →
      printDepth g depth m false = .ok lines →
        ((∃ v, .field field v ∈ lines) ↔ PrintsField g field m ∨
          ∃ r x, resolve g (some m) = some r ∧ Unnamed g r ∧ Generates g field r x)) ∧
      ∀ S start lines, isRecord g S → (getName g S ≠ "" ∨ start = false) →
        printDepth g depth S start = .ok lines →
          ((∃ v, .field field v ∈ lines) ↔ ∃ x, Generates g field S x) from
    both.2 S start lines record closes e
  clear record closes e
  induction depth with
  | zero =>
    constructor
    · intro m name bits base lines _ e
      cases e
    · intro S start lines _ _ e
      cases e
  | succ depth ih =>
    obtain ⟨member, class'⟩ := ih
    constructor
    · intro m name bits base lines node e
      refine printDepth_member_iff node (fun r lines unnamed e => ?_) e
      exact class' r false lines (sharing.record r unnamed.1) (.inr rfl) e
    · intro S start lines record closes e
      have members := fun m mem =>
        (ctypes.member S m (isRecord_composite record) (isRecord_tag record) mem).2
      obtain ⟨parts, each, same⟩ := printDepth_record record closes e
      constructor
      · rintro ⟨v, there⟩
        obtain ⟨m, mem, _, lines, e, there⟩ := (mem_elements each).1 ((same field v).1 there)
        obtain ⟨name, bits, b, _, node, _⟩ := members m mem
        obtain prints | ⟨r, x, resolved, unnamed, generates⟩ := (member m _ _ _ lines node e).1 ⟨v, there⟩
        · exact ⟨m, .own mem prints⟩
        · exact ⟨x, .flattened mem resolved unnamed generates⟩
      · have found : ∀ m, .type m ∈ (g.node S).elements → (PrintsField g field m ∨
            ∃ r x, resolve g (some m) = some r ∧ Unnamed g r ∧ Generates g field r x) →
            ∃ v, .field field v ∈ lines := by
          intro m mem way
          obtain ⟨name, bits, b, _, node, _⟩ := members m mem
          obtain ⟨lines, e⟩ := ok_of_mapM each mem
          rw [printElement_derived node] at e
          obtain ⟨v, there⟩ := (member m _ _ _ lines node e).2 way
          exact ⟨v, (same field v).2 ((mem_elements each).2 ⟨m, mem, ⟨_, _, _, _, node⟩, lines, e, there⟩)⟩
        rintro ⟨x, generates⟩
        cases generates with
        | own mem prints => exact found x mem (.inl prints)
        | flattened mem resolved unnamed generates =>
          exact found _ mem (.inr ⟨_, x, resolved, unnamed, generates⟩)

/-! ### What is found -/

/-- Two ways to one end, where each step of the first is the only one to where it leads: the second is a part
of the first, or passes its start. -/
lemma comparable {α : Type} {A F : α → α → Prop} {s t c : α} (only : ∀ s t n, A s n → F t n → t = s)
    (down : ReflTransGen A s c) (way : ReflTransGen F t c) :
    ReflTransGen F t s ∨ ReflTransGen A s t ∧ ReflTransGen A t c := by
  induction down with
  | refl => exact .inl way
  | tail front last ih =>
    obtain rfl | ⟨b, way, last'⟩ := way.cases_tail
    · exact .inr ⟨front.tail last, .refl⟩
    · obtain rfl := only _ _ _ last last'
      exact (ih way).imp_right fun ⟨before, after⟩ => ⟨before, after.tail last⟩

/-- `GEP` enters a member without a name. -/
def Enters (g : DebugInfo) (S r : Nat) : Prop :=
  isRecord g S ∧ ∃ m, .type m ∈ (g.node S).elements ∧ Anonymous g m r ∧ plain g r = some r

/-- The printer goes on in the type of a member. -/
def Flattens (g : DebugInfo) (S r : Nat) : Prop :=
  ∃ m, .type m ∈ (g.node S).elements ∧ resolve g (some m) = some r ∧ Unnamed g r

/-- What is flattened into a structure is entered from it only. -/
lemma enters_only (sharing : Sharing g) (S T r : Nat) (enters : Enters g S r) (flattens : Flattens g T r) :
    T = S := by
  obtain ⟨_, m, mem, anonymous, _⟩ := enters
  obtain ⟨m', mem', resolved, unnamed⟩ := flattens
  obtain rfl := sharing.alone S T m m' r mem anonymous unnamed mem' resolved
  exact sharing.owner T S m mem' mem

/-- Resolving leads to no higher rank. -/
lemma resolveUntil_rank {kinds : List Tag} (pointer : Tag.pointerType ∈ kinds) {fuel : Nat}
    (e : resolveUntil g kinds fuel (some m) = some r) : g.rank r ≤ g.rank m := by
  induction fuel generalizing m with
  | zero => cases e
  | succ fuel ih =>
    rw [resolveUntil] at e
    split at e
    case isTrue =>
      cases e
      exact le_rfl
    case isFalse other =>
      split at e
      · rename_i tag name bits base node
        cases base with
        | none =>
          cases fuel <;> cases e
        | some b =>
          have lower := g.rank_derived _ _ _ _ _ node fun same => other (by rwa [node, same])
          exact (ih e).trans lower.le
      · cases e

/-- An element has a lower rank than its structure. -/
lemma element_rank (mem : .type m ∈ (g.node S).elements) : g.rank m < g.rank S := by
  cases node : g.node S with
  | composite tag name bits base elements =>
    rw [node] at mem
    exact g.rank_element _ _ _ _ _ _ _ node mem
  | _ =>
    rw [node] at mem
    cases mem

/-- What is flattened has a lower rank. -/
lemma flattens_rank (flattens : Flattens g S r) : g.rank r < g.rank S := by
  obtain ⟨m, mem, resolved, _⟩ := flattens
  exact (resolveUntil_rank (by decide) resolved).trans_lt (element_rank mem)

/-- On a way of flattening no rank is higher. -/
lemma flattens_chain_rank (way : ReflTransGen (Flattens g) S r) : g.rank r ≤ g.rank S := by
  induction way with
  | refl => exact le_rfl
  | tail _ last ih => exact (flattens_rank last).le.trans ih

/-- The type that is written in a member is what it resolves to. -/
lemma resolve_anonymous (anonymous : Anonymous g m r) (unnamed : Unnamed g r) :
    resolve g (some m) = some r := by
  obtain ⟨bits, node⟩ := anonymous
  have lower := rank_member node
  have kind : (g.node r).getTag ∈
      [Tag.baseType, .structureType, .unionType, .arrayType, .pointerType, .typedef] := by
    obtain tag | tag := unnamed.1 <;> simp [tag]
  obtain ⟨fuel, e⟩ : ∃ fuel, g.rank m = fuel + 1 := ⟨g.rank m - 1, by omega⟩
  have other : (g.node m).getTag ∉
      [Tag.baseType, .structureType, .unionType, .arrayType, .pointerType, .typedef] := by
    rw [node, DIType.getTag]
    decide
  rw [resolve, resolveUntil, if_neg other, node, e]
  show resolveUntil g _ (fuel + 1) (some r) = some r
  rw [resolveUntil, if_pos kind]

/-- A member is an element of a structure on the way, and a member of it. -/
lemma hasMember_chain (has : HasMember g (plain g) field S x) :
    ∃ c, ReflTransGen (Enters g) S c ∧ .type x ∈ (g.node c).elements ∧
      HasMember g (plain g) field c x := by
  induction has with
  | named record mem node named => exact ⟨_, .refl, mem, .named record mem node named⟩
  | @inside c m bits b n x record mem node entered _ ih =>
    obtain ⟨c', way, there⟩ := ih
    have same : b = n := by
      rw [plain] at entered
      split at entered
      · cases entered
        rfl
      · cases entered
    subst same
    exact ⟨c', way.head ⟨record, m, mem, ⟨bits, node⟩, entered⟩, there⟩

/-- The members of an entered structure are members. -/
lemma hasMember_of_chain (way : ReflTransGen (Enters g) S c) (has : HasMember g (plain g) field c x) :
    HasMember g (plain g) field S x := by
  induction way using ReflTransGen.head_induction_on with
  | refl => exact has
  | head first _ ih =>
    obtain ⟨record, m, mem, ⟨bits, node⟩, entered⟩ := first
    exact .inside record mem node entered ih

/-- A generated field is an element of a structure that is flattened. -/
lemma Generates.chain (generates : Generates g field S x) :
    ∃ c, ReflTransGen (Flattens g) S c ∧ .type x ∈ (g.node c).elements := by
  induction generates with
  | own mem _ => exact ⟨_, .refl, mem⟩
  | flattened mem resolved unnamed _ ih =>
    obtain ⟨c, way, there⟩ := ih
    exact ⟨c, way.head ⟨_, mem, resolved, unnamed⟩, there⟩

/-- A member that is looked up has a name. -/
lemma hasMember_named {enter : Nat → Option Nat} (has : HasMember g enter field S x) : field ≠ "" := by
  induction has with
  | named _ _ _ named => exact named
  | inside _ _ _ _ _ ih => exact ih

/-- Where a field comes from a type below, and `GEP` finds its member, it enters this type. -/
lemma enters_of_found (sharing : Sharing g) (flattens : Flattens g S r)
    (generates : Generates g field r x) (has : HasMember g (plain g) field S x) :
    (∃ T, Enters g T r) ∧ HasMember g (plain g) field r x := by
  have lower := flattens_rank flattens
  obtain ⟨c, down, mem, inside⟩ := hasMember_chain has
  obtain ⟨c', way, mem'⟩ := generates.chain
  obtain rfl := sharing.owner c c' x mem mem'
  obtain way | ⟨before, after⟩ := comparable (enters_only sharing) down way
  · exact absurd (flattens_chain_rank way) (by omega)
  · refine ⟨?_, hasMember_of_chain after inside⟩
    obtain rfl | ⟨T, _, last⟩ := before.cases_tail
    · exact absurd lower (lt_irrefl _)
    · exact ⟨T, last⟩

/-- A field that strays is not found. -/
lemma Strays.lost (sharing : Sharing g) (strays : Strays g S) :
    ∃ field x, Generates g field S x ∧ ¬ HasMember g (plain g) field S x := by
  induction strays with
  | blank mem prints => exact ⟨"", _, .own mem prints, fun has => hasMember_named has rfl⟩
  | @flattened S m r field x mem resolved unnamed written generates =>
    refine ⟨field, x, .flattened mem resolved unnamed generates, fun has => written ?_⟩
    obtain ⟨⟨T, _, m', mem', anonymous, _⟩, _⟩ :=
      enters_of_found sharing ⟨m, mem, resolved, unnamed⟩ generates has
    obtain rfl := sharing.alone T S m' m r mem' anonymous unnamed mem resolved
    exact anonymous
  | @inside S m r mem anonymous unnamed _ ih =>
    obtain ⟨field, x, generates, lost⟩ := ih
    have resolved := resolve_anonymous anonymous unnamed
    refine ⟨field, x, .flattened mem resolved unnamed generates, fun has => lost ?_⟩
    exact (enters_of_found sharing ⟨m, mem, resolved, unnamed⟩ generates has).2

/-- Every other field is found. -/
lemma Generates.found (ctypes : CTypes g bounds) (sharing : Sharing g) (record : isRecord g S)
    (straight : ¬ Strays g S) (generates : Generates g field S x) : HasMember g (plain g) field S x := by
  induction generates with
  | own mem prints =>
    obtain ⟨_, name, bits, b, _, node, _⟩ :=
      ctypes.member _ _ (isRecord_composite record) (isRecord_tag record) mem
    obtain rfl := printsField_name node prints
    refine .named record mem node ?_
    rintro rfl
    exact straight (.blank mem prints)
  | @flattened S m r x mem resolved unnamed generates ih =>
    by_cases anonymous : Anonymous g m r
    case pos =>
      have record' := sharing.record r unnamed.1
      have entered : plain g r = some r := if_pos (isRecord_composite record')
      obtain ⟨bits, node⟩ := id anonymous
      refine .inside record mem node entered (ih record' fun strays => ?_)
      exact straight (.inside mem anonymous unnamed strays)
    case neg => exact absurd (.flattened mem resolved unnamed anonymous generates) straight

/-- `GEP` finds the member that it enters. -/
lemma foundBy_iff (ctypes : CTypes g bounds) (record : isRecord g S) :
    FoundBy g field S x ↔ HasMember g (plain g) field S x := by
  have outcome := GEP_outcome ctypes (isRecord_composite record) [field]
  constructor
  · rintro ⟨out, i, e, last⟩
    cases outcome with
    | @reads out' i' y reads e' last' =>
      cases e.symm.trans e'
      cases last.symm.trans last'
      cases reads with
      | last finds _ => exact (finds_record_iff record).1 finds
    | nothing _ _ e' =>
      cases e.symm.trans e'
      cases last
    | breaks _ e' => cases e.symm.trans e'
  · intro has
    obtain ⟨name, bits, b, k, node, e⟩ := has.entered.node ctypes
    obtain ⟨m, resolved, _⟩ := resolve_member node e
    have reads : Reads g S [field] x := .last (.member has) resolved
    cases outcome with
    | @reads out i y reads' e last =>
      obtain rfl := reads.unique ctypes reads'
      exact ⟨out, i, e, last⟩
    | nothing none => exact absurd reads (none x)
    | breaks breaks => exact absurd breaks (reads.unbroken ctypes)

/-- The fields that a class prints come from members, and `GEP` leads by each of them to its member if and
only if none strays. -/
theorem fields_found_iff (ctypes : CTypes g bounds) (sharing : Sharing g) (record : isRecord g S)
    (closes : getName g S ≠ "" ∨ start = false) (ran : print g S start = .ok lines) :
    (∀ field, (∃ v, .field field v ∈ lines) ↔ ∃ x, Generates g field S x) ∧
      ((∀ field x, Generates g field S x → FoundBy g field S x) ↔ ¬ Strays g S) := by
  refine ⟨fun field => printDepth_generates ctypes sharing record closes ran, ?_⟩
  constructor
  · intro found strays
    obtain ⟨field, x, generates, lost⟩ := strays.lost sharing
    exact lost ((foundBy_iff ctypes record).1 (found field x generates))
  · intro straight field x generates
    exact (foundBy_iff ctypes record).2 (generates.found ctypes sharing record straight)

/-- `struct S { struct { int a; } inner; }` -/
def innerDebug : DebugInfo := .ofList [
  .composite .structureType "S" 32 none [.type 1],
  .derived .member "inner" 32 (some 2),
  .composite .structureType "" 32 none [.type 3],
  .derived .member "a" 32 (some 4),
  .basic "int" 32] (by decide)

/-- Both structures have one member. -/
lemma inner_elements (mem : .type m ∈ (innerDebug.node S).elements) :
    (S = 0 ∧ m = 1) ∨ (S = 2 ∧ m = 3) := by
  obtain _ | _ | _ | _ | _ | S := S
  · cases List.mem_singleton.1 mem
    exact .inl ⟨rfl, rfl⟩
  · cases mem
  · cases List.mem_singleton.1 mem
    exact .inr ⟨rfl, rfl⟩
  · cases mem
  · cases mem
  · cases mem

/-- All elements have names. -/
lemma inner_named (mem : .type m ∈ (innerDebug.node S).elements) :
    (innerDebug.node m).getName ≠ "" := by
  obtain ⟨rfl, rfl⟩ | ⟨rfl, rfl⟩ := inner_elements mem <;> decide

/-- The debug types are those of C. -/
lemma inner_ctypes : CTypes innerDebug fun _ => [] where
  member c m composite noArray mem := by
    obtain ⟨rfl, rfl⟩ | ⟨rfl, rfl⟩ := inner_elements mem
    · exact ⟨rfl, "inner", 32, 2, 2, rfl, rfl, fun _ => rfl⟩
    · exact ⟨rfl, "a", 32, 4, 4, rfl, rfl, nofun⟩
  array a name bits base elements node := by
    obtain _ | _ | _ | _ | _ | a := a <;> cases node
  unique field c x x' has has' := by
    refine has.unique_of_named (fun c m _ mem => inner_named mem) (fun c m m' _ mem mem' _ => ?_) has'
    obtain ⟨rfl, rfl⟩ | ⟨rfl, rfl⟩ := inner_elements mem
    all_goals
      obtain ⟨same, rfl⟩ | ⟨same, rfl⟩ := inner_elements mem'
      all_goals first
        | rfl
        | cases same

/-- Every structure is used once. -/
lemma inner_sharing : Sharing innerDebug where
  record n record := by
    obtain _ | _ | _ | _ | _ | n := n
    all_goals first
      | rfl
      | cases record with
        | inl tag => cases tag
        | inr tag => cases tag
  owner S S' m mem mem' := by
    obtain ⟨rfl, rfl⟩ | ⟨rfl, rfl⟩ := inner_elements mem
    all_goals
      obtain ⟨rfl, same⟩ | ⟨rfl, same⟩ := inner_elements mem'
      all_goals first
        | rfl
        | cases same
  alone S S' m m' r mem anonymous _ _ _ := by
    obtain ⟨bits, node⟩ := anonymous
    exact absurd (by rw [node]; rfl) (inner_named mem)

/-- The field is printed in its own class. -/
lemma inner_own : PrintsField innerDebug "a" 3 :=
  ⟨4, _, .primitive "Int32", rfl, fun unnamed => absurd unnamed.2 (by decide), rfl, .head _⟩

/-- The field of the inner structure is found in it. -/
theorem fields_found_iff_inner : FoundBy innerDebug "a" 2 3 := by
  have ran : print innerDebug 2 false = .ok [.field "a" (.primitive "Int32")] := rfl
  have straight : ¬ Strays innerDebug 2 := by
    intro strays
    cases strays with
    | blank mem prints =>
      obtain ⟨⟨⟩, _⟩ | ⟨_, rfl⟩ := inner_elements mem
      have node : innerDebug.node 3 = .derived .member "a" 32 (some 4) := rfl
      exact absurd (printsField_name node prints) (by decide)
    | flattened mem resolved unnamed =>
      obtain ⟨⟨⟩, _⟩ | ⟨_, rfl⟩ := inner_elements mem
      cases resolved
      exact absurd unnamed.2 (by decide)
    | inside mem anonymous =>
      obtain ⟨bits, node⟩ := anonymous
      exact absurd (by rw [node]; rfl) (inner_named mem)
  exact (fields_found_iff inner_ctypes inner_sharing rfl (.inr rfl) ran).2.2 straight "a" 3
    (.own (.head _) inner_own)

/-- The class of `S` has the field as well, but `GEP` finds nothing there. -/
theorem inner_field_lost : CTypes innerDebug (fun _ => []) ∧ Sharing innerDebug ∧
    print innerDebug 0 true = .ok [.dataclass "S", .field "a" (.primitive "Int32")] ∧
    Generates innerDebug "a" 0 3 ∧ GEP innerDebug (some 0) ["a"] = .ok [] ∧
    ¬ FoundBy innerDebug "a" 0 3 := by
  have lost : GEP innerDebug (some 0) ["a"] = .ok [] := by decide
  refine ⟨inner_ctypes, inner_sharing, rfl, ?_, lost, ?_⟩
  · exact .flattened (r := 2) (m := 1) (.head _) rfl ⟨.inl rfl, rfl⟩ (.own (.head _) inner_own)
  · rintro ⟨out, i, e, last⟩
    cases lost.symm.trans e
    cases last

end Irx.Generator
