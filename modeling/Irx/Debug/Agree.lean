import Irx.Debug.Search

/-!
# The ways of the two searches

The recursive search counts the members before the one it goes on in, and goes through typedefs; the direct
search counts all elements, and enters a member without a name only where its type is written there. A way
is `Straight` where that makes no difference.
-/

namespace Irx.Debug
open Irx.Lib

section Agree

variable (g : DebugInfo)

/-- The element is counted by the recursive search. -/
def isDerived : DINode → Bool
  | .other => false
  | .type m =>
    match g.node m with
    | .derived _ _ _ _ => true
    | _ => false

/-- The index of the recursive search behind these elements. -/
def counted (tag : Tag) (front : List DINode) : Nat :=
  if tag = .unionType then 0 else front.countP (isDerived g)

/-- The index of the direct search behind these elements. -/
def position (tag : Tag) (front : List DINode) : Nat := if tag = .unionType then 0 else front.length

/-- The elements can be searched, and none of them has the member. -/
def Skipped (field : String) (front : List DINode) : Prop :=
  (∀ e ∈ front, ElementSearchable g e) ∧ ∀ m y, .type m ∈ front → ¬ Via g (bare g) field m y

/-- The way of the recursive search to the member `x`, with its indices and with those that the direct search
counts, and whether the direct search enters the same members without a name. -/
inductive Way (field : String) : Nat → List Nat → List Nat → Bool → Nat → Prop where
  | named {c x tag name size base front back bits DITy} :
    g.node c = .composite tag name size base (front ++ .type x :: back) → isRecord g c →
    Skipped g field front → g.node x = .derived .member field bits DITy → field ≠ "" →
    Way field c [counted g tag front] [position tag front] true x
  | inside {c m b n x tag name size base front back bits is js direct} :
    g.node c = .composite tag name size base (front ++ .type m :: back) → isRecord g c →
    Skipped g field front → g.node m = .derived .member "" bits (some b) → opened g b = some n →
    Way field n is js direct x →
    Way field c (counted g tag front :: is) (position tag front :: js) (isComposite g b && direct) x

/-- The member is reached by counting types only, and members without a name on the way are written with
their structure or union. -/
inductive Straight (field : String) : Nat → Nat → Prop where
  | named {c x tag name size base front back bits DITy} :
    g.node c = .composite tag name size base (front ++ .type x :: back) → isRecord g c →
    Skipped g field front → (tag = .unionType ∨ .other ∉ front) →
    g.node x = .derived .member field bits DITy → field ≠ "" → Straight field c x
  | inside {c m b x tag name size base front back bits} :
    g.node c = .composite tag name size base (front ++ .type m :: back) → isRecord g c →
    Skipped g field front → (tag = .unionType ∨ .other ∉ front) →
    g.node m = .derived .member "" bits (some b) → isRecord g b → Straight field b x →
    Straight field c x

end Agree

variable {g : DebugInfo} {bounds : Nat → List Nat} {needle path rest : List String}
variable {info info' : BasicTypeInfo} {a b c k m n x y depth index : Nat} {tag : Tag}
variable {name field component : String} {bits : Nat} {base : Option Nat}
variable {elements front back : List DINode} {is js : List Nat} {direct : Bool}
variable {element : BasicTypeInfo → Option Nat → List String → Except Abort (Bool × BasicTypeInfo)}

/-! ### The loops over the elements -/

/-- An element more, counted by the recursive search. -/
lemma counted_cons (e : DINode) : counted g tag (e :: front) =
    (if tag = .unionType then 0 else if isDerived g e then 1 else 0) + counted g tag front := by
  rw [counted, counted, List.countP_cons]
  split
  · rfl
  · omega

/-- An element more, counted by the direct search. -/
lemma position_cons (e : DINode) :
    position tag (e :: front) = (if tag = .unionType then 0 else 1) + position tag front := by
  rw [position, position]
  split
  · rfl
  · rw [List.length_cons]
    omega

/-- An element that is no type is not searched. -/
lemma elementLoop_other : elementLoop g element tag path index info (.other :: elements) =
    elementLoop g element tag path index info elements := rfl

/-- An element that is no derived type is not searched. -/
lemma elementLoop_plain (plain : ∀ tag name bits base, g.node m ≠ .derived tag name bits base) :
    elementLoop g element tag path index info (.type m :: elements) =
      elementLoop g element tag path index info elements := by
  rw [elementLoop]
  split
  case h_1 node => exact absurd node (plain _ _ _ _)
  case h_2 => rfl

/-- Such an element is not counted. -/
lemma isDerived_plain (plain : ∀ tag name bits base, g.node m ≠ .derived tag name bits base) :
    isDerived g (.type m) = false := by
  rw [isDerived]
  split
  case h_1 node => exact absurd node (plain _ _ _ _)
  case h_2 => rfl

/-- A derived type is counted. -/
lemma isDerived_type {tag : Tag} (node : g.node m = .derived tag name bits base) :
    isDerived g (.type m) = true := by
  rw [isDerived, node]

/-- A node is a derived type or is none. -/
lemma derived_or_plain (m : Nat) : (∃ tag name bits base, g.node m = .derived tag name bits base) ∨
    ∀ tag name bits base, g.node m ≠ .derived tag name bits base := by
  by_cases derived : ∃ tag name bits base, g.node m = .derived tag name bits base
  case pos => exact .inl derived
  case neg => exact .inr fun tag name bits base node => derived ⟨tag, name, bits, base, node⟩

/-- The loop behind elements that are passed. -/
lemma elementLoop_skip (each : ∀ m tag name bits base, .type m ∈ front →
      g.node m = .derived tag name bits base →
      Passes (∃ b, base = some b ∧ Searchable g b) info (element info base (behind path name)))
    (all : ∀ e ∈ front, ElementSearchable g e) :
    elementLoop g element tag path index info (front ++ elements) =
      elementLoop g element tag path (index + counted g tag front) info elements := by
  induction front generalizing index with
  | nil =>
    rw [counted, List.countP_nil, ite_self]
    rfl
  | cons e front ih =>
    have next : ∀ index, elementLoop g element tag path index info (front ++ elements) =
        elementLoop g element tag path (index + counted g tag front) info elements := fun index =>
      ih (fun m tag name bits base mem => each m tag name bits base (.tail _ mem))
        fun e mem => all e (.tail _ mem)
    rw [counted_cons, List.cons_append]
    cases e with
    | other =>
      rw [elementLoop_other, next]
      simp [isDerived]
    | type m =>
      obtain ⟨tag', name, bits, base, node⟩ | plain := derived_or_plain (g := g) m
      · have passed := each m _ _ _ _ (.head _) node
        have searchable := (elementSearchable_type node).1 (all _ (.head _))
        obtain ⟨_, e⟩ | ⟨fails, _⟩ := passed
        · rw [behind] at e
          rw [elementLoop, isDerived_type node]
          simp only [node, e, ok_bind, Bool.false_eq_true, if_false, if_true, next]
          congr 1
          split <;> omega
        · exact absurd searchable fails
      · rw [elementLoop_plain plain, isDerived_plain plain, next]
        simp

/-- An element by which the loop has found the field. -/
lemma elementLoop_found (e : elementLoop g element tag path index info elements = .ok (true, info')) :
    ∃ front m back tag' name bits base info1 info2, elements = front ++ .type m :: back ∧
      g.node m = .derived tag' name bits base ∧
      elementLoop g element tag path index info front = .ok (false, info1) ∧
      element info1 base (behind path name) = .ok (true, info2) ∧
      info' = info2.push_back (index + counted g tag front) := by
  induction elements generalizing index info with
  | nil => cases e
  | cons element' elements ih =>
    cases element' with
    | other =>
      obtain ⟨front, m, back, tag', name, bits, base, info1, info2, rfl, node, before, found, same⟩ := ih e
      refine ⟨.other :: front, m, back, tag', name, bits, base, info1, info2, rfl, node, before, found, ?_⟩
      rw [same, counted_cons]
      simp [isDerived]
    | type m =>
      obtain ⟨tag', name, bits, base, node⟩ | plain := derived_or_plain (g := g) m
      · rw [elementLoop] at e
        simp only [node] at e
        obtain ⟨⟨hit, info1⟩, first, e⟩ := bind_eq_ok.1 e
        cases hit with
        | true =>
          cases e
          refine ⟨[], m, elements, tag', name, bits, base, info, info1, rfl, node, rfl, first, ?_⟩
          rw [counted, List.countP_nil, ite_self]
          rfl
        | false =>
          obtain ⟨front, m', back, tag'', name', bits', base', info2, info3, rfl, node', before, found,
            same⟩ := ih e
          refine ⟨.type m :: front, m', back, tag'', name', bits', base', info2, info3, rfl, node', ?_,
            found, ?_⟩
          · rw [elementLoop]
            simp only [node, first, ok_bind, Bool.false_eq_true, if_false]
            exact before
          · rw [same, counted_cons, isDerived_type node]
            congr 1
            simp only [if_true]
            split <;> omega
      · rw [elementLoop_plain plain] at e
        obtain ⟨front, m', back, tag', name, bits, base, info1, info2, rfl, node, before, found, same⟩ :=
          ih e
        refine ⟨.type m :: front, m', back, tag', name, bits, base, info1, info2, rfl, node, ?_, found, ?_⟩
        · rw [elementLoop_plain plain]
          exact before
        · rw [same, counted_cons, isDerived_plain plain]
          simp

/-! ### The recursive search -/

/-- What the recursive search enters is what the type names. -/
lemma opened_entered : ∀ b n, opened g b = some n → bare g b = some n := fun _ _ e => (opened_bare e).1

/-- A way starts at a structure or union. -/
lemma Way.record (way : Way g field c is js direct x) : isRecord g c := by
  cases way with
  | named _ record => exact record
  | inside _ record => exact record

/-- The way leads to a member in C. -/
lemma Way.hasMember (way : Way g field c is js direct x) : HasMember g (bare g) field c x := by
  induction way with
  | named node record _ node' named =>
    refine .named record ?_ node' named
    rw [node]
    exact List.mem_append_right _ (.head _)
  | inside node record _ node' entered _ ih =>
    refine .inside record ?_ node' (opened_entered _ _ entered) ih
    rw [node]
    exact List.mem_append_right _ (.head _)

/-- Typedefs are taken off. -/
lemma process_strip (needle : List String) (e : bare g n = some k) (deep : g.rank n < depth) :
    ∃ m depth', stripTypedefs g (g.rank n + 1) n = .ok m ∧ bare g m = some k ∧
      (∀ name bits base, g.node m ≠ .derived .typedef name bits base) ∧ g.rank m < depth' ∧
      depth' ≤ depth ∧ ∀ info path, process_element g needle depth info (some n) path =
        process_element g needle depth' info (some m) path := by
  induction depth generalizing n with
  | zero => exact absurd deep (Nat.not_lt_zero _)
  | succ depth ih =>
    by_cases typedef : ∃ name bits base, g.node n = .derived .typedef name bits base
    case pos =>
      obtain ⟨name, bits, base, node⟩ := typedef
      have renames : Tag.typedef.renames := rfl
      rw [bare_renames node renames] at e
      cases base with
      | none => cases e
      | some b =>
        have lower := rank_typedef node
        obtain ⟨m, depth', stripped, own, other, deep', le, same⟩ := ih e (by omega)
        refine ⟨m, depth', (stripTypedefs_typedef node).trans stripped, own, other, deep', by omega,
          fun info path => ?_⟩
        rw [process_element, node]
        exact same info path
    case neg =>
      have other : ∀ name bits base, g.node n ≠ .derived .typedef name bits base :=
        fun name bits base node => typedef ⟨name, bits, base, node⟩
      exact ⟨n, depth + 1, stripTypedefs_self other, e, other, deep, le_rfl, fun _ _ => rfl⟩

/-- A structure or union is searched by its elements. -/
lemma process_record (record : isRecord g c) (node : g.node c = .composite tag name bits base elements) :
    process_element g needle (depth + 1) info (some c) path =
      elementLoop g (process_element g needle depth) tag path 0 info elements := by
  have noArray := isRecord_tag record
  rw [node, DIType.getTag] at noArray
  rw [process_element, node]
  simp only [(isRecord_node_iff node).1 record, if_true]
  rw [process_composite_struct, node]
  simp only [noArray, if_false]
  cases elementLoop g (process_element g needle depth) tag path 0 info elements with
  | error e => rfl
  | ok r =>
    obtain ⟨found, info'⟩ := r
    cases found <;> rfl

section Found

variable (ctypes : CTypes g bounds) (emitted : Emitted g bounds)
include ctypes emitted

/-- An element without the member is passed. -/
lemma element_passes (live : needle = path ++ component :: rest) (record : isRecord g c)
    (mem : .type m ∈ (g.node c).elements) (node : g.node m = .derived tag name bits base)
    (other : ∀ y, ¬ Via g (bare g) component m y) (deep : g.rank c ≤ depth) :
    Passes (∃ b, base = some b ∧ Searchable g b) info
      (process_element g needle depth info base (behind path name)) := by
  obtain ⟨_, name', bits', b, k, node', e, blank⟩ :=
    ctypes.member c m (isRecord_composite record) (isRecord_tag record) mem
  cases node.symm.trans node'
  obtain ⟨_, _, _, _, _, nodec⟩ := isComposite_node (isRecord_composite record)
  have lower : g.rank m < g.rank c := by
    rw [nodec] at mem
    exact g.rank_element _ _ _ _ _ _ _ nodec mem
  have lower' := rank_member node
  have whole : Searchable g b ↔ ∃ b', some b = some b' ∧ Searchable g b' := by
    simp only [Option.some.injEq, exists_eq_left']
  refine Passes.iff ?_ whole
  rw [behind]
  split
  case isTrue unnamed =>
    subst unnamed
    refine passes_other ctypes emitted live e (blank rfl) (fun c' x entered has => ?_) (by omega)
    exact other x ((via_anonymous node).2 ⟨c', (opened_bare entered).1, has.imp opened_entered⟩)
  case isFalse named =>
    refine passes_away emitted ctypes (fun further => ?_) (by omega)
    rw [live, prefix_behind] at further
    exact other m ((via_named node named).2 ⟨further, rfl⟩)

/-- Where the recursive search has found the path, it went a way to the first member and found the rest
there. -/
lemma way_of_found (record : isRecord g c) (live : needle = path ++ component :: rest)
    (e : process_element g needle depth info (some c) path = .ok (true, info')) (deep : g.rank c < depth) :
    ∃ is js direct x bits b info1 depth', Way g component c is js direct x ∧
      g.node x = .derived .member component bits (some b) ∧ g.rank b < depth' ∧
      process_element g needle depth' info (some b) (path ++ [component]) = .ok (true, info1) ∧
      info' = { info1 with gep := info1.gep ++ is.reverse } := by
  induction depth using Nat.strong_induction_on generalizing c info info' with
  | _ depth ih =>
    cases depth with
    | zero => exact absurd deep (Nat.not_lt_zero _)
    | succ depth =>
      obtain ⟨tag, name, size, base, elements, node⟩ := isComposite_node (isRecord_composite record)
      rw [process_record record node] at e
      obtain ⟨front, m, back, tag', field, bits, DITy, info1, info2, rfl, nodem, before, found, same⟩ :=
        elementLoop_found e
      have listed : (g.node c).elements = front ++ .type m :: back := by rw [node]; rfl
      have mem : .type m ∈ (g.node c).elements := by
        rw [listed]
        exact List.mem_append_right _ (.head _)
      obtain ⟨_, field', bits', b, k, node', named, blank⟩ :=
        ctypes.member c m (isRecord_composite record) (isRecord_tag record) mem
      cases nodem.symm.trans node'
      have lower := g.rank_element _ _ _ _ _ _ _ node (List.mem_append_right _ (.head _))
      have lower' := rank_member nodem
      -- if a member is reached by this element, the elements before it are passed
      have skipped : ∀ x, Via g (bare g) component m x → Skipped g component front ∧ info1 = info := by
        intro x via
        have none : ∀ m' y, .type m' ∈ front → ¬ Via g (bare g) component m' y := by
          intro m' y mem' via'
          have there : .type m' ∈ (g.node c).elements := by
            rw [listed]
            exact List.mem_append_left _ mem'
          obtain rfl := ctypes.unique component c x y (hasMember_iff.2 ⟨record, m, mem, via⟩)
            (hasMember_iff.2 ⟨record, m', there, via'⟩)
          obtain rfl := emitted.once c component m m' x mem there via via'
          exact emitted.listed c front m back listed mem'
        have passed : Passes (∀ e ∈ front, ElementSearchable g e) info
            (elementLoop g (process_element g needle depth) tag path 0 info front) :=
          elementLoop_passes fun m' tag' name' bits' base' mem' node'' =>
            element_passes ctypes emitted live record (listed ▸ List.mem_append_left _ mem') node''
              (fun y => none m' y mem') (by omega)
        obtain ⟨all, _, same⟩ := passed.ok before
        exact ⟨⟨all, none⟩, same⟩
      rw [Nat.zero_add] at same
      by_cases unnamed : field = ""
      case pos =>
        subst unnamed
        have found' : process_element g needle depth info1 (some b) path = .ok (true, info2) := found
        have deep' : g.rank b < depth := by omega
        obtain ⟨s, depth', stripped, own, other, deep', le, same'⟩ := process_strip needle named deep'
        rw [same'] at found'
        obtain rfl : s = k := by
          obtain ⟨tag', name', bits', base', node', renames, _⟩ | ⟨own', _⟩ := bare_cases g s
          · -- a qualified type is not entered
            exfalso
            have differ : needle ≠ path := by
              rw [live]
              simp
            cases depth' with
            | zero => exact absurd deep' (Nat.not_lt_zero _)
            | succ depth' =>
              rw [process_qualified node' renames other, decide_eq_false differ] at found'
              cases found'
          · exact Option.some.inj (own'.symm.trans own)
        have entered : opened g b = some s := by
          rw [opened, stripped]
          exact if_pos (blank rfl)
        obtain ⟨is, js, direct, x, bits', b', info3, depth'', way, node'', deep'', found'', same''⟩ :=
          ih depth' (by omega) (blank rfl) found' deep'
        have via : Via g (bare g) component m x := (via_anonymous nodem).2 ⟨s, named, way.hasMember⟩
        obtain ⟨skip, rfl⟩ := skipped x via
        refine ⟨_, _, _, x, bits', b', info3, depth'', .inside node record skip nodem entered way, node'',
          deep'', found'', ?_⟩
        rw [same, same'', BasicTypeInfo.push_back]
        simp only [List.reverse_cons, List.append_assoc]
      case neg =>
        have there : behind path field = path ++ [field] := if_neg unnamed
        rw [there] at found
        obtain rfl : field = component := by
          by_contra differ
          have away : ¬ path ++ [field] <+: needle := by
            rw [live, prefix_behind]
            exact differ
          have deep' : g.rank b < depth := by omega
          exact (passes_away emitted ctypes away deep').not_found found
        obtain ⟨skip, rfl⟩ := skipped m ((via_named nodem unnamed).2 ⟨rfl, rfl⟩)
        refine ⟨_, _, _, m, bits, b, info2, depth, .named node record skip nodem unnamed, nodem, by omega,
          found, ?_⟩
        rw [same, BasicTypeInfo.push_back]
        rfl

/-- Along a way, the recursive search finds what it finds in the type of the member. -/
lemma found_of_way (way : Way g component c is js direct x) (live : needle = path ++ component :: rest)
    (node : g.node x = .derived .member component bits (some b))
    (found : ∀ depth, g.rank b < depth →
      process_element g needle depth info (some b) (path ++ [component]) = .ok (true, info'))
    (deep : g.rank c < depth) : process_element g needle depth info (some c) path =
      .ok (true, { info' with gep := info'.gep ++ is.reverse }) := by
  induction way generalizing depth with
  | @named c x tag name size base front back bits' DITy nodec record skip node' named =>
    cases node.symm.trans node'
    cases depth with
    | zero => exact absurd deep (Nat.not_lt_zero _)
    | succ depth =>
      have lower := g.rank_element _ _ _ _ _ _ _ nodec (List.mem_append_right _ (.head _))
      have lower' := rank_member node
      have listed : (g.node c).elements = front ++ .type x :: back := by rw [nodec]; rfl
      rw [process_record record nodec, elementLoop_skip (fun m' tag' name' bits' base' mem' node'' =>
        element_passes ctypes emitted live record (listed ▸ List.mem_append_left _ mem') node''
          (fun y => skip.2 m' y mem') (by omega)) skip.1, elementLoop]
      have hit := found depth (by omega)
      simp only [node, named, if_false, hit, ok_bind, if_true, BasicTypeInfo.push_back, Nat.zero_add]
      rfl
  | @inside c m b' n x tag name size base front back bits' is js direct nodec record skip node' entered _ ih =>
    cases depth with
    | zero => exact absurd deep (Nat.not_lt_zero _)
    | succ depth =>
      have lower := g.rank_element _ _ _ _ _ _ _ nodec (List.mem_append_right _ (.head _))
      have lower' := rank_member node'
      have listed : (g.node c).elements = front ++ .type m :: back := by rw [nodec]; rfl
      have deep' : g.rank b' < depth := by omega
      obtain ⟨s, depth', stripped, _, _, deep'', _, same⟩ :=
        process_strip needle (opened_bare entered).1 deep'
      obtain rfl : s = n := by
        rw [opened, stripped] at entered
        simp only at entered
        split at entered
        · exact Option.some.inj entered
        · cases entered
      rw [process_record record nodec, elementLoop_skip (fun m' tag' name' bits' base' mem' node'' =>
        element_passes ctypes emitted live record (listed ▸ List.mem_append_left _ mem') node''
          (fun y => skip.2 m' y mem') (by omega)) skip.1, elementLoop]
      simp only [node', if_true, same, ih node deep'', ok_bind, BasicTypeInfo.push_back, Nat.zero_add,
        List.reverse_cons, List.append_assoc]

end Found

/-! ### The direct search -/

/-- Both searches list one index for each member on the way. -/
lemma Way.length_eq (way : Way g field c is js direct x) : is.length = js.length := by
  induction way with
  | named => rfl
  | inside _ _ _ _ _ _ ih => rw [List.length_cons, List.length_cons, ih]

/-- The loop behind elements that do not have the member. -/
lemma memberLoop_skip {recurse : Nat → Except Abort (List DITypedIndex)}
    (members : ∀ m, .type m ∈ front → ∃ name bits b, g.node m = .derived .member name bits (some b) ∧
      (name = "" → isComposite g b → Searches (HasMember g (plain g) field b) (recurse b)))
    (other : ∀ m y, .type m ∈ front → ¬ Via g (plain g) field m y) :
    memberLoop g recurse tag field index (front ++ elements) =
      memberLoop g recurse tag field (index + position tag front) elements := by
  induction front generalizing index with
  | nil =>
    rw [position, List.length_nil, ite_self]
    rfl
  | cons e front ih =>
    have next : memberLoop g recurse tag field (if tag ≠ .unionType then index + 1 else index)
        (front ++ elements) = memberLoop g recurse tag field (index + position tag (e :: front)) elements := by
      rw [ih (fun m mem => members m (.tail _ mem)) fun m y mem => other m y (.tail _ mem), position_cons]
      congr 1
      by_cases union : tag = .unionType
      case pos => simp [union]
      case neg =>
        simp only [union, ne_eq, not_false_eq_true, if_true, if_false]
        omega
    rw [List.cons_append]
    cases e with
    | other => exact next
    | type m =>
      obtain ⟨name, bits, b, node, inside⟩ := members m (.head _)
      have none := fun y => other m y (.head _)
      rw [memberLoop]
      simp only [node]
      split
      case isTrue unnamed =>
        subst unnamed
        cases composite : isComposite g b with
        | true =>
          obtain ⟨_, _, _, _, _, node'⟩ := isComposite_node composite
          simp only [node']
          obtain ⟨sub, i, y, _, _, has⟩ | ⟨e, _⟩ := inside rfl composite
          · exact absurd ((via_anonymous node).2 ⟨b, if_pos composite, has⟩) (none y)
          · rw [e, ok_bind]
            exact next
        | false =>
          split
          case h_1 node' =>
            rw [isComposite, node'] at composite
            cases composite
          case h_2 => exact next
      case isFalse named =>
        split
        case isTrue hit => exact absurd ((via_named node named).2 ⟨hit, rfl⟩) (none m)
        case isFalse => exact next

/-- What the direct search enters is what the type names. -/
lemma plain_bare : ∀ b n, plain g b = some n → bare g b = some n := by
  intro b n e
  rw [plain] at e
  split at e
  case isTrue composite =>
    cases e
    exact bare_composite composite
  case isFalse => cases e

/-- If more is entered, elements still lead to the member. -/
lemma Via.imp {enter enter' : Nat → Option Nat} (more : ∀ b n, enter b = some n → enter' b = some n)
    (via : Via g enter field m x) : Via g enter' field m x := by
  obtain named | ⟨bits, b, n, node, entered, has⟩ := via
  · exact .inl named
  · exact .inr ⟨bits, b, n, node, more _ _ entered, has.imp more⟩

/-- A composite type is entered itself. -/
lemma opened_composite (composite : isComposite g b) (e : opened g b = some n) : n = b :=
  Option.some.inj ((opened_bare e).1.symm.trans (bare_composite composite))

section Direct

variable (ctypes : CTypes g bounds)
include ctypes

/-- The direct search behind elements that do not have the member. -/
lemma gep_elements {size : Nat} (node : g.node c = .composite tag name size base (front ++ elements))
    (record : isRecord g c) (other : ∀ m y, .type m ∈ front → ¬ Via g (bare g) field m y)
    (deep : g.rank c < depth + 1) : GEP2MemberInfo g (depth + 1) c field =
      memberLoop g (fun b => GEP2MemberInfo g depth b field) tag field (0 + position tag front) elements := by
  have noArray := isRecord_tag record
  have members := ctypes.member c
  rw [node, DIType.getTag] at noArray
  rw [node, DIType.elements, DIType.getTag] at members
  rw [GEP2MemberInfo, node]
  simp only [noArray, if_false]
  refine memberLoop_skip (fun m mem => ?_) fun m y mem via => other m y mem (via.imp plain_bare)
  have mem := List.mem_append_left elements mem
  have lower := g.rank_element _ _ _ _ _ _ _ node mem
  obtain ⟨_, name, bits, b, k, node', e, blank⟩ := members m (isRecord_composite record) noArray mem
  refine ⟨name, bits, b, node', fun unnamed composite => ?_⟩
  have lower' := rank_member node'
  cases (bare_composite composite).symm.trans e
  exact GEP2MemberInfo_searches ctypes composite (isRecord_tag (blank unnamed)) (by omega)

/-- Along a way on which the direct search enters the same types, it finds the member. -/
lemma gep_of_way (way : Way g field c is js direct x) (same : direct = true) (deep : g.rank c < depth) :
    ∃ sub i, GEP2MemberInfo g depth c field = .ok sub ∧ sub.map DITypedIndex.index = js ∧
      sub.getLast? = some ⟨i, some x⟩ := by
  induction way generalizing depth with
  | @named c x tag name size base front back bits DITy nodec record skip node named =>
    cases depth with
    | zero => exact absurd deep (Nat.not_lt_zero _)
    | succ depth =>
      rw [gep_elements ctypes nodec record (skip.2 · · · ) deep, memberLoop]
      simp only [node, named, if_false, if_true, Nat.zero_add]
      exact ⟨_, _, rfl, rfl, rfl⟩
  | @inside c m b n x tag name size base front back bits is js direct nodec record skip node entered _ ih =>
    cases depth with
    | zero => exact absurd deep (Nat.not_lt_zero _)
    | succ depth =>
      rw [Bool.and_eq_true] at same
      obtain ⟨composite, same⟩ := same
      obtain rfl := opened_composite composite entered
      obtain ⟨_, _, _, _, _, node'⟩ := isComposite_node composite
      have lower := g.rank_element _ _ _ _ _ _ _ nodec (List.mem_append_right _ (.head _))
      have lower' := rank_member node
      obtain ⟨sub, i, e, indices, last⟩ := ih same (by omega : g.rank n < depth)
      have filled : sub.length > 0 := by
        cases sub with
        | nil => cases last
        | cons => exact Nat.succ_pos _
      rw [gep_elements ctypes nodec record (skip.2 · · · ) deep, memberLoop]
      simp only [node, node', if_true, e, ok_bind, filled, Nat.zero_add]
      refine ⟨_, i, rfl, by rw [List.map_cons, indices], ?_⟩
      rw [List.getLast?_cons, last]
      rfl

/-- Where the ways part, the direct search finds nothing. -/
lemma not_direct (emitted : Emitted g bounds) (way : Way g field c is js direct x) (parts : direct = false) :
    ¬ HasMember g (plain g) field c y := by
  induction way with
  | @named c x tag name size base front back bits DITy nodec record skip node named => cases parts
  | @inside c m b n x tag name size base front back bits is js direct nodec record skip node entered way ih =>
    intro has
    have has' := has.imp plain_bare
    have listed : (g.node c).elements = front ++ .type m :: back := by rw [nodec]; rfl
    have mem : .type m ∈ (g.node c).elements := by
      rw [listed]
      exact List.mem_append_right _ (.head _)
    have via : Via g (bare g) field m x :=
      (via_anonymous node).2 ⟨n, opened_entered _ _ entered, way.hasMember⟩
    obtain rfl := ctypes.unique field c x y (hasMember_iff.2 ⟨record, m, mem, via⟩) has'
    obtain ⟨_, m', mem', via'⟩ := hasMember_iff.1 has
    obtain rfl := emitted.once c field m m' x mem mem' via (via'.imp plain_bare)
    obtain ⟨n', entered', inner⟩ := (via_anonymous node).1 via'
    rw [plain] at entered'
    split at entered'
    case isTrue composite =>
      cases entered'
      obtain rfl := opened_composite composite entered
      rw [composite, Bool.true_and] at parts
      exact ih parts inner
    case isFalse => cases entered'

end Direct

/-! ### Counting -/

/-- The members of a structure are types that are counted. -/
lemma isDerived_of_mem (ctypes : CTypes g bounds) (record : isRecord g c) {e : DINode}
    (mem : e ∈ (g.node c).elements) : isDerived g e = true ↔ e ≠ .other := by
  cases e with
  | other => simp [isDerived]
  | type m =>
    obtain ⟨_, _, _, _, _, node, _⟩ :=
      ctypes.member c m (isRecord_composite record) (isRecord_tag record) mem
    simp [isDerived_type node]

/-- Both searches count the same if nothing but types comes before, or nothing is counted. -/
lemma counted_eq_position (ctypes : CTypes g bounds) (record : isRecord g c)
    (listed : (g.node c).elements = front ++ back) :
    counted g tag front = position tag front ↔ tag = .unionType ∨ .other ∉ front := by
  rw [counted, position]
  split
  case isTrue union => exact iff_of_true rfl (.inl union)
  case isFalse struct =>
    rw [List.countP_eq_length, or_iff_right struct]
    have derived : ∀ e ∈ front, isDerived g e = true ↔ e ≠ .other := fun e mem =>
      isDerived_of_mem ctypes record (listed ▸ List.mem_append_left _ mem)
    constructor
    · intro all other
      exact (derived _ other).1 (all _ other) rfl
    · intro none e mem
      refine (derived e mem).2 ?_
      rintro rfl
      exact none mem

/-- A way with the same indices on both sides is straight. -/
lemma Way.straight (ctypes : CTypes g bounds) (way : Way g field c is js direct x) (direct' : direct = true)
    (same : is = js) : Straight g field c x := by
  induction way with
  | named node record skip node' named =>
    refine .named node record skip ?_ node' named
    exact (counted_eq_position ctypes record (by rw [node]; rfl)).1 (List.cons.inj same).1
  | inside node record skip node' entered _ ih =>
    rw [Bool.and_eq_true] at direct'
    obtain rfl := opened_composite direct'.1 entered
    refine .inside node record skip ?_ node' (opened_bare entered).2 (ih direct'.2 (List.cons.inj same).2)
    exact (counted_eq_position ctypes record (by rw [node]; rfl)).1 (List.cons.inj same).1

/-- A straight way has the same indices on both sides. -/
lemma Straight.way (ctypes : CTypes g bounds) (straight : Straight g field c x) :
    ∃ is, Way g field c is is true x := by
  induction straight with
  | @named c x tag name size base front back bits DITy node record skip clean node' named =>
    have listed : (g.node c).elements = front ++ .type x :: back := by rw [node]; rfl
    have same := (counted_eq_position ctypes record listed).2 clean
    have way := Way.named node record skip node' named
    rw [same] at way
    exact ⟨_, way⟩
  | @inside c m b x tag name size base front back bits node record skip clean node' record' _ ih =>
    obtain ⟨is, way⟩ := ih
    have listed : (g.node c).elements = front ++ .type m :: back := by rw [node]; rfl
    have same := (counted_eq_position ctypes record listed).2 clean
    have way' := Way.inside node record skip node' (opened_record record') way
    rw [same, isRecord_composite record'] at way'
    exact ⟨_, way'⟩

/-- What `GEP` has found before stands in front of what it finds. -/
lemma gepLoop_append {CTy : Option Nat} {before ids : List DITypedIndex} (filled : ids ≠ [] ∨ path ≠ []) :
    gepLoop g CTy (before ++ ids) path =
      (gepLoop g CTy ids path).map fun out => if out = [] then [] else before ++ out := by
  induction path generalizing CTy ids with
  | nil =>
    rw [gepLoop_nil, gepLoop_nil]
    have some := filled.resolve_right (not_not.2 rfl)
    simp [Except.map, some]
  | cons component path ih =>
    cases CTy with
    | none => rfl
    | some c =>
      rw [gepLoop, gepLoop]
      cases sub : GEP2MemberInfo g (g.rank c + 1) c component with
      | error e => rfl
      | ok out =>
        rw [ok_bind, ok_bind]
        cases last : out.getLast? with
        | none => rfl
        | some back =>
          simp only
          cases resolved : resolveDerivedTypeBaseType g back.DITy with
          | error e => rfl
          | ok r =>
            cases r with
            | none => rfl
            | some n =>
              have some : ids ++ out ≠ [] := by
                intro nil
                rw [(List.append_eq_nil_iff.1 nil).2] at last
                cases last
              rw [ok_bind, ok_bind, List.append_assoc]
              exact ih (.inl some)

/-! ### What both searches say -/

/-- An array of one dimension with elements of a basic type. -/
def BasicArray (g : DebugInfo) (bounds : Nat → List Nat) (a : Nat) : Prop :=
  ∃ name bits e elements n k name' bits', g.node a = .composite .arrayType name bits (some e) elements ∧
    bounds a = [n] ∧ bare g e = some k ∧ g.node k = .basic name' bits'

/-- The path leads to a field of basic or pointer type, to an array of a basic type or to an element of one. -/
inductive NamesLeaf (g : DebugInfo) (bounds : Nat → List Nat) : Place → List String → Prop where
  | field {p : Place} {component : String} {q : Place} {k c : Nat} :
    Selects g bounds p component q → bare g p.type = some c → isRecord g c → bare g q.type = some k →
    ((∃ name bits, g.node k = .basic name bits) ∨ isPointer g k ∨ BasicArray g bounds k) →
    NamesLeaf g bounds p [component]
  | element {p : Place} {component : String} {q : Place} {a : Nat} :
    Selects g bounds p component q → bare g p.type = some a → BasicArray g bounds a →
    NamesLeaf g bounds p [component]
  | cons {p p' : Place} {component next : String} {path : List String} :
    Selects g bounds p component p' → NamesLeaf g bounds p' (next :: path) →
    NamesLeaf g bounds p (component :: next :: path)

/-- A member of the type `k`, of this size, is dealt with in the same way: it is no bit-field, and an array
has elements of a basic type, which is not a typedef. -/
def Fits (g : DebugInfo) (bounds : Nat → List Nat) (k bits : Nat) : Prop :=
  (∃ name, g.node k = .basic name bits) ∨ isPointer g k ∨
    ∃ name bits' e elements n name' bits'', g.node k = .composite .arrayType name bits' (some e) elements ∧
      bounds k = [n] ∧ g.node e = .basic name' bits'' ∧ bits'' ≠ 0

/-- Both searches go the same way from the type along the path, and the recursive one gets through. -/
inductive Agrees (g : DebugInfo) (bounds : Nat → List Nat) : Nat → List String → Prop where
  | field {c x bits b k : Nat} {component : String} :
    Straight g component c x → g.node x = .derived .member component bits (some b) →
    stripTypedefs g (g.rank b + 1) b = .ok k → Fits g bounds k bits → Agrees g bounds c [component]
  | member {c x bits b k : Nat} {component next : String} {path : List String} :
    Straight g component c x → g.node x = .derived .member component bits (some b) →
    stripTypedefs g (g.rank b + 1) b = .ok k → isComposite g k → Agrees g bounds k (next :: path) →
    Agrees g bounds c (component :: next :: path)
  | element {a : Nat} {name : String} {bits e : Nat} {elements : List DINode} {n : Nat} {name' : String}
    {bits' i : Nat} :
    g.node a = .composite .arrayType name bits (some e) elements → bounds a = [n] →
    g.node e = .basic name' bits' → bits' ≠ 0 → i < n → i ≤ 2147483647 → Agrees g bounds a [toString i]
  | entry {a : Nat} {name : String} {bits e : Nat} {elements : List DINode} {n i : Nat} {next : String}
    {path : List String} :
    g.node a = .composite .arrayType name bits (some e) elements → bounds a = [n] → isRecord g e →
    (g.node e).sizeInBits ≠ 0 → Searchable g e → i < n → i ≤ 2147483647 →
    Agrees g bounds e (next :: path) → Agrees g bounds a (toString i :: next :: path)

/-- What the recursive search has noted is what the direct one says of its indices. -/
structure Matches (g : DebugInfo) (before after : BasicTypeInfo) (typed : List DITypedIndex) : Prop where
  last : ∃ i y bits T, typed.getLast? = some ⟨i, some y⟩ ∧ getDIFieldSize g (some y) = .ok bits ∧
    resolveDerivedTypeBaseType g (some y) = .ok T ∧ DIType2StringType g T = .ok after.basicType ∧
    after.size_in_bytes = bits / 8
  gep : after.gep = before.gep ++ (typed.map DITypedIndex.index).reverse

/-! ### Indices of arrays -/

/-- A number is read back from its decimal numeral. -/
lemma index?_toString (i : Nat) : index? (toString i) = some i := by
  have digits : (toString i).toList = Nat.toDigits 10 i := Nat.toList_repr
  rw [index?, digits, if_pos]
  · exact congrArg some Nat.ofDigitChars_ten_toDigits
  · refine ⟨Nat.toDigits_ne_nil, List.all_eq_true.2 fun c mem => ?_⟩
    exact Nat.isDigit_of_mem_toDigits (by decide) (by decide) mem

/-- Different numbers have different numerals. -/
lemma toString_injective {i j : Nat} (e : toString i = toString j) : i = j := by
  have same := congrArg index? e
  rw [index?_toString, index?_toString] at same
  exact Option.some.inj same

/-- The loop over the indices, where the path goes on with the index `i`. -/
lemma indexLoop_at {S : Prop} {l : List Nat} {i : Nat} (mem : i ∈ l) (holds : S)
    (each : ∀ j ∈ l, j ≠ i → Passes S info (element info base (path ++ [toString j])))
    (hit : element info base (path ++ [toString i]) = .ok (true, info')) :
    indexLoop element base path info l = .ok (true, info'.push_back i) := by
  induction l with
  | nil => cases mem
  | cons j l ih =>
    rw [indexLoop]
    by_cases same : j = i
    case pos =>
      subst same
      rw [hit]
      rfl
    case neg =>
      obtain ⟨_, e⟩ | ⟨fails, _⟩ := each j (.head _) same
      · rw [e, ok_bind]
        have mem := (List.mem_cons.1 mem).resolve_left fun e => same e.symm
        exact ih mem fun j mem => each j (.tail _ mem)
      · exact absurd holds fails

/-- Where the loop over the indices has found the path, it goes on with one of them. -/
lemma indexLoop_found {S : Prop} {l : List Nat} (nodup : l.Nodup) (holds : S)
    (each : ∀ j ∈ l, component ≠ toString j → ∀ info,
      Passes S info (element info base (path ++ [toString j])))
    (found : indexLoop element base path info l = .ok (true, info')) :
    ∃ i ∈ l, component = toString i ∧ ∃ info1, element info base (path ++ [toString i]) = .ok (true, info1) ∧
      info' = info1.push_back i := by
  induction l with
  | nil => cases found
  | cons j l ih =>
    rw [indexLoop] at found
    obtain ⟨⟨hit, info1⟩, first, then_⟩ := bind_eq_ok.1 found
    obtain ⟨new, nodup⟩ := List.nodup_cons.1 nodup
    have later := fun j mem => each j (.tail _ mem)
    by_cases same : component = toString j
    case pos =>
      cases hit with
      | true =>
        cases then_
        exact ⟨j, .head _, same, info1, first, rfl⟩
      | false =>
        -- no other index is this one
        have rest : indexLoop element base path info1 l = .ok (false, info1) := by
          refine indexLoop_passes (fun i mem => later i mem (fun same' => new ?_) info1) holds
          rwa [toString_injective (same.symm.trans same')]
        cases rest.symm.trans then_
    case neg =>
      obtain ⟨_, rfl, rfl⟩ := (each j (.head _) same info).ok first
      obtain ⟨i, mem, rest⟩ := ih nodup later then_
      exact ⟨i, .tail _ mem, rest⟩

section Array

variable (emitted : Emitted g bounds) {size : Nat}
variable (node : g.node a = .composite .arrayType name size (some b) elements)
include emitted node

/-- The search in an array that the path does not end at. -/
lemma process_indices (differ : needle ≠ path) {count : Nat}
    (sized : arraySize g size (some b) elements = .ok count) :
    process_element g needle (depth + 1) info (some a) path =
      process_element g needle depth info (some b) path >>= fun r =>
        if r.1 then .ok (true, r.2)
        else indexLoop (process_element g needle depth) (some b) path r.2 (List.range count) := by
  rw [process_element, node]
  simp only [reduceCtorEq, or_self, if_false, if_true, sized, ok_bind, differ, decide_false,
    process_array emitted node sized, Bool.false_eq_true, bind_assoc]
  cases process_element g needle depth info (some b) path with
  | error e => rfl
  | ok r =>
    simp only [ok_bind]
    split
    · rfl
    · cases indexLoop (process_element g needle depth) (some b) path r.2 (List.range count) <;> rfl

/-- The size of an array with elements of their own size. -/
lemma arraySize_single {n : Nat} (single : bounds a = [n]) (own : bare g b = some b)
    (sized : (g.node b).sizeInBits ≠ 0) : arraySize g size (some b) elements = .ok n := by
  have dims := (emitted.array _ _ _ _ _ node).1
  have bits := (emitted.size _ _ _ _ _ n node single).1
  have whole : bitsOf g b = (g.node b).sizeInBits := by rw [bitsOf, own]; rfl
  rw [single] at dims
  rw [dims, arraySize]
  simp only [List.length_replicate, List.length_singleton, ne_eq, not_true, if_false, sized]
  rw [bits, whole, Nat.mul_div_cancel _ (Nat.pos_of_ne_zero sized)]

end Array

/-! ### The end of the path -/

/-- Typedefs and qualifiers do not stop the loop of `toBasicType`. -/
lemma renames_tag (renames : tag.renames) :
    tag ≠ .structureType ∧ tag ≠ .unionType ∧ tag ≠ .pointerType := by
  refine ⟨?_, ?_, ?_⟩
  all_goals
    rintro rfl
    cases renames

/-- A type with another name is no pointer where what it names is none. -/
lemma not_pointerType (e : bare g n = some k) (other : (g.node k).getTag ≠ .pointerType) :
    (g.node n).getTag ≠ .pointerType := by
  obtain ⟨_, _, _, _, node, renames, _⟩ | ⟨own, _⟩ := bare_cases g n
  · rw [node]
    exact (renames_tag renames).2.2
  · cases own.symm.trans e
    exact other

/-- A round of the loop at a typedef or qualifier of an array or a basic type is that at the type. -/
lemma toBasicTypeLoop_step {fuel : Nat} (node : g.node n = .derived tag name bits (some b))
    (renames : tag.renames) (plain : (g.node b).getTag = .arrayType ∨ ∃ name bits, g.node b = .basic name bits)
    (own : ∀ tag name bits base, g.node b ≠ .derived tag name bits base) :
    toBasicTypeLoop g.node (fuel + 1) (some n) = toBasicTypeLoop g.node (fuel + 1) (some b) := by
  obtain ⟨struct, union, pointer⟩ := renames_tag renames
  cases node' : g.node b with
  | basic =>
    simp only [toBasicTypeLoop, secondHalf, node, node', DIType.getTag, struct, union, pointer, reduceCtorEq,
      if_false]
  | derived => exact absurd node' (own _ _ _ _)
  | composite =>
    obtain same | ⟨_, _, basic⟩ := plain
    · rw [node', DIType.getTag] at same
      subst same
      simp only [toBasicTypeLoop, secondHalf, node, node', DIType.getTag, struct, union, pointer,
        reduceCtorEq, if_false]
    · cases node'.symm.trans basic
  | subroutine =>
    obtain same | ⟨_, _, basic⟩ := plain
    · rw [node', DIType.getTag] at same
      cases same
    · cases node'.symm.trans basic

/-- The loop goes through typedefs and qualifiers of an array or a basic type. -/
lemma toBasicTypeLoop_bare {fuel : Nat} {r : Option Nat} (e : bare g n = some k)
    (plain : (g.node k).getTag = .arrayType ∨ ∃ name bits, g.node k = .basic name bits)
    (there : ∀ fuel, g.rank k < fuel → toBasicTypeLoop g.node fuel (some k) = .ok r)
    (deep : g.rank n < fuel) : toBasicTypeLoop g.node fuel (some n) = .ok r := by
  induction fuel generalizing n with
  | zero => exact absurd deep (Nat.not_lt_zero _)
  | succ fuel ih =>
    obtain ⟨tag, name, bits, base, node, renames, e'⟩ | ⟨own, _⟩ := bare_cases g n
    · cases base with
      | none => cases e.symm.trans e'
      | some b =>
        have lower := renames_rank node renames
        have e' : bare g b = some k := e'.symm.trans e
        by_cases derived : ∃ tag name bits base, g.node b = .derived tag name bits base
        case pos =>
          obtain ⟨_, _, _, _, node'⟩ := derived
          obtain ⟨struct, union, pointer⟩ := renames_tag renames
          rw [toBasicTypeLoop]
          simp only [secondHalf, node, node', DIType.getTag, struct, union, pointer, if_false]
          exact ih e' (by omega)
        case neg =>
          have own : ∀ tag name bits base, g.node b ≠ .derived tag name bits base :=
            fun tag name bits base node' => derived ⟨tag, name, bits, base, node'⟩
          cases (bare_self fun _ _ _ _ node' => absurd node' (own _ _ _ _)).symm.trans e'
          rw [toBasicTypeLoop_step node renames plain own]
          exact there _ (by omega)
    · cases own.symm.trans e
      exact there _ deep

/-- The name of a type is that of the basic type at the end of the loop. -/
lemma stringType_bare (e : bare g n = some k)
    (plain : (g.node k).getTag = .arrayType ∨ ∃ name bits, g.node k = .basic name bits)
    (there : ∀ fuel, g.rank k < fuel → toBasicTypeLoop g.node fuel (some k) = .ok (some m)) :
    DIType2StringType g (some n) = .ok (g.node m).getName := by
  have other : (g.node k).getTag ≠ .pointerType := by
    obtain array | ⟨_, _, basic⟩ := plain
    · rw [array]
      exact nofun
    · rw [basic]
      exact nofun
  rw [DIType2StringType, if_neg (not_pointerType e other), toBasicType,
    toBasicTypeLoop_bare e plain there (Nat.lt_succ_self _), ok_bind]

/-- A basic type is its own basic type. -/
lemma toBasicTypeLoop_here {fuel : Nat} (node : g.node k = .basic name bits) (deep : g.rank k < fuel) :
    toBasicTypeLoop g.node fuel (some k) = .ok (some k) := by
  cases fuel with
  | zero => exact absurd deep (Nat.not_lt_zero _)
  | succ fuel =>
    rw [toBasicTypeLoop]
    simp only [secondHalf, node, DIType.getTag, reduceCtorEq, if_false]

/-- The name of a basic type below typedefs and qualifiers. -/
lemma stringType_basic (e : bare g n = some k) (node : g.node k = .basic name bits) :
    DIType2StringType g (some n) = .ok name := by
  rw [stringType_bare e (.inr ⟨_, _, node⟩) fun _ deep => toBasicTypeLoop_here node deep, node]
  rfl

/-- The name of the elements of an array below typedefs and qualifiers. -/
lemma stringType_array {size : Nat} {name' : String} {x : Nat} (e : bare g n = some a)
    (node : g.node a = .composite .arrayType name size (some x) elements) (e' : bare g x = some k)
    (node' : g.node k = .basic name' bits) : DIType2StringType g (some n) = .ok name' := by
  have lower := g.rank_base _ _ _ _ _ _ node
  have array : (g.node a).getTag = .arrayType := by
    rw [node]
    rfl
  rw [stringType_bare e (.inl array) fun fuel deep => ?_, node']
  · rfl
  · cases fuel with
    | zero => exact absurd deep (Nat.not_lt_zero _)
    | succ fuel =>
      rw [toBasicTypeLoop]
      simp only [secondHalf, node, DIType.getTag, reduceCtorEq, if_false, if_true]
      exact toBasicTypeLoop_bare e' (.inr ⟨_, _, node'⟩) (fun _ deep => toBasicTypeLoop_here node' deep)
        (by omega)

end Irx.Debug
