import Irx.Sections.Symbols

/-!
# The symbols of different finders

No finder of a run replaces the start or the end symbol of another one, and its own level symbols are
none of the two. The symbols of static sections are told from all others by their endings.
-/

namespace Irx.Sections

/-- The name has the ending. -/
def Ends (suffix s : String) : Prop := suffix.toList <:+ s.toList

instance (suffix s : String) : Decidable (Ends suffix s) :=
  inferInstanceAs (Decidable (suffix.toList <:+ s.toList))

/-- A name ends in its suffix. -/
lemma ends_append (s suffix : String) : Ends suffix (s ++ suffix) := by
  rw [Ends, String.toList_append]
  exact List.suffix_append _ _

/-- Of two endings of a name, one ends in the other. -/
lemma ends_or {a b s : String} (ha : Ends a s) (hb : Ends b s) : Ends a b ∨ Ends b a :=
  List.suffix_or_suffix_of_suffix ha hb

/-- The level symbols of a native section. -/
def levelNames (conf : SectionTypeConfig) : List String :=
  conf.INITLIST.map fun init => conf.namePrefix ++ init ++ conf.namePostfix

namespace SectionFinder

/-- The start and the end symbol. -/
def boundary (F : SectionFinder) : List String := [F.start, F.stop]

/-- The symbols that a finder can have for its levels. -/
def Label (F : SectionFinder) (s : String) : Prop :=
  match F.kind with
  | .native conf => s ∈ levelNames conf
  | .static _ => Ends "_area" s

/-- The finders of a run at their turn: no level pushed yet. -/
inductive Initial : SectionFinder → Prop where
  | native {conf : SectionTypeConfig} : conf ∈ configs → Initial (.native conf)
  | static (object : String) : Initial (.static object)

/-- No boundary symbol of the first finder is a symbol of the second one. -/
def Apart (F F' : SectionFinder) : Prop :=
  ∀ s ∈ F.boundary, s ∉ F'.boundary ∧ ¬ F'.Label s

/-- The level symbols of a grown finder are among those it can have. -/
lemma Initial.label {F F' : SectionFinder} (initial : F.Initial) (grown : Grown F F') {s : String}
    (mem : s ∈ F'.levelSymbols) : F.Label s := by
  obtain ⟨level, _, named⟩ := mem
  rw [name, grown.kind] at named
  cases initial with
  | @native conf _ =>
    have same : F'.list = conf.INITLIST := grown.native conf rfl
    cases found : F'.levelOf level with
    | none =>
      simp only [SectionFinder.native, found] at named
      cases named
    | some init =>
      simp only [SectionFinder.native, found] at named
      cases named
      exact List.mem_map.2 ⟨init, same ▸ levelOf_mem found, rfl⟩
  | static object =>
    cases named
    exact ends_append _ _

/-- The symbols of a finder are its boundaries and labels. -/
lemma Initial.symbols {F F' : SectionFinder} (initial : F.Initial) (grown : Grown F F') {s : String}
    (mem : s ∈ F'.symbols) : s ∈ F.boundary ∨ F.Label s := by
  obtain (e | mem) | e := mem
  · exact .inl (List.mem_cons.2 (.inl (e.trans grown.start)))
  · exact .inr (initial.label grown mem)
  · exact .inl (.tail _ (List.mem_singleton.2 (e.trans grown.stop)))

/-- The start of a static object ends in `_list_start`. -/
lemma static_start_ends (object : String) : Ends "_list_start" (static object).start :=
  ends_append _ _

/-- Its end ends in `_list_end`. -/
lemma static_stop_ends (object : String) : Ends "_list_end" (static object).stop :=
  ends_append _ _

/-- A boundary symbol of a static section has one of two endings. -/
lemma static_boundary {object s : String} (mem : s ∈ (static object).boundary) :
    Ends "_list_start" s ∨ Ends "_list_end" s := by
  obtain rfl | mem := List.mem_cons.1 mem
  · exact .inl (static_start_ends object)
  · cases List.mem_singleton.1 mem
    exact .inr (static_stop_ends object)

/-- Its boundaries do not end in `_area`. -/
lemma static_not_label {object s : String} (mem : s ∈ (static object).boundary) :
    ¬ Ends "_area" s := by
  intro area
  obtain start | stop := static_boundary mem
  · exact absurd (ends_or start area) (by decide)
  · exact absurd (ends_or stop area) (by decide)

/-- The start of an object is not the end of another. -/
lemma static_start_ne_stop (object object' : String) :
    (static object).start ≠ (static object').stop := by
  intro e
  have stop : Ends "_list_end" (static object).start := e ▸ static_stop_ends object'
  exact absurd (ends_or (static_start_ends object) stop) (by decide)

/-- Static sections of different objects share no boundary symbol. -/
lemma static_apart {object object' : String} (ne : object ≠ object') :
    (static object).Apart (static object') := by
  have cancel : ∀ suffix, "_" ++ object ++ suffix ≠ "_" ++ object' ++ suffix := by
    intro suffix e
    exact ne (String.append_right_inj _ |>.1 (String.append_left_inj _ |>.1 e))
  intro s mem
  refine ⟨fun mem' => ?_, static_not_label mem⟩
  obtain rfl | mem := List.mem_cons.1 mem
  · obtain e | mem' := List.mem_cons.1 mem'
    · exact cancel _ e
    · exact static_start_ne_stop _ _ (List.mem_singleton.1 mem')
  · cases List.mem_singleton.1 mem
    obtain e | mem' := List.mem_cons.1 mem'
    · exact static_start_ne_stop _ _ e.symm
    · exact cancel _ (List.mem_singleton.1 mem')

/-- No symbol of a native section has an ending of the static ones. -/
lemma native_ends : ∀ conf ∈ configs, ∀ s ∈ (native conf).boundary ++ levelNames conf,
    ¬ Ends "_list_start" s ∧ ¬ Ends "_list_end" s ∧ ¬ Ends "_area" s := by decide

/-- The symbols of objects are no native ones. -/
lemma static_apart_native {object : String} {conf : SectionTypeConfig} (mem : conf ∈ configs) :
    (static object).Apart (native conf) := by
  intro s here
  have other : s ∉ (native conf).boundary ++ levelNames conf := by
    intro there
    obtain ⟨start, stop, _⟩ := native_ends conf mem s there
    obtain ends | ends := static_boundary here
    · exact start ends
    · exact stop ends
  exact ⟨fun h => other (List.mem_append_left _ h), fun h => other (List.mem_append_right _ h)⟩

/-- The native symbols are none of objects. -/
lemma native_apart_static {object : String} {conf : SectionTypeConfig} (mem : conf ∈ configs) :
    (native conf).Apart (static object) := by
  intro s here
  obtain ⟨start, stop, area⟩ := native_ends conf mem s (List.mem_append_left _ here)
  refine ⟨fun there => ?_, area⟩
  obtain ends | ends := static_boundary there
  · exact start ends
  · exact stop ends

/-- The native symbols are different. -/
lemma native_apart : configs.Pairwise fun conf conf' =>
    (native conf).Apart (native conf') ∧ (native conf').Apart (native conf) := by
  have checked : configs.Pairwise fun conf conf' =>
      (∀ s ∈ (native conf).boundary, s ∉ (native conf').boundary ∧ s ∉ levelNames conf') ∧
      ∀ s ∈ (native conf').boundary, s ∉ (native conf).boundary ∧ s ∉ levelNames conf := by decide
  exact checked

/-- The start symbol is not the end symbol, and the end symbol is no level symbol. -/
lemma Initial.stop_apart {F : SectionFinder} (initial : F.Initial) :
    F.start ≠ F.stop ∧ ¬ F.Label F.stop := by
  cases initial with
  | native mem =>
    have checked : ∀ conf ∈ configs,
        (SectionFinder.native conf).start ≠ (SectionFinder.native conf).stop ∧
        (SectionFinder.native conf).stop ∉ levelNames conf := by decide
    exact checked _ mem
  | static object =>
    exact ⟨static_start_ne_stop object object, static_not_label (.tail _ (.head _))⟩

/-- The finders of a run are at their turn what they were created as. -/
lemma initial_of_mem {M : Module} {F : SectionFinder} (mem : F ∈ InitializeZephyrSectionFinders M) :
    F.Initial := by
  obtain mem | mem := List.mem_append.1 mem
  · obtain ⟨object, _, rfl⟩ := List.mem_map.1 mem
    exact .static object
  · obtain ⟨conf, known, rfl⟩ := List.mem_map.1 mem
    exact .native known

/-- The objects of the static sections are different. -/
lemma findSection_nodup {l : List GlobalVariable} {found : List String} (nodup : found.Nodup) :
    (l.foldl findSection found).Nodup := by
  induction l generalizing found with
  | nil => exact nodup
  | cons Global l ih =>
    apply ih
    rw [findSection]
    split
    case isTrue => exact nodup
    case isFalse =>
      split
      case h_1 object _ =>
        split
        case isTrue => exact nodup
        case isFalse new => exact nodup_push nodup new
      case h_2 => exact nodup

/-- The symbols of all finders are different. -/
lemma finders_apart (M : Module) : (InitializeZephyrSectionFinders M).Pairwise fun F F' =>
    F.Apart F' ∧ F'.Apart F := by
  refine List.pairwise_append.2 ⟨?_, ?_, ?_⟩
  · exact List.Pairwise.map _ (fun _ _ ne => ⟨static_apart ne, static_apart (Ne.symm ne)⟩)
      (findSection_nodup (by decide))
  · exact List.Pairwise.map _ (fun _ _ apart => apart) native_apart
  · intro F mem F' mem'
    obtain ⟨object, _, rfl⟩ := List.mem_map.1 mem
    obtain ⟨conf, known, rfl⟩ := List.mem_map.1 mem'
    exact ⟨static_apart_native known, native_apart_static known⟩

end SectionFinder

/-- The finders of a run are different. -/
lemma finders_nodup (M : Module) : (InitializeZephyrSectionFinders M).Nodup := by
  refine (SectionFinder.finders_apart M).imp fun {F F'} apart same => ?_
  subst same
  exact (apart.1 F.start (.head _)).1 (.head _)

/-- A finder has its turn behind those before it in the list. -/
lemma run_of_turn {finders : List SectionFinder} (turn : (F, Mk) ∈ turns N finders M) :
    ∃ pre post, finders = pre ++ F :: post ∧ pre.foldlM (collectFinder N) M = .ok Mk := by
  induction finders generalizing M with
  | nil => cases turn
  | cons F' finders ih =>
    obtain e | turn := List.mem_cons.1 turn
    · cases e
      exact ⟨[], finders, rfl, rfl⟩
    · cases first : collectFinder N M F' with
      | error e =>
        rw [first] at turn
        cases turn
      | ok M1 =>
        rw [first] at turn
        obtain ⟨pre, post, rfl, ran⟩ := ih turn
        exact ⟨F' :: pre, post, rfl, by rw [List.foldlM_cons, bind_ok first, ran]⟩

/-- A finder has one turn. -/
lemma turn_unique {finders : List SectionFinder} (nodup : finders.Nodup) {Mk' : Module}
    (turn : (F, Mk) ∈ turns N finders M) (turn' : (F, Mk') ∈ turns N finders M) : Mk = Mk' := by
  obtain ⟨pre, post, e, before⟩ := run_of_turn turn
  obtain ⟨pre', post', e', before'⟩ := run_of_turn turn'
  rw [e] at nodup
  have before_out : F ∉ pre := fun mem => (List.nodup_append.1 nodup).2.2 F mem F (.head _) rfl
  have behind_out : F ∉ post := (List.nodup_cons.1 (List.nodup_append.1 nodup).2.1).1
  have same := ((List.append_cons_inj_of_notMem before_out behind_out).1 (e.symm.trans e')).1
  rw [same, before'] at before
  exact (Except.ok.inj before).symm

end Irx.Sections
