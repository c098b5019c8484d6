import Irx.Basic

/-!
# Section finders

A section finder recognises the sections that a linker script collects into one array and tells their
levels apart. A native section comes with the fixed list of its levels; a static section belongs to an
object and learns its levels from what it finds. The level list has no repetition: `push_level` adds
only new levels.
-/

namespace Irx.Sections

/-- What `startsWithAndRemove` leaves of a section name, if the prefix fits. -/
def startsWithAndRemove (sec pre : String) : Option String :=
  if pre.toList.isPrefixOf sec.toList then
    some (String.ofList (sec.toList.drop pre.toList.length))
  else none

/-- What comes before the first occurrence of a needle. -/
def beforeFirst (needle : List Char) : List Char → Option (List Char)
  | [] => if needle.isPrefixOf [] then some [] else none
  | c :: cs =>
    if needle.isPrefixOf (c :: cs) then some [] else (beforeFirst needle cs).map (c :: ·)

/-- What `containsAndSplitFirst` leaves of a section name, if it contains the needle. -/
def containsAndSplitFirst (sec needle : String) : Option String :=
  (beforeFirst needle.toList sec.toList).map String.ofList

/-- `SectionTypeConfig`, with the levels free of repetition. -/
structure SectionTypeConfig where
  sectionName : String
  match_list : List String
  INITLIST : List String
  startPrefix : String
  startPostfix : String
  endPrefix : String
  endPostfix : String
  namePrefix : String
  namePostfix : String
  levels_nodup : INITLIST.Nodup

/-- The configuration of `native_pre_tasks`. -/
def nativePreTasks : SectionTypeConfig where
  sectionName := "native_pre_tasks"
  match_list := [".native_"]
  INITLIST := ["PRE_BOOT_1", "PRE_BOOT_2", "PRE_BOOT_3", "FIRST_SLEEP", "ON_EXIT"]
  startPrefix := "__native"
  startPostfix := "_tasks_start"
  endPrefix := "__native"
  endPostfix := "_tasks_end"
  namePrefix := "__native_"
  namePostfix := "_tasks_start"
  levels_nodup := by decide

/-- The configuration of `nsi_tasks`. -/
def nsiTasks : SectionTypeConfig where
  sectionName := "nsi_tasks"
  match_list := [".nsi_"]
  INITLIST := ["PRE_BOOT_1", "PRE_BOOT_2", "HW_INIT", "PRE_BOOT_3", "FIRST_SLEEP", "ON_EXIT_PRE",
    "ON_EXIT_POST"]
  startPrefix := "__nsi"
  startPostfix := "_tasks_start"
  endPrefix := "__nsi"
  endPostfix := "_tasks_end"
  namePrefix := "__nsi_"
  namePostfix := "_tasks_start"
  levels_nodup := by decide

/-- The configuration of `nsi_hw_events`. -/
def nsiHwEvents : SectionTypeConfig where
  sectionName := "nsi_hw_events"
  match_list := [".nsi_"]
  INITLIST := ["hw_event"]
  startPrefix := "__nsi_hw_events"
  startPostfix := "_start"
  endPrefix := "__nsi_hw_events"
  endPostfix := "_end"
  namePrefix := "__nsi_unused_"
  namePostfix := "_unused"
  levels_nodup := by decide

/-- The configuration of `initlevel`. -/
def initlevel : SectionTypeConfig where
  sectionName := "initlevel"
  match_list := [".z_init_"]
  INITLIST := ["EARLY", "PRE_KERNEL_1", "PRE_KERNEL_2", "POST_KERNEL", "APPLICATION", "SMP"]
  startPrefix := ""
  startPostfix := "__init_start"
  endPrefix := ""
  endPostfix := "__init_end"
  namePrefix := "__init_"
  namePostfix := "_start"
  levels_nodup := by decide

/-- The native finders. -/
def configs : List SectionTypeConfig := [nativePreTasks, nsiTasks, nsiHwEvents, initlevel]

/-- The two classes of finders. -/
inductive Kind where
  | native (conf : SectionTypeConfig)
  | static (object : String)

/-- A finder with its current level list. -/
structure SectionFinder where
  kind : Kind
  list : List String
  nodup : list.Nodup

/-- A `ZephyrNativeSection`. -/
def SectionFinder.native (conf : SectionTypeConfig) : SectionFinder :=
  ⟨.native conf, conf.INITLIST, conf.levels_nodup⟩

/-- A `ZephyrStaticSection`. -/
def SectionFinder.static (object : String) : SectionFinder := ⟨.static object, [], .nil⟩

namespace SectionFinder

/-- The part of the section name that holds the level, if the finder is responsible. -/
def test (F : SectionFinder) (sec : String) : Option String :=
  match F.kind with
  | .native conf => conf.match_list.findSome? (startsWithAndRemove sec)
  | .static object => do
    let sec ← startsWithAndRemove sec ("._" ++ object)
    containsAndSplitFirst sec ".static."

/-- The first level of the list that the name starts with. -/
def levelOf (F : SectionFinder) (sec : String) : Option String :=
  F.list.find? fun init => (startsWithAndRemove sec init).isSome

/-- `hasLevel`. -/
def hasLevel (F : SectionFinder) (sec : String) : Bool :=
  match F.kind with
  | .native _ => (F.levelOf sec).isSome
  | .static _ => true

/-- `level`: the name of the level in a section. -/
def level (F : SectionFinder) (sec : String) : Except Abort String :=
  match F.kind with
  | .native _ =>
    match F.levelOf sec with
    | some init => .ok init
    | none => .error .invalidArgument
  | .static _ => .ok sec

/-- The symbol for the start of a level. -/
def name (F : SectionFinder) (sec : String) : Except Abort String :=
  match F.kind with
  | .native conf =>
    match F.levelOf sec with
    | some init => .ok (conf.namePrefix ++ init ++ conf.namePostfix)
    | none => .error .invalidArgument
  | .static _ => .ok (sec ++ "_area")

/-- The name of the array. -/
def sectionName (F : SectionFinder) : String :=
  match F.kind with
  | .native conf => conf.sectionName
  | .static object => object ++ "_area"

/-- The symbol for the start of the array. -/
def start (F : SectionFinder) : String :=
  match F.kind with
  | .native conf => conf.startPrefix ++ conf.startPostfix
  | .static object => "_" ++ object ++ "_list_start"

/-- The symbol for the end of the array. -/
def stop (F : SectionFinder) : String :=
  match F.kind with
  | .native conf => conf.endPrefix ++ conf.endPostfix
  | .static object => "_" ++ object ++ "_list_end"

/-- A new level is in the list once. -/
lemma nodup_push {l : List String} {level : String} (nodup : l.Nodup) (new : level ∉ l) :
    (l ++ [level]).Nodup :=
  List.nodup_append.2 ⟨nodup, List.nodup_singleton _, fun a mem b mem' e => by
    cases List.mem_singleton.1 mem'
    exact new (e ▸ mem)⟩

/-- `push_level`: a level that is new is appended. -/
def push_level (F : SectionFinder) (level : String) : SectionFinder :=
  if new : level ∉ F.list then ⟨F.kind, F.list ++ [level], nodup_push F.nodup new⟩ else F

/-- The kind of the finder stays. -/
@[simp] lemma push_level_kind (F : SectionFinder) (level : String) :
    (F.push_level level).kind = F.kind := by
  rw [push_level]
  split <;> rfl

/-- The levels are those before and the new one. -/
lemma mem_push_level {F : SectionFinder} {level l : String} :
    l ∈ (F.push_level level).list ↔ l = level ∨ l ∈ F.list := by
  rw [push_level]
  split
  case isTrue =>
    rw [List.mem_append, List.mem_singleton]
    exact or_comm
  case isFalse old =>
    constructor
    · exact .inr
    · rintro (rfl | mem)
      · exact not_not.1 old
      · exact mem

end SectionFinder

end Irx.Sections
