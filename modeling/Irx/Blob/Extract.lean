import Irx.Blob.MapText

/-!
# Sections of an ELF file as blobs

Embedding of `map_get_section_of_symbol` and of `extract_blob`, which puts the sections of a linked program
into a module as arrays of bytes and the symbols of its linker script as pointers into them. What libelf and
LLVM know of files and names are parameters. The addresses of the linker map and those of the module belong
together: a symbol points as far into the blob of its section as it is behind the address of the section, and
finds there the bytes of the file (`extract_blob_places`).
-/

namespace Irx.Blob
open Irx.Lib

section Embedding

/-- A section of an ELF file. A part of the data without a buffer has no bytes in the file. -/
structure ElfScn where
  sh_name : List Char
  sh_type : Nat
  sh_addr : Nat
  sh_size : Nat
  data : List (Option (List UInt8))
  deriving DecidableEq, Repr

/-- The bytes of a section, as `elf_getdata` lists them. -/
def ElfScn.bytes (scn : ElfScn) : List UInt8 := scn.data.flatMap fun data => data.getD []

/-- `ee_get_section`, over the sections that `elf_nextscn` lists. -/
def ee_get_section (elf : List ElfScn) (section_name : Option (List Char)) (sh_type addr : Nat) :
    Option ElfScn :=
  elf.find? fun shdr => section_name == some shdr.sh_name || shdr.sh_type == sh_type ||
    (addr != 0 && (shdr.sh_addr ≤ addr && addr < word (shdr.sh_addr + shdr.sh_size)))

/-- `section_to_llvm_data`. A section that was not found has no data. -/
def section_to_llvm_data (elf : List ElfScn) (scn : List Char) : List UInt8 :=
  match ee_get_section elf (some scn) 0 0 with
  | none => []
  | some scn => scn.bytes

/-- `map_get_section_of_symbol`: the section, and the offset in it. -/
def map_get_section_of_symbol (sections : List Section) (symbol : List Char) : Option (Section × Nat) :=
  sections.findSome? fun scn => (scn.symbols.find? fun sym => symbol = sym.name).map fun sym =>
    (scn, word (sym.addr + 18446744073709551616 - scn.addr))

/-- The initializers of interest: an array of bytes, and a pointer of two indices into an array of so many
bytes. -/
inductive Initializer where
  | array (bytes : List UInt8)
  | gep (size : Nat) (base : List Char) (i j : Nat)
  | other
  deriving DecidableEq, Repr

/-- A global of a module, with its initializer. -/
structure GlobalVariable where
  name : List Char
  initializer : Option Initializer
  deriving DecidableEq, Repr

/-- `getNamedGlobal`: the first global of the name. -/
def getNamedGlobal (M : List GlobalVariable) (name : List Char) : Option GlobalVariable :=
  M.find? fun G => G.name = name

/-- A new global variable. LLVM gives it another name if the name is taken. -/
def newGlobal (uniqueName : List GlobalVariable → List Char → List Char) (M : List GlobalVariable)
    (G : GlobalVariable) : List GlobalVariable :=
  if (getNamedGlobal M G.name).isSome then M ++ [{ G with name := uniqueName M G.name }] else M ++ [G]

/-- `getOrInsertGlobal`: a global of the name is added if there is none. -/
def getOrInsertGlobal (M : List GlobalVariable) (name : List Char) : List GlobalVariable :=
  if (getNamedGlobal M name).isSome then M else M ++ [⟨name, none⟩]

/-- `setInitializer` on the global of the name. -/
def setInitializer (M : List GlobalVariable) (name : List Char) (init : Initializer) : List GlobalVariable :=
  M.map fun G => if G.name = name then { G with initializer := some init } else G

/-- `external_symbols`. -/
def external_symbols : List (List Char) := [
  "__native_PRE_BOOT_1_tasks_start", "__native_PRE_BOOT_2_tasks_start", "__native_PRE_BOOT_3_tasks_start",
  "__native_FIRST_SLEEP_tasks_start", "__native_ON_EXIT_tasks_start", "__native_tasks_end", "__bss_start",
  "__bss_end", "__init_PRE_KERNEL_1_start", "__init_PRE_KERNEL_2_start", "__init_POST_KERNEL_start",
  "__init_APPLICATION_start", "__init_end", "__deferred_init_list_start", "__deferred_init_list_end",
  "__init_EARLY_start", "__static_thread_data_list_start", "__static_thread_data_list_end",
  "_device_list_start", "_device_list_end", "__device_init_status_start", "__device_start",
  "__device_end"].map String.toList

/-- The body of the loop that collects the sections, a set in the order of insertion. -/
def insertSection (map_sections : List Section) (sections : List (List Char)) (sym_name : List Char) :
    List (List Char) :=
  match map_get_section_of_symbol map_sections sym_name with
  | none => sections
  | some (scn, _) => if scn.name.isEmpty then sections else sections.insert scn.name

/-- The body of the loop that sets up the symbols. -/
def placeSymbol (map_sections : List Section) (M : List GlobalVariable) (sym_name : List Char) :
    List GlobalVariable :=
  match map_get_section_of_symbol map_sections sym_name with
  | none => M
  | some (scn, offset) =>
    if scn.size < offset then M
    else
      -- the end of the section is the start of the array behind it
      let (i, j) := if offset = scn.size then (1, 0) else (0, offset)
      if (getNamedGlobal M scn.name).isNone then M
      else setInitializer (getOrInsertGlobal M sym_name) sym_name (.gep scn.size scn.name i j)

/-- The loop that places the sections as binary blobs. -/
def addBlobs (uniqueName : List GlobalVariable → List Char → List Char) (elf : List ElfScn)
    (M : List GlobalVariable) (sections : List (List Char)) : List GlobalVariable :=
  sections.foldl (fun M scn =>
    newGlobal uniqueName M ⟨scn, some (.array (section_to_llvm_data elf scn))⟩) M

/-- `rfind`: the last place where the text begins. -/
def rfind (text : List Char) : List Char → Option Nat
  | [] => if text.isEmpty then some 0 else none
  | c :: s =>
    match rfind text s with
    | some i => some (i + 1)
    | none => if text.isPrefixOf (c :: s) then some 0 else none

/-- `extract_blob`. The host gives the contents of the files, and the order in which a set is listed is not
specified. -/
def extract_blob (readMap : List Char → List Char) (readElf : List Char → List ElfScn)
    (order : List (List Char) → List (List Char))
    (uniqueName : List GlobalVariable → List Char → List Char) (Module : List GlobalVariable)
    (InputFilename : List Char) : Except Abort (Bool × List GlobalVariable) :=
  match rfind ".elf".toList InputFilename with
  | none => .ok (false, Module)
  | some found => do
    let content := readMap (InputFilename.take found ++ ".map".toList)
    -- the loop shortens the text in every iteration but the last
    let map_sections ← (mapParse (content.length + 1) content).getD (.error .undefined)
    let elf := readElf InputFilename
    let sections := order (external_symbols.foldl (insertSection map_sections) [])
    let Module := addBlobs uniqueName elf Module sections
    .ok (true, external_symbols.foldl (placeSymbol map_sections) Module)

/-- The file has the bytes in its first section of the name. -/
def fileBytes (elf : List ElfScn) (scn : List Char) : List UInt8 :=
  match elf.find? fun shdr => shdr.sh_name = scn with
  | none => []
  | some scn => scn.bytes

/-- Where the initializer of a global variable points to. -/
def pointer (M : List GlobalVariable) (name : List Char) : Option (List Char × Nat) :=
  match (getNamedGlobal M name).bind GlobalVariable.initializer with
  | some (.gep size base i j) => some (base, i * size + j)
  | _ => none

/-- The bytes of a global variable. -/
def blob (M : List GlobalVariable) (name : List Char) : Option (List UInt8) :=
  match (getNamedGlobal M name).bind GlobalVariable.initializer with
  | some (.array bytes) => some bytes
  | _ => none

/-- The linker map lists the symbol in this section at this address, and nowhere before. -/
structure Listed (sections : List Section) (name : List Char) (scn : Section) (addr : Nat) : Prop where
  inSections : ∃ front back, sections = front ++ scn :: back ∧
    ∀ other ∈ front, ∀ sym ∈ other.symbols, sym.name ≠ name
  inSymbols : ∃ front back, scn.symbols = front ++ ⟨name, addr⟩ :: back ∧ ∀ sym ∈ front, sym.name ≠ name

/-- The symbol is listed within its section or at the end of it. -/
def Placed (sections : List Section) (name : List Char) (scn : Section) (addr : Nat) : Prop :=
  Listed sections name scn addr ∧ scn.addr ≤ addr ∧ addr ≤ scn.addr + scn.size

end Embedding

variable {sections : List Section} {name : List Char} {scn : Section} {offset : Nat}
variable {M : List GlobalVariable} {elf : List ElfScn}

/-! ### Lookups -/

/-- The search answers with the first section that lists the symbol. -/
lemma map_get_section_of_symbol_some : map_get_section_of_symbol sections name = some (scn, offset) ↔
    ∃ addr, Listed sections name scn addr ∧ offset = word (addr + 18446744073709551616 - scn.addr) := by
  rw [map_get_section_of_symbol, List.findSome?_eq_some_iff]
  constructor
  · rintro ⟨front, scn', back, e, found, before⟩
    obtain ⟨sym, first, same⟩ := Option.map_eq_some_iff.1 found
    cases same
    obtain ⟨named, front', back', e', before'⟩ := List.find?_eq_some_iff_append.1 first
    cases of_decide_eq_true named
    refine ⟨sym.addr, ⟨⟨front, back, e, fun other mem sym' mem' same => ?_⟩, front', back', e', ?_⟩, rfl⟩
    · have none := List.find?_eq_none.1 (Option.map_eq_none_iff.1 (before other mem)) sym' mem'
      exact none (decide_eq_true same.symm)
    · intro sym' mem' same
      have other := before' sym' mem'
      rw [Bool.not_eq_true', decide_eq_false_iff_not] at other
      exact other same.symm
  · rintro ⟨addr, ⟨⟨front, back, e, before⟩, front', back', e', before'⟩, rfl⟩
    refine ⟨front, scn, back, e, Option.map_eq_some_iff.2 ⟨⟨name, addr⟩, ?_, rfl⟩, ?_⟩
    · refine List.find?_eq_some_iff_append.2 ⟨decide_eq_true rfl, front', back', e', fun sym mem => ?_⟩
      rw [Bool.not_eq_true', decide_eq_false_iff_not]
      exact fun same => before' sym mem same.symm
    · intro other mem
      refine Option.map_eq_none_iff.2 (List.find?_eq_none.2 fun sym mem' same => ?_)
      exact before other mem sym mem' (of_decide_eq_true same).symm

/-- The section is in the list. -/
lemma Listed.mem {addr : Nat} (listed : Listed sections name scn addr) : scn ∈ sections := by
  obtain ⟨front, back, rfl, _⟩ := listed.inSections
  exact List.mem_append_right _ List.mem_cons_self

/-- The offset of a symbol is its distance from its section, if it is not before the section. -/
lemma offset_eq {base addr : Nat} (low : addr < 2 ^ 64) (low' : base < 2 ^ 64) :
    word (addr + 18446744073709551616 - base) =
      if base ≤ addr then addr - base else addr + 18446744073709551616 - base := by
  split
  · rw [word]
    omega
  · rw [word]
    omega

/-- Without sections of the null type the section of the name is found. -/
lemma section_to_llvm_data_eq (typed : ∀ shdr ∈ elf, shdr.sh_type ≠ 0) :
    section_to_llvm_data elf name = fileBytes elf name := by
  have same : ee_get_section elf (some name) 0 0 = elf.find? fun shdr => shdr.sh_name = name := by
    refine List.find?_congr fun shdr mem => ?_
    rw [beq_eq_false_iff_ne.2 (typed shdr mem), Bool.eq_iff_iff]
    simpa using eq_comm
  rw [section_to_llvm_data, same, fileBytes]

/-! ### The module -/

/-- A global with a new name is appended under its name. -/
lemma newGlobal_fresh {uniqueName : List GlobalVariable → List Char → List Char} {G : GlobalVariable}
    (fresh : getNamedGlobal M G.name = none) : newGlobal uniqueName M G = M ++ [G] := by
  rw [newGlobal, fresh]
  rfl

/-- A global at the end is found if there is none of its name before. -/
lemma getNamedGlobal_append_single (G : GlobalVariable) :
    getNamedGlobal (M ++ [G]) name =
      (getNamedGlobal M name).or (if G.name = name then some G else none) := by
  rw [getNamedGlobal, List.find?_append]
  congr 1
  by_cases same : G.name = name
  · simp [same]
  · simp [same]

/-- What is found has the name. -/
lemma getNamedGlobal_name {G : GlobalVariable} (found : getNamedGlobal M name = some G) : G.name = name :=
  of_decide_eq_true (List.find?_some found :)

/-- Setting an initializer changes the global of the name only. -/
lemma getNamedGlobal_setInitializer (symbol : List Char) (init : Initializer) :
    getNamedGlobal (setInitializer M symbol init) name = (getNamedGlobal M name).map fun G =>
      if G.name = symbol then { G with initializer := some init } else G := by
  rw [getNamedGlobal, setInitializer, List.find?_map]
  congr 2
  funext G
  show decide ((if G.name = symbol then { G with initializer := some init } else G).name = name) = _
  split
  · rfl
  · rfl

/-- A symbol gets the initializer, whether it was there or not. -/
lemma getNamedGlobal_set (symbol : List Char) (init : Initializer) :
    getNamedGlobal (setInitializer (getOrInsertGlobal M symbol) symbol init) name =
      if name = symbol then some ⟨symbol, some init⟩ else getNamedGlobal M name := by
  have inserted : getNamedGlobal (getOrInsertGlobal M symbol) name =
      if name = symbol then some ((getNamedGlobal M symbol).getD ⟨symbol, none⟩)
      else getNamedGlobal M name := by
    rw [getOrInsertGlobal]
    cases there : getNamedGlobal M symbol with
    | some G =>
      rw [Option.isSome_some, if_pos rfl]
      split
      case isTrue same => rw [same, there, Option.getD_some]
      case isFalse => rfl
    | none =>
      rw [Option.isSome_none, if_neg Bool.false_ne_true, getNamedGlobal_append_single, Option.getD_none]
      by_cases same : name = symbol
      case pos => rw [same, there, Option.none_or, if_pos rfl]
      case neg => rw [if_neg (Ne.symm same), Option.or_none, if_neg same]
  rw [getNamedGlobal_setInitializer, inserted]
  split
  case isTrue same =>
    have named : ((getNamedGlobal M symbol).getD ⟨symbol, none⟩).name = symbol := by
      cases there : getNamedGlobal M symbol with
      | some G => exact getNamedGlobal_name there
      | none => rfl
    rw [Option.map_some, if_pos named, named]
  case isFalse other =>
    cases there : getNamedGlobal M name with
    | none => rfl
    | some G => rw [Option.map_some, if_neg fun same => other ((getNamedGlobal_name there).symm.trans same)]

/-- The blobs of sections with names of their own. -/
lemma getNamedGlobal_blobs (uniqueName : List GlobalVariable → List Char → List Char) (elf : List ElfScn)
    (name : List Char) {scns : List (List Char)} (nodup : scns.Nodup)
    (fresh : ∀ scn ∈ scns, getNamedGlobal M scn = none) :
    getNamedGlobal (addBlobs uniqueName elf M scns) name =
      if name ∈ scns then some ⟨name, some (.array (section_to_llvm_data elf name))⟩
      else getNamedGlobal M name := by
  induction scns generalizing M with
  | nil => rfl
  | cons scn scns ih =>
    obtain ⟨new, nodup⟩ := List.nodup_cons.1 nodup
    rw [addBlobs, List.foldl_cons, newGlobal_fresh (fresh scn List.mem_cons_self), ← addBlobs, ih nodup]
    · rw [getNamedGlobal_append_single]
      by_cases here : name = scn
      case pos =>
        subst here
        rw [if_neg new, if_pos List.mem_cons_self, fresh name List.mem_cons_self, Option.none_or, if_pos rfl]
      case neg =>
        rw [if_neg (Ne.symm here), Option.or_none]
        simp only [List.mem_cons, here, false_or]
    · intro other mem
      rw [getNamedGlobal_append_single, fresh other (List.mem_cons_of_mem _ mem), Option.none_or, if_neg]
      rintro rfl
      exact new mem

/-- What the loop over the symbols sets up for one of them, if the blobs are there. -/
def placed (map_sections : List Section) (name : List Char) : Option Initializer :=
  (map_get_section_of_symbol map_sections name).bind fun (scn, offset) =>
    if scn.size < offset then none
    else if offset = scn.size then some (.gep scn.size scn.name 1 0)
    else some (.gep scn.size scn.name 0 offset)

/-- Placing a symbol changes the global of its name only. -/
lemma getNamedGlobal_placeSymbol (name : List Char) {symbol : List Char}
    (there : ∀ scn addr, Listed sections symbol scn addr → getNamedGlobal M scn.name ≠ none) :
    getNamedGlobal (placeSymbol sections M symbol) name =
      if name = symbol then ((placed sections symbol).map fun init => ⟨symbol, some init⟩).or
        (getNamedGlobal M name) else getNamedGlobal M name := by
  rw [placeSymbol, placed]
  cases found : map_get_section_of_symbol sections symbol with
  | none => simp
  | some listed =>
    obtain ⟨scn, offset⟩ := listed
    obtain ⟨addr, listed, _⟩ := map_get_section_of_symbol_some.1 found
    have blob : (getNamedGlobal M scn.name).isNone = false :=
      Option.isNone_eq_false_iff.2 (Option.isSome_iff_ne_none.2 (there scn addr listed))
    simp only [Option.bind_some, blob, Bool.false_eq_true, if_false]
    by_cases outside : scn.size < offset
    · simp [outside]
    · by_cases stop : offset = scn.size
      · simp [stop, getNamedGlobal_set]
      · simp [outside, stop, getNamedGlobal_set]

/-- The loop over the symbols sets up those of the map, and changes nothing else. -/
lemma getNamedGlobal_symbols (name : List Char) {symbols : List (List Char)}
    (there : ∀ symbol ∈ symbols, ∀ scn addr, Listed sections symbol scn addr →
      getNamedGlobal M scn.name ≠ none) :
    getNamedGlobal (symbols.foldl (placeSymbol sections) M) name =
      if name ∈ symbols then ((placed sections name).map fun init => ⟨name, some init⟩).or
        (getNamedGlobal M name) else getNamedGlobal M name := by
  induction symbols generalizing M with
  | nil => rfl
  | cons symbol symbols ih =>
    have first := fun name => getNamedGlobal_placeSymbol name (there symbol List.mem_cons_self)
    rw [List.foldl_cons, ih]
    · rw [first]
      by_cases here : name = symbol
      case pos =>
        subst here
        rw [if_pos rfl, if_pos List.mem_cons_self]
        cases placed sections name with
        | none => simp
        | some init => simp
      case neg => simp only [here, if_false, List.mem_cons, false_or]
    · intro other mem scn addr listed
      have before := there other (List.mem_cons_of_mem _ mem) scn addr listed
      rw [first]
      split
      case isTrue => exact fun none => before (Option.or_eq_none_iff.1 none).2
      case isFalse => exact before

/-- One symbol adds the section that lists it. -/
lemma mem_insertSection (named : ∀ scn ∈ sections, scn.name ≠ []) {scns : List (List Char)}
    {symbol : List Char} : name ∈ insertSection sections scns symbol ↔
      name ∈ scns ∨ ∃ scn addr, Listed sections symbol scn addr ∧ scn.name = name := by
  rw [insertSection]
  cases found : map_get_section_of_symbol sections symbol with
  | none =>
    refine ⟨.inl, fun either => either.resolve_right ?_⟩
    rintro ⟨scn, addr, listed, _⟩
    cases found.symm.trans (map_get_section_of_symbol_some.2 ⟨addr, listed, rfl⟩)
  | some answer =>
    obtain ⟨scn, offset⟩ := answer
    obtain ⟨addr, listed, _⟩ := map_get_section_of_symbol_some.1 found
    simp only [List.isEmpty_iff, named scn listed.mem, if_false, List.mem_insert_iff]
    constructor
    · rintro (rfl | mem)
      · exact .inr ⟨scn, addr, listed, rfl⟩
      · exact .inl mem
    · rintro (mem | ⟨scn', addr', listed', rfl⟩)
      · exact .inr mem
      · cases found.symm.trans (map_get_section_of_symbol_some.2 ⟨addr', listed', rfl⟩)
        exact .inl rfl

/-- The sections collected are those that list one of the symbols. -/
lemma mem_insertSections (named : ∀ scn ∈ sections, scn.name ≠ []) {symbols scns : List (List Char)} :
    name ∈ symbols.foldl (insertSection sections) scns ↔
      name ∈ scns ∨ ∃ symbol ∈ symbols, ∃ scn addr, Listed sections symbol scn addr ∧ scn.name = name := by
  induction symbols generalizing scns with
  | nil => simp
  | cons symbol symbols ih =>
    rw [List.foldl_cons, ih, mem_insertSection named, or_assoc]
    simp only [List.mem_cons, exists_eq_or_imp]

/-- No section is collected twice. -/
lemma insertSections_nodup {symbols scns : List (List Char)} (nodup : scns.Nodup) :
    (symbols.foldl (insertSection sections) scns).Nodup := by
  induction symbols generalizing scns with
  | nil => exact nodup
  | cons symbol symbols ih =>
    refine ih ?_
    rw [insertSection]
    split
    · exact nodup
    · split
      · exact nodup
      · exact nodup.insert

/-! ### Files -/

/-- The ending is found behind the stem. -/
lemma rfind_stem (stem : List Char) : rfind ".elf".toList (stem ++ ".elf".toList) = some stem.length := by
  induction stem with
  | nil => decide
  | cons c stem ih => rw [List.cons_append, rfind, ih, List.length_cons]

/-- The section has a name, and its addresses are of 64 bits. -/
def Section.Fits (scn : Section) : Prop :=
  scn.name ≠ [] ∧ scn.addr < 2 ^ 64 ∧ ∀ symbol ∈ scn.symbols, symbol.addr < 2 ^ 64

/-- What keeps every section in bounds keeps them if it is done to the last one. -/
lemma fits_modifyLast {f : Section → Section} (fits : ∀ scn ∈ sections, scn.Fits)
    (keeps : ∀ scn, scn.Fits → (f scn).Fits) : ∀ scn ∈ sections.modifyLast f, scn.Fits := by
  induction sections using List.reverseRecOn with
  | nil => exact fits
  | append_singleton front last _ =>
    rw [List.modifyLast_concat]
    intro scn mem
    obtain front' | last' := List.mem_append.1 mem
    · exact fits scn (List.mem_append_left _ front')
    · rw [List.mem_singleton.1 last']
      exact keeps last (fits last (List.mem_append_right _ List.mem_cons_self))

/-- The sections of a map that a linker writes fit. -/
lemma sectionsOf_fits {items : List MapItem} (proper : MapProper items)
    (fits : ∀ scn ∈ sections, scn.Fits) : ∀ scn ∈ items.foldl MapItem.add sections, scn.Fits := by
  induction items generalizing sections with
  | nil => exact fits
  | cons item items ih =>
    obtain ⟨here, others⟩ := proper
    refine ih others ?_
    cases item with
    | scn name gap pad addr gap' pad' size =>
      obtain ⟨ne, _, _, _, _, _, low, _⟩ := here
      refine List.forall_mem_append.2 ⟨fits, List.forall_mem_singleton.2 ⟨ne, low, ?_⟩⟩
      exact List.forall_mem_nil _
    | sym indent pad addr gap name =>
      obtain ⟨_, _, _, _, _, _, low⟩ := here
      refine fits_modifyLast fits fun scn old => ⟨old.1, old.2.1, ?_⟩
      exact List.forall_mem_append.2 ⟨old.2.2, List.forall_mem_singleton.2 low⟩
    | line text => exact fits

/-- A symbol that the map places is set up, with its distance from the section. -/
lemma placed_some {addr : Nat} (fits : ∀ scn ∈ sections, scn.Fits) (place : Placed sections name scn addr) :
    ∃ i j, placed sections name = some (.gep scn.size scn.name i j) ∧ i * scn.size + j = addr - scn.addr := by
  obtain ⟨listed, le, le'⟩ := place
  obtain ⟨_, low, symbols⟩ := fits scn listed.mem
  obtain ⟨front, back, e, _⟩ := listed.inSymbols
  have low' : addr < 2 ^ 64 := symbols ⟨name, addr⟩ (e ▸ List.mem_append_right _ List.mem_cons_self)
  have found := map_get_section_of_symbol_some.2 ⟨addr, listed, rfl⟩
  rw [offset_eq low' low, if_pos le] at found
  have inside : ¬ scn.size < addr - scn.addr := by omega
  rw [placed, found, Option.bind_some]
  simp only [inside, if_false]
  split
  case isTrue stop => exact ⟨1, 0, rfl, by omega⟩
  case isFalse => exact ⟨0, addr - scn.addr, rfl, by omega⟩

/-- A symbol outside of its section is not. -/
lemma placed_none (fits : ∀ scn ∈ sections, scn.Fits)
    (inside : ∀ scn ∈ sections, scn.addr + scn.size < 2 ^ 64)
    (outside : ∀ scn addr, ¬ Placed sections name scn addr) : placed sections name = none := by
  rw [placed]
  cases found : map_get_section_of_symbol sections name with
  | none => rfl
  | some answer =>
    obtain ⟨scn, offset⟩ := answer
    obtain ⟨addr, listed, rfl⟩ := map_get_section_of_symbol_some.1 found
    obtain ⟨_, low, symbols⟩ := fits scn listed.mem
    obtain ⟨front, back, e, _⟩ := listed.inSymbols
    have low' : addr < 2 ^ 64 := symbols ⟨name, addr⟩ (e ▸ List.mem_append_right _ List.mem_cons_self)
    have room := inside scn listed.mem
    have past : scn.size < word (addr + 18446744073709551616 - scn.addr) := by
      rw [offset_eq low' low]
      split
      case isTrue le =>
        by_contra within
        exact outside scn addr ⟨listed, le, by omega⟩
      case isFalse before => omega
    rw [Option.bind_some]
    exact if_pos past

/-- `map_parse` reads the sections of the map. -/
lemma mapParse_mapText {items : List MapItem} (proper : MapProper items) :
    mapParse ((mapText items).length + 1) (mapText items) = some (.ok (sectionsOf items)) :=
  parses_items proper [] (.inl rfl) _ (Nat.lt_succ_self _) (some 0) rfl

/-- The steps of `extract_blob` for a file with a linker map. -/
lemma extract_blob_eq {readMap : List Char → List Char} {readElf : List Char → List ElfScn}
    {order : List (List Char) → List (List Char)}
    {uniqueName : List GlobalVariable → List Char → List Char} {stem : List Char} {items : List MapItem}
    (content : readMap (stem ++ ".map".toList) = mapText items) (proper : MapProper items) :
    extract_blob readMap readElf order uniqueName M (stem ++ ".elf".toList) =
      .ok (true, external_symbols.foldl (placeSymbol (sectionsOf items))
        (addBlobs uniqueName (readElf (stem ++ ".elf".toList)) M
          (order (external_symbols.foldl (insertSection (sectionsOf items)) [])))) := by
  rw [extract_blob, rfind_stem]
  simp only [List.take_left, content, mapParse_mapText proper, Option.getD_some, ok_bind]

/-- The module that `extract_blob` makes of a linked program. Every symbol of the list that the linker map
places in a section points to the blob of the section, as far behind its start as the symbol is behind the
section, or to its end; the blob has the bytes of the file; and all other globals are as before. So the
distance of two symbols of a section is that of the linked program, and behind a symbol are the bytes that are
behind it there. -/
theorem extract_blob_places {readMap : List Char → List Char} {readElf : List Char → List ElfScn}
    {order : List (List Char) → List (List Char)}
    {uniqueName : List GlobalVariable → List Char → List Char} {Module : List GlobalVariable}
    {stem : List Char} {items : List MapItem} (permutes : ∀ l, (order l).Perm l)
    (content : readMap (stem ++ ".map".toList) = mapText items) (proper : MapProper items)
    (typed : ∀ shdr ∈ readElf (stem ++ ".elf".toList), shdr.sh_type ≠ 0)
    (inside : ∀ scn ∈ sectionsOf items, scn.addr + scn.size < 2 ^ 64)
    (apart : ∀ scn ∈ sectionsOf items,
      scn.name ∉ external_symbols ∧ getNamedGlobal Module scn.name = none) :
    ∃ M, extract_blob readMap readElf order uniqueName Module (stem ++ ".elf".toList) = .ok (true, M) ∧
      (∀ name ∈ external_symbols, ∀ scn addr, Placed (sectionsOf items) name scn addr →
        pointer M name = some (scn.name, addr - scn.addr)) ∧
      (∀ name ∈ external_symbols, ∀ scn addr, Listed (sectionsOf items) name scn addr →
        blob M scn.name = some (fileBytes (readElf (stem ++ ".elf".toList)) scn.name)) ∧
      ∀ name, (name ∈ external_symbols → ∀ scn addr, ¬ Placed (sectionsOf items) name scn addr) →
        (∀ symbol ∈ external_symbols, ∀ scn addr, Listed (sectionsOf items) symbol scn addr →
          scn.name ≠ name) →
        getNamedGlobal M name = getNamedGlobal Module name := by
  have fits : ∀ scn ∈ sectionsOf items, scn.Fits := sectionsOf_fits proper (List.forall_mem_nil _)
  have named : ∀ scn ∈ sectionsOf items, scn.name ≠ [] := fun scn mem => (fits scn mem).1
  have members : ∀ {name}, name ∈ order (external_symbols.foldl (insertSection (sectionsOf items)) []) ↔
      ∃ symbol ∈ external_symbols, ∃ scn addr,
        Listed (sectionsOf items) symbol scn addr ∧ scn.name = name := by
    intro name
    rw [(permutes _).mem_iff, mem_insertSections named]
    simp
  have nodup : (order (external_symbols.foldl (insertSection (sectionsOf items)) [])).Nodup :=
    (permutes _).nodup_iff.2 (insertSections_nodup .nil)
  have fresh : ∀ scn ∈ order (external_symbols.foldl (insertSection (sectionsOf items)) []),
      getNamedGlobal Module scn = none := by
    intro name mem
    obtain ⟨_, _, scn, _, listed, rfl⟩ := members.1 mem
    exact (apart scn listed.mem).2
  have blobs := fun name =>
    getNamedGlobal_blobs uniqueName (readElf (stem ++ ".elf".toList)) name nodup fresh
  have there : ∀ symbol ∈ external_symbols, ∀ scn addr, Listed (sectionsOf items) symbol scn addr →
      getNamedGlobal (addBlobs uniqueName (readElf (stem ++ ".elf".toList)) Module
        (order (external_symbols.foldl (insertSection (sectionsOf items)) []))) scn.name ≠ none := by
    intro symbol mem scn addr listed
    rw [blobs, if_pos (members.2 ⟨symbol, mem, scn, addr, listed, rfl⟩)]
    exact Option.some_ne_none _
  have symbols := fun name => getNamedGlobal_symbols name there
  refine ⟨_, extract_blob_eq content proper, ?_, ?_, ?_⟩
  · intro name mem scn addr place
    obtain ⟨i, j, set, distance⟩ := placed_some fits place
    rw [pointer, symbols, if_pos mem, set]
    exact congrArg (fun k => some (scn.name, k)) distance
  · intro name mem scn addr listed
    rw [blob, symbols, if_neg (apart scn listed.mem).1, blobs,
      if_pos (members.2 ⟨name, mem, scn, addr, listed, rfl⟩), ← section_to_llvm_data_eq typed]
    rfl
  · intro name unplaced other
    have absent : name ∉ order (external_symbols.foldl (insertSection (sectionsOf items)) []) := by
      intro mem
      obtain ⟨symbol, mem, scn, addr, listed, same⟩ := members.1 mem
      exact other symbol mem scn addr listed same
    rw [symbols, blobs, if_neg absent]
    split
    case isTrue mem => rw [placed_none fits inside (unplaced mem), Option.map_none, Option.none_or]
    case isFalse => rfl

/-- A section with its start and end symbols, and the file that has its bytes. -/
def initlevel : Section :=
  ⟨"initlevel".toList, 16, 4, [⟨"__init_EARLY_start".toList, 16⟩, ⟨"__init_end".toList, 20⟩]⟩

/-- The sections of the file, one of another name before. -/
def initlevelElf : List ElfScn := [⟨"text".toList, 1, 0, 2, [some [9, 9]]⟩,
  ⟨"initlevel".toList, 1, 16, 4, [some [1, 2, 3, 4]]⟩]

/-- The section can be written in a map. -/
lemma initlevel_proper : initlevel.Proper := by
  have name : ∀ c ∈ "initlevel".toList, isWord c = true := by simp [isWord]
  have start : ∀ c ∈ "__init_EARLY_start".toList, isWord c = true := by simp [isWord]
  have stop : ∀ c ∈ "__init_end".toList, isWord c = true := by simp [isWord]
  refine ⟨by decide, name, by decide, by decide, by decide, List.forall_mem_cons.2 ⟨?_, ?_⟩⟩
  · exact ⟨by decide, start, by decide⟩
  · exact List.forall_mem_singleton.2 ⟨by decide, stop, by decide⟩

/-- The end of the section is four bytes behind its start. -/
theorem extract_blob_places_initlevel :
    ∃ M, extract_blob (fun _ => mapText (itemsOf [initlevel])) (fun _ => initlevelElf) id
        (fun _ name => name) [] "zephyr.elf".toList = .ok (true, M) ∧
      pointer M "__init_EARLY_start".toList = some ("initlevel".toList, 0) ∧
      pointer M "__init_end".toList = some ("initlevel".toList, 4) ∧
      blob M "initlevel".toList = some [1, 2, 3, 4] := by
  have sections : sectionsOf (itemsOf [initlevel]) = [initlevel] := foldl_itemsOf [] [initlevel]
  have start : Placed [initlevel] "__init_EARLY_start".toList initlevel 16 :=
    ⟨⟨⟨[], [], rfl, by decide⟩, [], _, rfl, by decide⟩, by decide, by decide⟩
  have stop : Placed [initlevel] "__init_end".toList initlevel 20 :=
    ⟨⟨⟨[], [], rfl, by decide⟩, [⟨"__init_EARLY_start".toList, 16⟩], [], rfl, by decide⟩, by decide,
      by decide⟩
  have start_mem : "__init_EARLY_start".toList ∈ external_symbols := List.mem_map_of_mem (by simp)
  have stop_mem : "__init_end".toList ∈ external_symbols := List.mem_map_of_mem (by simp)
  obtain ⟨M, ran, pointers, blobs, _⟩ := @extract_blob_places (fun _ => mapText (itemsOf [initlevel]))
    (fun _ => initlevelElf) id (fun _ name => name) [] "zephyr".toList (itemsOf [initlevel])
    (fun _ => .refl _) rfl (itemsOf_proper (List.forall_mem_singleton.2 initlevel_proper)) (by decide)
    (by rw [sections]; decide) (by rw [sections]; decide +kernel)
  rw [sections] at pointers blobs
  refine ⟨M, ran, ?_, ?_, ?_⟩
  · exact pointers _ start_mem initlevel _ start
  · exact pointers _ stop_mem initlevel _ stop
  · exact blobs _ stop_mem initlevel _ stop.1

end Irx.Blob
