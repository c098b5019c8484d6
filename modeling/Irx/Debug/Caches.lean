import Irx.Lib.Memo
import Irx.Debug.Names
import Irx.Debug.Labels

/-!
# Lookups while modules are loaded

`STCache` and `DICache` keep what was found first, and also that nothing was found, while `parseIRFiles`
links further files into the module. `structInfo` searches without a cache, and a hit is then written through
the null pointer. `lookups_iff` says for which runs all lookups succeed with the answer of a fresh search.
-/

namespace Irx.Debug
open Irx.Lib

section Lookup

variable (M : IRModule)

/-- The search of `findStructDebugInfo`. -/
def findStructDebugInfoUncached (name : String) : Option Nat := M.types.find? (isStructNamed M name)

/-- The derived types among the elements. -/
def derivedElements (CTy : Nat) : List Nat :=
  (M.debug.node CTy).elements.filterMap fun el =>
    match el with
    | .other => none
    | .type m =>
      match M.debug.node m with
      | .derived _ _ _ _ => some m
      | _ => none

/-- `getStructDebugInfoFields`, which searches without a cache. -/
def getStructDebugInfoFields (name : String) : Except Abort (List Nat) := do
  let (CTy, _) ← findStructDebugInfo M name none
  match CTy with
  | none => .ok []
  | some CTy => .ok (derivedElements M CTy)

/-- `structInfo`. -/
def structInfo (name : String) : Except Abort (List Nat) := getStructDebugInfoFields M name

end Lookup

/-- Loading files makes another module of the one loaded before. -/
inductive Action where
  | parseIRFiles (M : IRModule)
  | getTypeByName (name : String)
  | findStructDebugInfo (name : String)
  | structInfo (name : String)

/-- The module that is loaded, and the caches. -/
structure Session where
  module : IRModule
  caches : Caches

/-- A module has been linked, and nothing was asked yet. -/
def Session.start (M : IRModule) : Session := ⟨M, ⟨fun _ => none, fun _ => none⟩⟩

/-- The state after an action. -/
def Session.next (s : Session) : Action → Session
  | .parseIRFiles M => { s with module := M }
  | .getTypeByName name => { s with caches := (getTypeByName s.module name s.caches).2 }
  | .findStructDebugInfo name =>
    match findStructDebugInfo s.module name (some s.caches.di) with
    | .ok (_, DICache) => { s with caches := { s.caches with di := DICache.getD s.caches.di } }
    | .error _ => s
  | .structInfo _ => s

/-- The state after some actions. -/
def Session.run (s : Session) (actions : List Action) : Session := actions.foldl next s

/-- A lookup succeeds, with the answer of a fresh search in the module that is loaded now. -/
def Right (s : Session) : Action → Prop
  | .parseIRFiles _ => True
  | .getTypeByName name => (getTypeByName s.module name s.caches).1 = getTypeByNameUncached s.module name
  | .findStructDebugInfo name => ∃ cache, findStructDebugInfo s.module name (some s.caches.di) =
      .ok (findStructDebugInfoUncached s.module name, cache)
  | .structInfo name => structInfo s.module name =
      .ok ((findStructDebugInfoUncached s.module name).elim [] (derivedElements s.module))

/-- The module after an action. -/
def load (M : IRModule) : Action → IRModule
  | .parseIRFiles M' => M'
  | _ => M

/-- The module after the actions. -/
def loaded (M : IRModule) (actions : List Action) : IRModule := actions.foldl load M

/-- No name is looked up again after a load that has changed its answer, and `structInfo` is asked for names
only of which there is no structure. -/
structure Undisturbed (M : IRModule) (actions : List Action) : Prop where
  types : ∀ before middle after name, actions =
      before ++ .getTypeByName name :: (middle ++ .getTypeByName name :: after) →
    getTypeByNameUncached (loaded M before) name = getTypeByNameUncached (loaded M (before ++ middle)) name
  debug : ∀ before middle after name, actions =
      before ++ .findStructDebugInfo name :: (middle ++ .findStructDebugInfo name :: after) →
    findStructDebugInfoUncached (loaded M before) name =
      findStructDebugInfoUncached (loaded M (before ++ middle)) name
  fields : ∀ before after name, actions = before ++ .structInfo name :: after →
    findStructDebugInfoUncached (loaded M before) name = none

variable {M : IRModule} {s : Session} {name : String} {actions : List Action} {a : Action}
variable {cache : String → Option (Option Nat)}

/-! ### The caches are memo tables -/

/-- The name that an action looks up among the struct types. -/
def typeAsked : Action → Option String
  | .getTypeByName name => some name
  | _ => none

/-- The name that an action looks up among the debug types. -/
def debugAsked : Action → Option String
  | .findStructDebugInfo name => some name
  | _ => none

/-- The lookup of an LLVM type is one through a memo. -/
lemma getTypeByName_memo (caches : Caches) :
    getTypeByName M name caches = (Memo.answer getTypeByNameUncached ⟨M, caches.st⟩ name, { caches with
      st := Function.update caches.st name
        (some (Memo.answer getTypeByNameUncached ⟨M, caches.st⟩ name)) }) := by
  rw [getTypeByName, Memo.answer]
  cases kept : caches.st name with
  | none =>
    simp only [kept]
    rfl
  | some hit =>
    have same : Function.update caches.st name (some hit) = caches.st := by
      rw [← kept]
      exact Function.update_eq_self name caches.st
    simp only [kept, Option.getD_some, same]

/-- The lookup of a debug type is one through a memo. -/
lemma findStructDebugInfo_memo : findStructDebugInfo M name (some cache) =
    .ok (Memo.answer findStructDebugInfoUncached ⟨M, cache⟩ name, some (Function.update cache name
      (some (Memo.answer findStructDebugInfoUncached ⟨M, cache⟩ name)))) := by
  rw [findStructDebugInfo, Memo.answer, Option.bind_some]
  cases kept : cache name with
  | none =>
    simp only [kept, findStructDebugInfoUncached, Option.getD_none]
    cases M.types.find? (isStructNamed M name) with
    | none => rfl
    | some CTy => rfl
  | some hit =>
    have same : Function.update cache name (some hit) = cache := by
      rw [← kept]
      exact Function.update_eq_self name cache
    simp only [kept, Option.getD_some, same]

/-- The state of a session as that of the two tables. -/
lemma next_memo : (s.next a).module = load s.module a ∧
    (s.next a).caches.st =
      (Memo.next getTypeByNameUncached load typeAsked ⟨s.module, s.caches.st⟩ a).table ∧
    (s.next a).caches.di =
      (Memo.next findStructDebugInfoUncached load debugAsked ⟨s.module, s.caches.di⟩ a).table := by
  cases a with
  | parseIRFiles M => exact ⟨rfl, rfl, rfl⟩
  | getTypeByName name =>
    rw [Session.next, getTypeByName_memo]
    exact ⟨rfl, rfl, rfl⟩
  | findStructDebugInfo name =>
    rw [Session.next, findStructDebugInfo_memo]
    exact ⟨rfl, rfl, rfl⟩
  | structInfo name => exact ⟨rfl, rfl, rfl⟩

/-- The caches of a session are the tables of what was asked. -/
lemma run_memo : s.run actions = ⟨loaded s.module actions,
    ⟨(Memo.run findStructDebugInfoUncached load debugAsked ⟨s.module, s.caches.di⟩ actions).table,
      (Memo.run getTypeByNameUncached load typeAsked ⟨s.module, s.caches.st⟩ actions).table⟩⟩ := by
  induction actions generalizing s with
  | nil => rfl
  | cons a actions ih =>
    obtain ⟨module, st, di⟩ := next_memo (s := s) (a := a)
    rw [Memo.run_cons, Memo.run_cons]
    refine (ih (s := s.next a)).trans ?_
    rw [module, st, di]
    rfl

/-- The answer for an LLVM type is right if the memo gives what a search would. -/
lemma right_type_iff : Right s (.getTypeByName name) ↔
    Memo.answer getTypeByNameUncached ⟨s.module, s.caches.st⟩ name = getTypeByNameUncached s.module name := by
  rw [Right, getTypeByName_memo]

/-- The answer for a debug type is right if the memo gives what a search would. -/
lemma right_debug_iff : Right s (.findStructDebugInfo name) ↔
    Memo.answer findStructDebugInfoUncached ⟨s.module, s.caches.di⟩ name =
      findStructDebugInfoUncached s.module name := by
  rw [Right, findStructDebugInfo_memo]
  constructor
  · rintro ⟨_, e⟩
    exact congrArg Prod.fst (Except.ok.inj e)
  · intro same
    rw [same]
    exact ⟨_, rfl⟩

/-- The fields are listed only for a name that has no debug type. -/
lemma right_fields_iff : Right s (.structInfo name) ↔ findStructDebugInfoUncached s.module name = none := by
  rw [Right, structInfo, getStructDebugInfoFields, findStructDebugInfo, findStructDebugInfoUncached]
  simp only [Option.bind_none]
  cases found : s.module.types.find? (isStructNamed s.module name) with
  | none => exact iff_of_true rfl rfl
  | some CTy =>
    refine iff_of_false ?_ ?_
    · intro e
      cases e
    · intro e
      cases e

/-! ### Runs -/

/-- Only `getTypeByName` asks for an LLVM type. -/
lemma typeAsked_iff : typeAsked a = some name ↔ a = .getTypeByName name := by
  cases a with
  | getTypeByName name' => exact ⟨fun e => congrArg _ (Option.some.inj e), fun e => by cases e; rfl⟩
  | _ =>
    constructor
    · intro e
      cases e
    · intro e
      cases e

/-- Only `findStructDebugInfo` asks for a debug type through the cache. -/
lemma debugAsked_iff : debugAsked a = some name ↔ a = .findStructDebugInfo name := by
  cases a with
  | findStructDebugInfo name' => exact ⟨fun e => congrArg _ (Option.some.inj e), fun e => by cases e; rfl⟩
  | _ =>
    constructor
    · intro e
      cases e
    · intro e
      cases e

/-- A lookup does not change the module. -/
lemma loaded_lookup {before middle : List Action} (lookup : ∀ M, load M a = M) :
    loaded M (before ++ a :: middle) = loaded M (before ++ middle) := by
  rw [loaded, loaded, List.foldl_append, List.foldl_append, List.foldl_cons, lookup]

/-- The answer to a lookup of a struct type in a run. -/
lemma right_type_run {before : List Action} : Right ((Session.start M).run before) (.getTypeByName name) ↔
    (Memo.run getTypeByNameUncached load typeAsked (.start M) before).answer getTypeByNameUncached name =
      getTypeByNameUncached (before.foldl load M) name := by
  rw [right_type_iff, run_memo, Memo.answer, Memo.answer, Memo.run_world]
  rfl

/-- The answer to a lookup of a debug type in a run. -/
lemma right_debug_run {before : List Action} :
    Right ((Session.start M).run before) (.findStructDebugInfo name) ↔
      (Memo.run findStructDebugInfoUncached load debugAsked (.start M) before).answer
        findStructDebugInfoUncached name = findStructDebugInfoUncached (before.foldl load M) name := by
  rw [right_debug_iff, run_memo, Memo.answer, Memo.answer, Memo.run_world]
  rfl

/-- In a run, the modules that were linked decide about the fields. -/
lemma right_fields_run {before : List Action} : Right ((Session.start M).run before) (.structInfo name) ↔
    findStructDebugInfoUncached (loaded M before) name = none := by
  rw [right_fields_iff, run_memo]
  rfl

/-- All lookups of a run succeed with fresh answers if and only if the run is undisturbed. -/
theorem lookups_iff (M : IRModule) (actions : List Action) :
    (∀ before a after, actions = before ++ a :: after → Right ((Session.start M).run before) a) ↔
      Undisturbed M actions := by
  constructor
  · intro right
    refine ⟨fun before middle after name split => ?_, fun before middle after name split => ?_,
      fun before after name split => right_fields_run.1 (right before _ after split)⟩
    · have settled := Memo.fresh_iff.1 (fun before e after q split asked => by
        cases typeAsked_iff.1 asked
        exact right_type_run.1 (right before _ after split))
        before _ middle _ after name split (typeAsked_iff.2 rfl) (typeAsked_iff.2 rfl)
      exact settled.trans (congrArg (getTypeByNameUncached · name) (loaded_lookup fun _ => rfl))
    · have settled := Memo.fresh_iff.1 (fun before e after q split asked => by
        cases debugAsked_iff.1 asked
        exact right_debug_run.1 (right before _ after split))
        before _ middle _ after name split (debugAsked_iff.2 rfl) (debugAsked_iff.2 rfl)
      exact settled.trans (congrArg (findStructDebugInfoUncached · name) (loaded_lookup fun _ => rfl))
  · rintro ⟨types, debug, fields⟩ before a after split
    cases a with
    | parseIRFiles => trivial
    | getTypeByName name =>
      refine right_type_run.2 (Memo.fresh_iff.2 ?_ before _ after name split (typeAsked_iff.2 rfl))
      intro before e middle e' after q split asked asked'
      cases typeAsked_iff.1 asked
      cases typeAsked_iff.1 asked'
      exact (types before middle after q split).trans
        (congrArg (getTypeByNameUncached · q) (loaded_lookup fun _ => rfl).symm)
    | findStructDebugInfo name =>
      refine right_debug_run.2 (Memo.fresh_iff.2 ?_ before _ after name split (debugAsked_iff.2 rfl))
      intro before e middle e' after q split asked asked'
      cases debugAsked_iff.1 asked
      cases debugAsked_iff.1 asked'
      exact (debug before middle after q split).trans
        (congrArg (findStructDebugInfoUncached · q) (loaded_lookup fun _ => rfl).symm)
    | structInfo name => exact right_fields_run.2 (fields before after name split)

/-- The module that nothing is loaded into. -/
def emptyModule : IRModule where
  debug := noDebug
  types := []
  structTypes := []
  layout := .natural
  isLayoutIdentical := fun _ _ => true
  identical_self := fun _ => rfl

/-- A name that is looked up before its file is loaded is not found afterwards, and `structInfo` fails for a
structure that there is. -/
theorem early_lookup_lost :
    (¬ ∀ before a after, [Action.findStructDebugInfo "fields", .parseIRFiles fieldsModule,
        .findStructDebugInfo "fields"] = before ++ a :: after →
      Right ((Session.start emptyModule).run before) a) ∧
    structInfo fieldsModule "fields" = .error .undefined := by
  constructor
  · intro right
    have later := right_debug_iff.1 (right [.findStructDebugInfo "fields", .parseIRFiles fieldsModule] _ [] rfl)
    exact absurd later (by decide)
  · rfl

end Irx.Debug
