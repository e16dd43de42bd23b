import Wei.Crash
import Wei.Scope

/-!
Modules: a file evaluated in a scope of its own. Others see the names that it exports. Every
module finds facts about itself under the constant `wei`.
-/

namespace Wei

/-- The modules that have been loaded, by the canonical path of their file. -/
abbrev ModuleCache := OrderedMap String (Ref .module)

/-- Adds a module under a path that has none yet. -/
def ModuleCache.add (c : ModuleCache) (path : String) (r : Ref .module) :
    Except Crash ModuleCache :=
  if c.contains path then .error .duplicateModule else .ok (c.insert path r)

namespace StoreM

/-- A new module. Its scope binds `wei` and nothing else. -/
def newModuleAt (path : String) : StoreM (Ref .module) := do
  let scope ← newScope ⟨.empty, none⟩
  let r ← newModule ⟨path, scope, []⟩
  declare scope "wei" (.info r) true
  pure r

/-- What a new module amounts to: a scope and a module, each the next of its kind. -/
theorem newModuleAt_eq (path : String) (s : Store) :
    newModuleAt path s = .ok ⟨s.modules.size⟩
      { s with
        scopes := s.scopes.push
          ⟨OrderedMap.empty.insert "wei" ⟨.info ⟨s.modules.size⟩, true⟩, none⟩
        modules := s.modules.push ⟨path, ⟨s.scopes.size⟩, []⟩ } := by
  have hs : (s.scopes.push (⟨.empty, none⟩ : Scope)).get s.scopes.size = ⟨.empty, none⟩ :=
    Arena.get_push_size ..
  -- the store when the scope and the module have been made
  let made : Store :=
    { s with
      scopes := s.scopes.push ⟨.empty, none⟩
      modules := s.modules.push ⟨path, ⟨s.scopes.size⟩, []⟩ }
  have hmade : newModuleAt path s = (do
      declare ⟨s.scopes.size⟩ "wei" (.info ⟨s.modules.size⟩) true
      pure ⟨s.modules.size⟩ : StoreM (Ref .module)) made := rfl
  simp only [hmade, made, declare, bind, EStateM.bind, pure, EStateM.pure, Store.holds,
    Store.scope, hs, OrderedMap.contains, OrderedMap.find?_empty, Option.isSome_none,
    Bool.false_eq_true, if_false, Store.writeBinding, Store.setScope, Arena.set_push_size]

/-- The attribute of a module: a name that it exports. -/
def moduleAttribute? (r : Ref .module) (name : String) : StoreM (Option Value) :=
  fun s =>
    let m := s.module r
    .ok (if m.exports.contains name then s.lookup? m.scope name else none) s

/-- Writes a name that the module exports. -/
def setModuleAttribute (r : Ref .module) (name : String) (value : Value) : StoreM Unit := do
  let m := (← get).module r
  if m.exports.contains name then assign m.scope name value
  else throw (.noAttribute "module" name)

/-- Lets others see names that the scope of the module binds, one after the other. -/
def exportNames (r : Ref .module) : List String → StoreM Unit
  | [] => pure ()
  | name :: rest => do
    let m := (← get).module r
    if (← get).holds m.scope name then
      modify fun s => s.setModule r { m with exports := m.exports.insert name }
      exportNames r rest
    else throw (.undefinedExport name)

/-- A fact about a module. -/
def infoAttribute (r : Ref .module) (name : String) : StoreM Value :=
  fun s =>
    if name = "filename" then .ok (.str (s.module r).path) s else .error (.noSuchInfo name) s

end StoreM

end Wei
