import EventSheet.Registry

/-!
Filling registries.

A registration either fails and leaves the registry as it was, or adds one thing. A copy of a
function never fails: if there is nothing to copy it only warns.
-/

set_option autoImplicit false

namespace EventSheet

/-- Why a registration fails. -/
inductive RegistryError where
  /-- The owner has a function of that kind and name. -/
  | duplicateFunction (kind : Kind) (name : String) (owner : Owner)
  /-- A function needs a name. -/
  | emptyFunctionName (owner : Owner)
  /-- The type of objects is registered. -/
  | duplicateObjectType (name : String)
  /-- The type of objects is not registered. -/
  | unknownObjectType (name : String)
  /-- The type of behaviors is not registered. -/
  | unknownBehaviorType (name : String)
deriving DecidableEq, Repr, Inhabited

namespace RegistryError

/-- The wording of an error. -/
def message : RegistryError → String
  | .duplicateFunction kind name owner =>
    s!"{kind} '{name}' is already registered in {owner.describe}"
  | .emptyFunctionName owner => s!"function name must not be empty ({owner.describe})"
  | .duplicateObjectType name => s!"object type '{name}' is already registered"
  | .unknownObjectType name => s!"unknown object type '{name}'"
  | .unknownBehaviorType name => s!"unknown behavior type '{name}'"

end RegistryError

/-- Why a function is not copied. -/
inductive RegistryWarning where
  /-- The owner is not registered. -/
  | noOwner (kind : Kind) (existing : String) (cause : RegistryError)
  /-- The owner has no such function. -/
  | nothingToCopy (kind : Kind) (existing : String) (owner : Owner)
deriving DecidableEq, Repr, Inhabited

namespace RegistryWarning

/-- The wording of a warning. -/
def message : RegistryWarning → String
  | .noOwner kind existing cause => s!"Could not duplicate {kind} {existing}: {cause.message}"
  | .nothingToCopy kind existing owner =>
    s!"Could not find a {kind} with name {existing} to copy in {owner.describe}"

end RegistryWarning

namespace Registry

/-- The type of objects whose functions every object has. -/
def baseObject : ObjectType := ⟨"", "Base object", .empty, .empty, none⟩

/-- The registry of a platform with nothing in it but the two base types. -/
def empty (platform : String) : Registry :=
  ⟨platform, .empty, NameMap.empty.insert "" baseObject, NameMap.empty.insert "" .empty⟩

/-! ## Types -/

/-- Registers a type of objects. -/
def addObject (r : Registry) (name description : String) (capabilities : List String)
    (blueprint : Option (NameMap Json)) : Except RegistryError Registry :=
  if r.objects.contains name then .error (.duplicateObjectType name)
  else
    let t : ObjectType := ⟨name, description, .ofNames capabilities, .empty, blueprint⟩
    .ok { r with objects := r.objects.insert name t }

/-- Registers a type of behaviors; one that is registered stays as it is. -/
def addBehavior (r : Registry) (name : String) : Registry :=
  if r.behaviors.contains name then r
  else { r with behaviors := r.behaviors.insert name .empty }

/-! ## Functions -/

/-- The functions of an owner, which has to be registered. -/
def functionsOf (r : Registry) (owner : Owner) : Except RegistryError FunctionTable :=
  match r.functions? owner, owner with
  | some table, _ => .ok table
  | none, .behavior type => .error (.unknownBehaviorType type)
  | none, .object type => .error (.unknownObjectType type)
  | none, .global => .ok r.free

/-- Replaces the functions of a registered owner. -/
def setFunctions (r : Registry) (owner : Owner) (table : FunctionTable) : Registry :=
  match owner with
  | .global => { r with free := table }
  | .object type =>
    match r.objects.get? type with
    | some t => { r with objects := r.objects.insert type { t with functions := table } }
    | none => r
  | .behavior type => { r with behaviors := r.behaviors.insert type table }

/-- Registers a function under its name, which no function of that owner and kind may have. -/
def addFunction (r : Registry) (owner : Owner) (kind : Kind) (signature : Signature) :
    Except RegistryError Registry :=
  if signature.name = "" then .error (.emptyFunctionName owner)
  else
    match r.functionsOf owner with
    | .error e => .error e
    | .ok table =>
      if (table.get kind).contains signature.name then
        .error (.duplicateFunction kind signature.name owner)
      else .ok (r.setFunctions owner (table.insert kind signature.name signature))

/-- Copies a function under a new name, in place of a function that has it. Without anything to copy
the registry stays as it is, with a warning. -/
def duplicateEntry (r : Registry) (owner : Owner) (kind : Kind) (newName existing : String) :
    Registry × List RegistryWarning :=
  match r.functionsOf owner with
  | .error e => (r, [.noOwner kind existing e])
  | .ok table =>
    match (table.get kind).get? existing with
    | none => (r, [.nothingToCopy kind existing owner])
    | some signature =>
      (r.setFunctions owner (table.insert kind newName { signature with name := newName }), [])

end Registry

end EventSheet
