import EventSheet.Json.Basic
import EventSheet.Signature

/-!
Registries: the functions that expressions may call, by owner.

A registry holds one table of functions for free calls, one for each type of objects and one for
each type of behaviors. The empty type of either sort is always registered. Its functions apply to
every object, or behavior, and a look-up falls back to them (`chain`).

A type of objects makes new ones from a blueprint, which is what a catalog can declare. A host that
registers types in code may make objects in ways of its own; these are left out.
-/

set_option autoImplicit false

namespace EventSheet

/-- The functions of one owner. -/
abbrev FunctionTable := ByKind Signature

/-- A registered type of objects. -/
structure ObjectType where
  /-- The name of the type. -/
  name : String
  /-- Its description, empty without one. -/
  description : String
  /-- What its objects are capable of. -/
  capabilities : NameSet
  /-- The functions of its objects. -/
  functions : FunctionTable
  /-- The properties of a new object; without them no object of the type is made. -/
  blueprint : Option (NameMap Json)
deriving Inhabited

/-- Whether objects of a type have a capability. -/
def ObjectType.supports (t : ObjectType) (capability : String) : Bool :=
  t.capabilities.contains capability

/-- A new object. -/
structure ObjectInstance where
  /-- The name of the object. -/
  name : String
  /-- The type it was made from. -/
  objectType : String
  /-- Its properties. -/
  properties : NameMap Json
deriving Inhabited

/-- The functions, types of objects and types of behaviors of a platform. -/
structure Registry where
  /-- The platform. -/
  platform : String
  /-- The functions without a receiver. -/
  free : FunctionTable
  /-- The types of objects. -/
  objects : NameMap ObjectType
  /-- The functions of each type of behaviors. -/
  behaviors : NameMap FunctionTable
deriving Inhabited

namespace Registry

/-! ## Looking functions up -/

/-- The functions registered for an owner itself. -/
def functions? (r : Registry) : Owner → Option FunctionTable
  | .global => some r.free
  | .object type => (r.objects.get? type).map ObjectType.functions
  | .behavior type => r.behaviors.get? type

/-- The owners whose functions an owner has: itself, then what stands for all of its sort. -/
def lookupOwners : Owner → List Owner
  | .global => [.global]
  | .object type => [.object type, .object ""]
  | .behavior type => [.behavior type, .behavior ""]

/-- The tables that a look-up for an owner goes through. -/
def chain (r : Registry) (owner : Owner) : List FunctionTable :=
  (lookupOwners owner).filterMap r.functions?

/-- The function of a name that an owner has. -/
def lookup (r : Registry) (kind : Kind) (owner : Owner) (name : String) : Option Signature :=
  (r.chain owner).findSome? fun table => (table.get kind).get? name

/-- The names of all functions that an owner has, ascending and each once. -/
def namesInScope (r : Registry) (kind : Kind) (owner : Owner) : List String :=
  (NameSet.ofNames ((r.chain owner).flatMap fun table => (table.get kind).names)).names

/-- The functions registered for an owner itself, in name order. -/
def functionsIn (r : Registry) (kind : Kind) (owner : Owner) : List Signature :=
  match r.functions? owner with
  | some table => (table.get kind).values
  | none => []

/-! ## Types -/

/-- The registered type of objects of a name. -/
def object? (r : Registry) (type : String) : Option ObjectType := r.objects.get? type

/-- The capabilities of a type of objects, none if it is not registered. -/
def capabilities (r : Registry) (type : String) : List String :=
  match r.object? type with
  | some t => t.capabilities.names
  | none => []

/-- The types of objects in name order, without the one that stands for all. -/
def objectTypes (r : Registry) : List ObjectType :=
  r.objects.values.filter fun t => t.name ≠ ""

/-- Whether a type of behaviors is registered. -/
def hasBehavior (r : Registry) (type : String) : Bool := r.behaviors.contains type

/-- A new object of a type that has a blueprint. -/
def create? (r : Registry) (type name : String) : Option ObjectInstance := do
  let t ← r.object? type
  let properties ← t.blueprint
  pure ⟨name, type, properties⟩

/-- The number of functions of all owners. -/
def functionCount (r : Registry) : Nat :=
  r.free.size + r.objects.total (fun t => t.functions.size) + r.behaviors.total ByKind.size

end Registry

end EventSheet
