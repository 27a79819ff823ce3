import EventSheet.NameMap

/-!
The objects that an expression can speak of.

An object is declared with its type and with the behaviors it has, each under a name of its own. A
project declares objects for all its scenes and a scene declares more; a scene's declaration hides
the project's of the same name. A behavior that the object itself does not have is looked for on
every object, because behaviors of one name are taken to be of one type.
-/

set_option autoImplicit false

namespace EventSheet

/-- What the checker asks about names: the type of an object, and the type of a behavior that is
written on an object. -/
structure ObjectScope where
  /-- The type of a declared object. -/
  objectType? : String → Option String
  /-- The type of a behavior, by the name of the object and its own. -/
  behaviorType? : String → String → Option String

/-- A declared object. -/
structure DeclaredObject where
  /-- The type of the object. -/
  type : String
  /-- The types of its behaviors, by the names of the behaviors. -/
  behaviors : NameMap String
deriving DecidableEq, Inhabited

/-- Declared objects, by name. -/
structure ObjectContainer where
  /-- The objects. -/
  objects : NameMap DeclaredObject
deriving DecidableEq, Inhabited

namespace ObjectContainer

/-- No objects. -/
def empty : ObjectContainer := ⟨.empty⟩

/-- Declares an object, without behaviors. -/
def withObject (c : ObjectContainer) (name type : String) : ObjectContainer :=
  ⟨c.objects.insert name ⟨type, .empty⟩⟩

/-- Gives a behavior to a declared object; nothing happens if the object is not declared. -/
def withBehavior (c : ObjectContainer) (objectName behaviorName type : String) :
    ObjectContainer :=
  match c.objects.get? objectName with
  | some o =>
    ⟨c.objects.insert objectName { o with behaviors := o.behaviors.insert behaviorName type }⟩
  | none => c

/-- The type of an object. -/
def objectType? (c : ObjectContainer) (name : String) : Option String :=
  (c.objects.get? name).map DeclaredObject.type

/-- The type of a behavior on an object itself. -/
def ownBehaviorType? (c : ObjectContainer) (objectName behaviorName : String) : Option String :=
  (c.objects.get? objectName).bind fun o => o.behaviors.get? behaviorName

/-- The type of a behavior on the first object, in name order, that has it. -/
def anyBehaviorType? (c : ObjectContainer) (behaviorName : String) : Option String :=
  c.objects.values.findSome? fun o => o.behaviors.get? behaviorName

/-- The type of a behavior that is written on an object. -/
def behaviorType? (c : ObjectContainer) (objectName behaviorName : String) : Option String :=
  (c.ownBehaviorType? objectName behaviorName).or (c.anyBehaviorType? behaviorName)

/-- The container as a scope. -/
def toScope (c : ObjectContainer) : ObjectScope := ⟨c.objectType?, c.behaviorType?⟩

end ObjectContainer

/-- The objects of a project and, in front of them, those of a scene. -/
structure ProjectScope where
  /-- The objects of the project. -/
  globals : ObjectContainer
  /-- The objects of the scene. -/
  locals : ObjectContainer
deriving DecidableEq, Inhabited

namespace ProjectScope

/-- No objects. -/
def empty : ProjectScope := ⟨.empty, .empty⟩

/-- The type of an object. -/
def objectType? (s : ProjectScope) (name : String) : Option String :=
  (s.locals.objectType? name).or (s.globals.objectType? name)

/-- The container whose declaration of an object is visible. -/
def declaring (s : ProjectScope) (objectName : String) : ObjectContainer :=
  if s.locals.objects.contains objectName then s.locals else s.globals

/-- The type of a behavior that is written on an object. -/
def behaviorType? (s : ProjectScope) (objectName behaviorName : String) : Option String :=
  (((s.declaring objectName).ownBehaviorType? objectName behaviorName).or
    (s.locals.anyBehaviorType? behaviorName)).or (s.globals.anyBehaviorType? behaviorName)

/-- The two layers as one scope. -/
def toScope (s : ProjectScope) : ObjectScope := ⟨s.objectType?, s.behaviorType?⟩

end ProjectScope

end EventSheet
