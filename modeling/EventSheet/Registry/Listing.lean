import EventSheet.Json.Decode
import EventSheet.Registry
import EventSheet.Signature.Json
import EventSheet.Text.Quoted

/-!
Functions, types of objects and new objects as they are listed.
-/

set_option autoImplicit false

namespace EventSheet

/-! ## Functions -/

/-- A parameter in a list of functions: its tag, marked if it may be left out, in brackets if
generated code supplies it. -/
def Parameter.listed (p : Parameter) : String :=
  let tag := if p.isOptional then p.tag ++ "?" else p.tag
  if p.isCodeOnly then "[" ++ tag ++ "]" else tag

/-- A function in a list of functions. -/
def Signature.listed (s : Signature) : String :=
  let parameters := ", ".intercalate (s.parameters.map Parameter.listed)
  let returns := if s.returnTag = "" then "" else " -> " ++ s.returnTag
  let needs :=
    match s.capability? with
    | some capability => s!" [needs {capability}]"
    | none => ""
  s!"{s.name}({parameters}){returns}{needs}"

/-! ## Types of objects -/

namespace ObjectType

/-- Whether objects of a type can be made. -/
def hasBlueprint (t : ObjectType) : Bool := t.blueprint.isSome

/-- A type of objects as a JSON value. -/
def toJson (t : ObjectType) : Json :=
  .obj [("capabilities", .ofStrings t.capabilities.names), ("description", .str t.description),
    ("has_factory", .bool t.hasBlueprint), ("type", .str t.name)]

/-- A type of objects in a list of types. -/
def listed (t : ObjectType) : String :=
  let capabilities := ", ".intercalate t.capabilities.names
  s!"{t.name} [{capabilities}]"

/-- A type of objects with its fields, for a person who looks for a mistake. -/
def summary (t : ObjectType) : String :=
  let capabilities := ", ".intercalate (t.capabilities.names.map Text.quoted)
  let name := Text.quoted t.name
  let count := t.functions.size
  let made := if t.hasBlueprint then "true" else "false"
  s!"ObjectMetadata \x7b object_type: {name}, capabilities: \x7b{capabilities}\x7d, "
    ++ s!"functions: {count}, has_factory: {made} \x7d"

end ObjectType

/-- A new object as a JSON value. -/
def ObjectInstance.toJson (o : ObjectInstance) : Json :=
  .obj [("name", .str o.name), ("object_type", .str o.objectType),
    ("properties", .ofMap id o.properties)]

end EventSheet
