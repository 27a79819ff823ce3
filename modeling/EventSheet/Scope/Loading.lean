import EventSheet.Catalog.Loading
import EventSheet.Json.Decode
import EventSheet.Json.Reader
import EventSheet.Scope
import EventSheet.Yaml.Shape

/-!
Project scopes as JSON values, as documents and in files.

The scope of a project is a file of its own, beside the catalog or at a path of its own.
-/

set_option autoImplicit false

namespace EventSheet

open Json (required? optional?)

/-! ## JSON values -/

namespace DeclaredObject

/-- A declared object as a JSON value. -/
def toJson (o : DeclaredObject) : Json :=
  .obj [("type", .str o.type), ("behaviors", .ofMap .str o.behaviors)]

/-- The declared object that a JSON value describes. -/
def ofJson? (v : Json) : Option DeclaredObject := do
  let members ← v.record? ["type", "behaviors"]
  let type ← required? "type" Json.string? members
  let behaviors ← optional? "behaviors" .empty (Json.map? Json.string?) members
  pure ⟨type, behaviors⟩

end DeclaredObject

namespace ObjectContainer

/-- A container as a JSON value. -/
def toJson (c : ObjectContainer) : Json :=
  .obj [("objects", .ofMap DeclaredObject.toJson c.objects)]

/-- The container that a JSON value describes. -/
def ofJson? (v : Json) : Option ObjectContainer := do
  let members ← v.record? ["objects"]
  let objects ← optional? "objects" .empty (Json.map? DeclaredObject.ofJson?) members
  pure ⟨objects⟩

end ObjectContainer

namespace ProjectScope

/-- A project scope as a JSON value. -/
def toJson (s : ProjectScope) : Json :=
  .obj [("global", s.globals.toJson), ("local", s.locals.toJson)]

/-- The project scope that a JSON value describes. -/
def ofJson? (v : Json) : Option ProjectScope := do
  let members ← v.record? ["global", "local"]
  let globals ← optional? "global" .empty ObjectContainer.ofJson? members
  let locals ← optional? "local" .empty ObjectContainer.ofJson? members
  pure ⟨globals, locals⟩

end ProjectScope

/-! ## Documents -/

namespace Yaml

/-- The shape of declared objects. -/
def containerShape : Shape :=
  .record [("objects", .table (.record [("type", .text), ("behaviors", .table .text)]))]

/-- The shape of a project scope. -/
def scopeShape : Shape := .record [("global", containerShape), ("local", containerShape)]

/-- The project scope that a document declares. -/
def scope? (text : String) : Option ProjectScope :=
  (readAs scopeShape text).bind ProjectScope.ofJson?

end Yaml

/-! ## Files -/

namespace ProjectScope

/-- The project scope of a JSON text. -/
def ofJsonText? (text : String) : Option ProjectScope :=
  match Json.parse text with
  | .ok v => ofJson? v
  | .error _ => none

/-- Loads a project scope from a file, which is JSON if its name says so and else YAML. -/
def loadFile (fs : Files) (path : String) : Except LoadError ProjectScope :=
  match fs.read path with
  | .error fault => .error (.unreadable path fault)
  | .ok text =>
    let isJson := (Path.fileName? path).bind Path.extension? = some "json"
    match if isJson then ofJsonText? text else Yaml.scope? text with
    | some s => .ok s
    | none => .error (.unparsable path)

/-- The path of the project scope of a directory. -/
def pathIn (directory : String) : String := Path.join directory "scope.yaml"

/-- Loads the project scope of a directory. -/
def load (fs : Files) (directory : String) : Except LoadError ProjectScope :=
  loadFile fs (pathIn directory)

end ProjectScope

end EventSheet
