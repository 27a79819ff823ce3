import EventSheet.Catalog
import EventSheet.Signature.Json

/-!
Catalogs as JSON values.

The tables of a group of functions stand among the members of the extension, the object or the
behavior that declares it, not in an object of their own. So the members of these three have no
order, and only an object describes them.
-/

set_option autoImplicit false

namespace EventSheet

open Json (required? optional?)

namespace FunctionDeclaration

/-- A declared function as a JSON value. -/
def toJson (f : FunctionDeclaration) : Json :=
  .obj [("description", .str f.description), ("returns", .str f.returnTag),
    ("parameters", .arr (f.parameters.map (Parameter.toJson "type"))),
    ("required_capability", .ofOption .str f.requiredCapability)]

/-- The declared function that a JSON value describes. -/
def ofJson? (v : Json) : Option FunctionDeclaration := do
  let members ← v.record? ["description", "returns", "parameters", "required_capability"]
  let description ← optional? "description" "" Json.string? members
  let returnTag ← optional? "returns" "" Json.string? members
  let parameters ← optional? "parameters" [] (Json.list? (Parameter.ofJson? "type")) members
  let capability ← optional? "required_capability" none (Json.nullable? Json.string?) members
  pure ⟨description, returnTag, parameters, capability⟩

end FunctionDeclaration

namespace Duplicate

/-- A copy as a JSON value. -/
def toJson (d : Duplicate) : Json :=
  .obj [("kind", d.kind.toJson), ("name", .str d.name), ("from", .str d.source)]

/-- The copy that a JSON value describes. -/
def ofJson? (v : Json) : Option Duplicate := do
  let members ← v.record? ["kind", "name", "from"]
  let kind ← required? "kind" Kind.ofJson? members
  let name ← required? "name" Json.string? members
  let source ← required? "from" Json.string? members
  pure ⟨kind, name, source⟩

end Duplicate

namespace FunctionGroup

/-- A group of functions as members of an object. -/
def toMembers (g : FunctionGroup) : List (String × Json) :=
  [("expressions", .ofMap FunctionDeclaration.toJson g.tables.expressions),
    ("actions", .ofMap FunctionDeclaration.toJson g.tables.actions),
    ("conditions", .ofMap FunctionDeclaration.toJson g.tables.conditions),
    ("duplicates", .arr (g.duplicates.map Duplicate.toJson))]

/-- The group of functions that the members of an object describe. -/
def ofMembers? (members : List (String × Json)) : Option FunctionGroup := do
  let table := Json.map? FunctionDeclaration.ofJson?
  let expressions ← optional? "expressions" .empty table members
  let actions ← optional? "actions" .empty table members
  let conditions ← optional? "conditions" .empty table members
  let duplicates ← optional? "duplicates" [] (Json.list? Duplicate.ofJson?) members
  pure ⟨⟨expressions, actions, conditions⟩, duplicates⟩

end FunctionGroup

namespace ObjectDeclaration

/-- A declared type of objects as a JSON value. -/
def toJson (o : ObjectDeclaration) : Json :=
  .obj ([("description", .str o.description), ("capabilities", .ofStrings o.capabilities),
    ("defaults", .ofMap id o.defaults)] ++ o.functions.toMembers)

/-- The declared type of objects that a JSON value describes. -/
def ofJson? (v : Json) : Option ObjectDeclaration := do
  let members ← v.members?
  let description ← optional? "description" "" Json.string? members
  let capabilities ← optional? "capabilities" [] (Json.list? Json.string?) members
  let defaults ← optional? "defaults" .empty (Json.map? some) members
  let functions ← FunctionGroup.ofMembers? members
  pure ⟨description, capabilities, defaults, functions⟩

end ObjectDeclaration

namespace BehaviorDeclaration

/-- A declared type of behaviors as a JSON value. -/
def toJson (b : BehaviorDeclaration) : Json :=
  .obj (("description", .str b.description) :: b.functions.toMembers)

/-- The declared type of behaviors that a JSON value describes. -/
def ofJson? (v : Json) : Option BehaviorDeclaration := do
  let members ← v.members?
  let description ← optional? "description" "" Json.string? members
  let functions ← FunctionGroup.ofMembers? members
  pure ⟨description, functions⟩

end BehaviorDeclaration

namespace Extension

/-- An extension as a JSON value. -/
def toJson (x : Extension) : Json :=
  .obj ([("namespace", .str x.qualifier), ("description", .str x.description)]
    ++ x.functions.toMembers
    ++ [("objects", .ofMap ObjectDeclaration.toJson x.objects),
      ("behaviors", .ofMap BehaviorDeclaration.toJson x.behaviors)])

/-- The extension that a JSON value describes. -/
def ofJson? (v : Json) : Option Extension := do
  let members ← v.members?
  let qualifier ← optional? "namespace" "" Json.string? members
  let description ← optional? "description" "" Json.string? members
  let functions ← FunctionGroup.ofMembers? members
  let objects ← optional? "objects" .empty (Json.map? ObjectDeclaration.ofJson?) members
  let behaviors ← optional? "behaviors" .empty (Json.map? BehaviorDeclaration.ofJson?) members
  pure ⟨qualifier, description, functions, objects, behaviors⟩

end Extension

namespace Catalog

/-- A catalog as a JSON value. -/
def toJson (c : Catalog) : Json :=
  .obj [("platform", .str c.platform), ("version", .str c.version),
    ("extensions", .ofMap Extension.toJson c.extensions)]

/-- The catalog that a JSON value describes. -/
def ofJson? (v : Json) : Option Catalog := do
  let members ← v.record? ["platform", "version", "extensions"]
  let platform ← optional? "platform" "" Json.string? members
  let version ← optional? "version" defaultVersion Json.string? members
  let extensions ← optional? "extensions" .empty (Json.map? Extension.ofJson?) members
  pure ⟨platform, version, extensions⟩

end Catalog

end EventSheet
