import EventSheet.Signature
import EventSheet.Json.Decode

/-!
Signatures and parameters as JSON values.

A parameter's tag stands under one name in a signature and under another in a catalog; all else
about a parameter is written alike.
-/

set_option autoImplicit false

namespace EventSheet

open Json (required? optional?)

namespace Kind

/-- A kind as a JSON value. -/
def toJson (k : Kind) : Json := .str k.name

/-- The kind that a JSON value names. -/
def ofJson? (v : Json) : Option Kind := v.caseName?.bind ofName?

end Kind

namespace OwnerSort

/-- The sort of owners that a JSON value names. -/
def ofJson? (v : Json) : Option OwnerSort := v.caseName?.bind ofName?

end OwnerSort

namespace Parameter

/-- A parameter as a JSON value, its tag under a given name. -/
def toJson (tagName : String) (p : Parameter) : Json :=
  .obj [(tagName, .str p.tag), ("name", .str p.name), ("description", .str p.description),
    ("optional", .bool p.isOptional), ("code_only", .bool p.isCodeOnly)]

/-- The parameter that a JSON value describes, its tag under a given name. -/
def ofJson? (tagName : String) (v : Json) : Option Parameter := do
  let members ← v.record? [tagName, "name", "description", "optional", "code_only"]
  let tag ← required? tagName Json.string? members
  let name ← optional? "name" "" Json.string? members
  let description ← optional? "description" "" Json.string? members
  let isOptional ← optional? "optional" false Json.bool? members
  let isCodeOnly ← optional? "code_only" false Json.bool? members
  pure ⟨tag, name, description, isOptional, isCodeOnly⟩

end Parameter

namespace Signature

/-- A signature as a JSON value. -/
def toJson (s : Signature) : Json :=
  .obj [("name", .str s.name), ("return_type", .str s.returnTag),
    ("parameters", .arr (s.parameters.map (Parameter.toJson "type_tag"))),
    ("required_capability", .ofOption .str s.requiredCapability),
    ("scope", .str s.ownerSort.name), ("description", .str s.description)]

/-- The signature that a JSON value describes. -/
def ofJson? (v : Json) : Option Signature := do
  let members ← v.record?
    ["name", "return_type", "parameters", "required_capability", "scope", "description"]
  let name ← required? "name" Json.string? members
  let returnTag ← required? "return_type" Json.string? members
  let parameters ← required? "parameters" (Json.list? (Parameter.ofJson? "type_tag")) members
  let capability ← optional? "required_capability" none (Json.nullable? Json.string?) members
  let ownerSort ← required? "scope" OwnerSort.ofJson? members
  let description ← optional? "description" "" Json.string? members
  pure ⟨name, returnTag, parameters, capability, ownerSort, description⟩

end Signature

end EventSheet
