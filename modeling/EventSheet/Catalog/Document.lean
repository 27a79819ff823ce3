import EventSheet.Catalog.Json
import EventSheet.Yaml.Shape

/-!
Catalogs as documents.

How a text is read is a parameter of what works on files (`Format`); the documents at hand are YAML
(`Yaml.format`).
-/

set_option autoImplicit false

namespace EventSheet

/-! ## Formats -/

/-- What is said about a whole catalog beside its extensions. -/
structure CatalogMeta where
  /-- The platform, if it is said. -/
  platform? : Option String
  /-- The version, if it is said. -/
  version? : Option String
deriving DecidableEq, Repr, Inhabited

/-- How texts are read. -/
structure Format where
  /-- Reads a catalog. -/
  catalog? : String → Option Catalog
  /-- Reads what is said about a catalog. -/
  meta? : String → Option CatalogMeta

namespace Yaml

/-- The members of a group of functions. -/
def groupFields : List (String × Shape) :=
  [("expressions", .resolved), ("actions", .resolved), ("conditions", .resolved),
    ("duplicates", .resolved)]

/-- The shape of a declared type of objects. -/
def objectShape : Shape :=
  .record ([("description", .text), ("capabilities", .list .text), ("defaults", .table .value)]
    ++ groupFields)

/-- The shape of a declared type of behaviors. -/
def behaviorShape : Shape := .record (("description", .text) :: groupFields)

/-- The shape of an extension. -/
def extensionShape : Shape :=
  .record ([("namespace", .text), ("description", .text), ("objects", .table objectShape),
    ("behaviors", .table behaviorShape)] ++ groupFields)

/-- The shape of a catalog. -/
def catalogShape : Shape :=
  .record [("platform", .text), ("version", .text), ("extensions", .table extensionShape)]

/-- The catalog that a document declares. -/
def catalog? (text : String) : Option Catalog :=
  (readAs catalogShape text).bind Catalog.ofJson?

/-- What a document says about a catalog. A document that repeats a key says nothing. -/
def meta? (text : String) : Option CatalogMeta := do
  let node ← Node.parse? text
  if node.repeatsKey then none
  else some ⟨node.stringAt? "platform", node.stringAt? "version"⟩

/-- The format of YAML documents. -/
def format : Format := ⟨catalog?, meta?⟩

end Yaml

end EventSheet
