import EventSheet.Json.Basic
import EventSheet.Signature

/-!
Catalogs: declarations from which a registry is built.

A catalog is for one platform and consists of extensions. An extension declares functions of its
own, types of objects with functions and types of behaviors with functions, and puts its qualifier
before every name it declares. Beside its tables, a group of functions may list copies of functions
under new names.
-/

set_option autoImplicit false

namespace EventSheet

/-! ## Declarations -/

/-- A declared function. -/
structure FunctionDeclaration where
  /-- Its description, empty without one. -/
  description : String
  /-- The tag of the type of its value, empty if it has none. -/
  returnTag : String
  /-- Its parameters, those of the receivers first. -/
  parameters : List Parameter
  /-- The capability that the object has to have. -/
  requiredCapability : Option String
deriving DecidableEq, Repr, Inhabited

/-- A function to be copied under another name; both names are without qualifier. -/
structure Duplicate where
  /-- The kind of the function. -/
  kind : Kind
  /-- The name of the copy. -/
  name : String
  /-- The name of the function that is copied. -/
  source : String
deriving DecidableEq, Repr, Inhabited

/-- The functions that are declared for one owner. -/
structure FunctionGroup where
  /-- The functions, by kind and name. -/
  tables : ByKind FunctionDeclaration
  /-- The copies to be made once all tables are filled, in order. -/
  duplicates : List Duplicate
deriving DecidableEq, Inhabited

/-- A group without functions. -/
def FunctionGroup.empty : FunctionGroup := ⟨.empty, []⟩

/-- A declared type of objects. -/
structure ObjectDeclaration where
  /-- Its description, empty without one. -/
  description : String
  /-- What its objects are capable of. -/
  capabilities : List String
  /-- The properties of a new object. -/
  defaults : NameMap Json
  /-- The functions of its objects. -/
  functions : FunctionGroup
deriving DecidableEq, Inhabited

/-- A declared type of behaviors. -/
structure BehaviorDeclaration where
  /-- Its description, empty without one. -/
  description : String
  /-- The functions of its behaviors. -/
  functions : FunctionGroup
deriving DecidableEq, Inhabited

/-- A part of a catalog. -/
structure Extension where
  /-- What stands before every name that the extension declares, empty if nothing does. -/
  qualifier : String
  /-- Its description, empty without one. -/
  description : String
  /-- The functions without a receiver. -/
  functions : FunctionGroup
  /-- The types of objects, by name without qualifier. -/
  objects : NameMap ObjectDeclaration
  /-- The types of behaviors, by name without qualifier. -/
  behaviors : NameMap BehaviorDeclaration
deriving DecidableEq, Inhabited

/-- The declarations of a platform. -/
structure Catalog where
  /-- The platform. -/
  platform : String
  /-- The version of the catalog. -/
  version : String
  /-- The extensions, by name. -/
  extensions : NameMap Extension
deriving DecidableEq, Inhabited

/-! ## Groups -/

/-- A group of functions with its owner, as an extension declares it. -/
structure DeclaredGroup where
  /-- How messages name the place of the declaration. -/
  label : String
  /-- The owner of the functions. -/
  owner : Owner
  /-- The qualifier of the extension. -/
  qualifier : String
  /-- The functions. -/
  functions : FunctionGroup
deriving Inhabited

/-- The groups of an extension: its own, those of its objects, those of its behaviors. -/
def Extension.groups (name : String) (x : Extension) : List DeclaredGroup :=
  ⟨name, .global, x.qualifier, x.functions⟩ ::
    (x.objects.entries.map fun e =>
      ⟨name ++ "." ++ e.1, .object (qualifiedName x.qualifier e.1), x.qualifier, e.2.functions⟩)
    ++ x.behaviors.entries.map fun e =>
      ⟨name ++ "." ++ e.1, .behavior (qualifiedName x.qualifier e.1), x.qualifier, e.2.functions⟩

namespace Catalog

/-- The version of a catalog that does not say one. -/
def defaultVersion : String := "1.0"

/-- The catalog that declares nothing. -/
def empty : Catalog := ⟨"", defaultVersion, .empty⟩

/-- The groups of all extensions, in the order of the extensions' names. -/
def groups (c : Catalog) : List DeclaredGroup :=
  c.extensions.entries.flatMap fun e => e.2.groups e.1

/-- The number of declared functions, copies not counted. -/
def functionCount (c : Catalog) : Nat :=
  (c.groups.map fun g => g.functions.tables.size).foldr (· + ·) 0

end Catalog

end EventSheet
