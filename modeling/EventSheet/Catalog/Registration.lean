import EventSheet.Catalog
import EventSheet.Registry.Registration

/-!
Building a registry from a catalog.

Everything is registered in three rounds over the extensions: all types, then all functions, then
all copies. So a function may belong to a type of another extension, and a copy may have its source
in any extension. Types without a name are the base types, which are registered already.
-/

set_option autoImplicit false

namespace EventSheet

/-! ## Types -/

/-- Registers a declared type of objects, unless it is the base type. -/
def Registry.addDeclaredObject (qualifier : String) (r : Registry)
    (e : String × ObjectDeclaration) : Except RegistryError Registry :=
  let type := qualifiedName qualifier e.1
  if type = "" then .ok r
  else r.addObject type e.2.description e.2.capabilities (some e.2.defaults)

/-- Registers the types that an extension declares. -/
def Registry.addTypes (r : Registry) (x : Extension) : Except RegistryError Registry := do
  let r ← x.objects.entries.foldlM (Registry.addDeclaredObject x.qualifier) r
  pure (x.behaviors.names.foldl (fun r n => r.addBehavior (qualifiedName x.qualifier n)) r)

/-! ## Functions -/

/-- The signature of a declared function. -/
def DeclaredGroup.signature (g : DeclaredGroup) (name : String) (f : FunctionDeclaration) :
    Signature :=
  ⟨qualifiedName g.qualifier name, f.returnTag, f.parameters, f.requiredCapability, g.owner.sort,
    f.description⟩

/-- The signatures of a group, each with its kind, in the order of registration. -/
def DeclaredGroup.signatures (g : DeclaredGroup) : List (Kind × Signature) :=
  g.functions.tables.entries.map fun e => (e.1, g.signature e.2.1 e.2.2)

/-- Registers the functions of a group. -/
def Registry.addDeclared (r : Registry) (g : DeclaredGroup) : Except RegistryError Registry :=
  g.signatures.foldlM (fun r e => r.addFunction g.owner e.1 e.2) r

/-! ## Copies -/

/-- Makes the copies that a group lists, with the warnings so far. -/
def Registry.addDuplicates (acc : Registry × List RegistryWarning) (g : DeclaredGroup) :
    Registry × List RegistryWarning :=
  g.functions.duplicates.foldl
    (fun acc d =>
      let (r, warnings) := acc.1.duplicateEntry g.owner d.kind
        (qualifiedName g.qualifier d.name) (qualifiedName g.qualifier d.source)
      (r, acc.2 ++ warnings))
    acc

/-! ## Catalogs -/

/-- The registry of a catalog, with warnings about copies that could not be made. -/
def Registry.ofCatalog (c : Catalog) : Except RegistryError (Registry × List RegistryWarning) := do
  let typed ← c.extensions.values.foldlM Registry.addTypes (Registry.empty c.platform)
  let filled ← c.groups.foldlM Registry.addDeclared typed
  pure (c.groups.foldl Registry.addDuplicates (filled, []))

end EventSheet
