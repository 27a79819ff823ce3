import EventSheet.Catalog.Library
import EventSheet.Catalog.Registration

/-!
The directory of the catalog where no other one is named.

The environment may name it. Without that it is the folder `config` where the program runs, or in a
directory above a named one, whichever holds a catalog.
-/

set_option autoImplicit false

namespace EventSheet

/-! ## Finding the directory -/

/-- The variables of the environment that say where a catalog is. -/
structure Environment where
  /-- The directory of the catalog. -/
  catalogDirectory : Option String
  /-- A directory in or below the one that holds the catalog's. -/
  manifestDirectory : Option String
deriving DecidableEq, Repr, Inhabited

namespace Environment

/-- The directory of the catalog if nothing says otherwise. -/
def defaultDirectory : String := "config"

/-- Whether a directory holds a catalog. -/
def hasCatalog (fs : Files) (directory : String) : Bool :=
  fs.isFolder (Path.join directory "catalog") || fs.isFile (Path.join directory "catalog.yaml")

/-- A path and those that it lies in, the nearest first, at most `n` of them. -/
def ancestors : Nat → String → List String
  | 0, _ => []
  | n + 1, path =>
    match Path.parent? path with
    | some parent => path :: ancestors n parent
    | none => [path]

/-- How many directories are searched, the named one included. -/
def searchDepth : Nat := 5

/-- The directories that are searched, in order. -/
def candidates (env : Environment) : List String :=
  let named :=
    match env.manifestDirectory with
    | some directory => ancestors searchDepth directory
    | none => []
  defaultDirectory :: named.map fun directory => Path.join directory defaultDirectory

/-- The directory of the catalog: the one that is named, or the first that holds a catalog. -/
def directory (env : Environment) (fs : Files) : String :=
  match env.catalogDirectory with
  | some directory => directory
  | none => (env.candidates.find? (hasCatalog fs)).getD defaultDirectory

/-! ## The registry of the directory -/

/-- The registry of the directory's catalog. A catalog that cannot be loaded or registered leaves it
empty, so that expressions can still be checked. -/
def registry (env : Environment) (fs : Files) : Registry :=
  match (Catalog.load Yaml.format fs (env.directory fs)).result with
  | .error _ => .empty ""
  | .ok catalog =>
    match Registry.ofCatalog catalog with
    | .error _ => .empty ""
    | .ok (r, _) => r

end Environment

end EventSheet
