import EventSheet.Catalog.Audit
import EventSheet.Catalog.Document
import EventSheet.Sorting

/-!
Loading catalogs from files.

A catalog is one file, or a folder of files that are merged. The files of a folder are taken in the
order of the names that lead to them, so the order in which folders list their entries matters only
where one of them cannot be listed: the first such fault on the way ends the loading. Of an extension
that several files declare the last declaration stays, as a whole. A file whose name starts with an
underscore declares nothing; one of them, `_meta.yaml`, says the platform and the version.
-/

set_option autoImplicit false

namespace EventSheet

/-! ## Files of a split catalog -/

/-- A file of a folder: the names that lead to it, and its text or why it has none. -/
abbrev ListedFile := List FileName × Except FileFault String

namespace ListedFile

/-- The name of a file, empty if it is no text. -/
def name (f : ListedFile) : String := (f.1.getLast?.bind FileName.text?).getD ""

/-- Whether a file is a YAML document by its name. -/
def isDocument (f : ListedFile) : Bool :=
  match f.1.getLast?.bind FileName.extension? with
  | some e => e = .ofText "yaml" || e = .ofText "yml"
  | none => false

/-- The path of a file below a folder, as it is shown. -/
def path (folder : String) (f : ListedFile) : String :=
  (f.1.map FileName.shown).foldl Path.join folder

/-- The documents among files, in the order of the names that lead to them. -/
def documents (files : List ListedFile) : List ListedFile :=
  Sorting.sortBy (fun a b => Path.notAfter a.1 b.1) (files.filter isDocument)

/-- The text of a file below a folder. -/
def read (folder : String) (f : ListedFile) : Except LoadError String :=
  f.2.mapError (.unreadable (path folder f))

end ListedFile

/-- The number of entries that a listing reaches of a folder. -/
def Listing.reach (listing : Listing) (entries : List (FileName × FileTree)) : Nat :=
  match listing with
  | .complete => entries.length
  | .refused _ => 0
  | .brokenOff count _ => count

/-- The error in which a listing of a folder ends, if it does not come to its end. -/
def Listing.error? (path : String) : Listing → Option LoadError
  | .complete => none
  | .refused fault => some (.unlistable path fault)
  | .brokenOff _ fault => some (.brokenOff fault)

namespace FileTree

mutual

/-- All files below a tree at a path, in the order of the listings. A folder is gone through as it
is listed, and the first listing that does not come to its end ends the walk. -/
def walk (path : String) : FileTree → Except LoadError (List ListedFile)
  | .file content => .ok [([], content)]
  | .branch listing entries => do
    let files ← walkEntries path (listing.reach entries) entries
    match listing.error? path with
    | some e => .error e
    | none => .ok files

/-- All files below the first `n` entries of a folder at a path. -/
def walkEntries (path : String) (n : Nat) :
    List (FileName × FileTree) → Except LoadError (List ListedFile)
  | [] => .ok []
  | (name, tree) :: entries =>
    match n with
    | 0 => .ok []
    | n + 1 => do
      let inner ← walk (Path.join path name.shown) tree
      let others ← walkEntries path n entries
      .ok (inner.map (fun f => (name :: f.1, f.2)) ++ others)

end

/-- The documents below a tree at a path, in the order of the names that lead to them. -/
def listDocuments (path : String) (tree : FileTree) : Except LoadError (List ListedFile) :=
  (tree.walk path).map ListedFile.documents

end FileTree

/-! ## Merging -/

namespace Catalog

/-- Adds what is said about the whole catalog. -/
def withMeta (c : Catalog) (m : CatalogMeta) : Catalog :=
  { c with platform := m.platform?.getD c.platform, version := m.version?.getD c.version }

/-- Adds what a file declares. The platform counts if there is none yet, an extension takes the
place of one of its name, and the version does not count. -/
def withPart (c part : Catalog) : Catalog :=
  { c with
    platform := if c.platform = "" then part.platform else c.platform
    extensions := c.extensions.insertMany part.extensions.entries }

/-- Warnings about extensions that a file declares again. -/
def redefinitions (c part : Catalog) (path : String) : List LoadWarning :=
  (part.extensions.names.filter c.extensions.contains).map fun n => .redefined n path

/-- Adds a file to a catalog. -/
def absorb (format : Format) (folder : String) (c : Catalog) (f : ListedFile) :
    Loading Catalog :=
  let path := f.path folder
  if f.name = "_meta.yaml" then
    (Loading.ofExcept (f.read folder)).andThen fun text =>
      match format.meta? text with
      | some m => .succeed (c.withMeta m)
      | none => .fail (.unparsable path)
  else if f.name.toList.head? = some '_' then .succeed c
  else
    (Loading.ofExcept (f.read folder)).andThen fun text =>
      match format.catalog? text with
      | some part => ⟨c.redefinitions part path, .ok (c.withPart part)⟩
      | none => .fail (.unparsable path)

/-- Adds files to a catalog, in order. -/
def absorbAll (format : Format) (folder : String) (c : Catalog) :
    List ListedFile → Loading Catalog
  | [] => .succeed c
  | f :: fs => (c.absorb format folder f).andThen fun c => absorbAll format folder c fs

/-! ## Loading -/

/-- A catalog, once it is checked. -/
def audited (c : Catalog) : Loading Catalog := c.audit.andThen fun _ => .succeed c

/-- Loads the catalog of a folder's documents. -/
def loadSplit (format : Format) (folder : String) (tree : FileTree) : Loading Catalog :=
  (Loading.ofExcept (tree.listDocuments folder)).andThen fun docs =>
    (absorbAll format folder .empty docs).andThen audited

/-- Loads the catalog of one file. -/
def loadSingle (format : Format) (fs : Files) (path : String) : Loading Catalog :=
  match fs.read path with
  | .error fault => .fail (.unreadable path fault)
  | .ok text =>
    match format.catalog? text with
    | some c => c.audited
    | none => .fail (.unparsable path)

/-- Loads the catalog of a directory: its folder `catalog`, or without that its file
`catalog.yaml`. -/
def load (format : Format) (fs : Files) (directory : String) : Loading Catalog :=
  let folder := Path.join directory "catalog"
  match fs.find folder with
  | .ok (.branch listing entries) => loadSplit format folder (.branch listing entries)
  | _ => loadSingle format fs (Path.join directory "catalog.yaml")

end Catalog

end EventSheet
