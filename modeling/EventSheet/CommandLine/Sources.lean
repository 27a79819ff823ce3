import EventSheet.CommandLine.Run

/-!
What a command may look at on a disk.

A command sees files only through `Files`. So the program can bring in beforehand what the command
may ask for, and nothing else has to be read.
-/

set_option autoImplicit false

namespace EventSheet.CommandLine

/-- Places on a disk. -/
structure Sources where
  /-- Places of single files. -/
  files : List String
  /-- Folders of which every file counts. -/
  folders : List String
deriving DecidableEq, Repr, Inhabited

namespace Sources

/-- No places. -/
def none : Sources := ⟨[], []⟩

/-- What belongs to the directory of a catalog. -/
def ofDirectory (directory : String) : Sources :=
  ⟨[Path.join directory "catalog.yaml", ProjectScope.pathIn directory],
    [Path.join directory "catalog"]⟩

/-- The places of both. -/
def append (a b : Sources) : Sources := ⟨a.files ++ b.files, a.folders ++ b.folders⟩

end Sources

/-- The files that a command names. -/
def Command.files : Command → List String
  | .validate tree source _ scope => [tree, source, scope].filterMap id
  | .functions _ _ => []
  | .objects => []

/-- The directories that a request may take its catalog from. -/
def Invocation.directories (environment : Environment) (invocation : Invocation) : List String :=
  match invocation.catalog.or environment.catalogDirectory with
  | some directory => [directory]
  | none => environment.candidates

/-- What a request may look at. -/
def Request.sources (environment : Environment) : Request → Sources
  | .run invocation =>
    (invocation.directories environment).foldl
      (fun sources directory => sources.append (.ofDirectory directory))
      ⟨invocation.command.files, []⟩
  | _ => .none

end EventSheet.CommandLine
