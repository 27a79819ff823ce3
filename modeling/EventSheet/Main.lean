import EventSheet.CommandLine.Sources

/-!
The program: it brings in what a command may look at, runs the command and writes what comes of it.
-/

set_option autoImplicit false

namespace EventSheet.CommandLine

/-! ## Reading from the disk -/

/-- Why the system gives nothing. -/
def faultOf : IO.Error → FileFault
  | .noFileOrDirectory _ _ _ => .missing
  | .permissionDenied _ code details => .refused s!"{details} (os error {code})"
  | e => .refused (toString e)

/-- The text of bytes. -/
def textOf (bytes : ByteArray) : Except FileFault String :=
  match String.fromUTF8? bytes with
  | some text => .ok text
  | none => .error .notText

/-- The text of a file. -/
def readText (path : String) : IO (Except FileFault String) := do
  try
    return textOf (← IO.FS.readBinFile path)
  catch e => return .error (faultOf e)

/-- Whether a folder is at a path, or is what a link there leads to. -/
def isFolder (path : String) : IO Bool := (System.mkFilePath [path]).isDir

/-- A folder with all that is in it, or why it cannot be listed. An entry that leads nowhere is a file
without a text. The system hands a listing over as a whole, so one that breaks off is not told from
one that is refused; and it hands names over as texts, so that what has another name is not found. -/
partial def readFolder (path : String) : IO FileTree := do
  try
    let entries ← (System.mkFilePath [path]).readDir
    let trees ← entries.toList.mapM fun entry => do
      let inner := Path.join path entry.fileName
      let tree ← if ← isFolder inner then readFolder inner else .file <$> readText inner
      return (FileName.ofText entry.fileName, tree)
    return .branch .complete trees
  catch e => return .branch (.refused (faultOf e)) []

/-- What is at a path, if anything is; a folder without what is in it. -/
def readTree (path : String) : IO (Option FileTree) := do
  if ← isFolder path then return some .nothing
  else if ← (System.mkFilePath [path]).pathExists then return some (.file (← readText path))
  else return none

/-- Adds what is at a path. Where nothing is because the way leads through a file, that file is
added. -/
partial def addFile (files : Files) (path : String) : IO Files := do
  match ← readTree path with
  | some tree => return files.put path tree
  | none =>
    match Path.parent? path with
    | none => return files
    | some parent =>
      match ← readTree parent with
      | some (.branch _ _) => return files
      | _ => addFile files parent

/-- Adds a folder with all that is in it. -/
def addFolder (files : Files) (path : String) : IO Files := do
  if ← isFolder path then return files.put path (← readFolder path) else return files

/-- The files that a command may look at. -/
def readSources (sources : Sources) : IO Files := do
  let here ← IO.currentDir
  let files : Files := ⟨.nothing, Path.parts here.toString⟩
  let files ← sources.files.foldlM addFile files
  sources.folders.foldlM addFolder files

/-- All bytes that are left of a stream, behind those that were read. -/
partial def readAll (stream : IO.FS.Stream) (before : ByteArray) : IO ByteArray := do
  let bytes ← stream.read 65536
  if bytes.isEmpty then return before else readAll stream (before ++ bytes)

/-- What standard input holds; it is read only if a tree is to come from it. -/
def readInput (request : Request) : IO StandardInput := do
  match request with
  | .run ⟨_, _, .validate none _ _ _⟩ =>
    let input ← IO.getStdin
    if ← input.isTty then return .terminal
    else return .piped (textOf (← readAll input .empty))
  | _ => return .terminal

end EventSheet.CommandLine

open EventSheet EventSheet.CommandLine in
/-- Runs a command. -/
def main (arguments : List String) : IO UInt32 := do
  let environment : Environment :=
    ⟨← IO.getEnv "EXPR_CATALOG_DIR", ← IO.getEnv "CARGO_MANIFEST_DIR"⟩
  let request := parse environment.catalogDirectory arguments
  let files ← readSources (request.sources environment)
  let input ← readInput request
  let completion := answer ⟨environment, files, input⟩ request
  (← IO.getStdout).putStr completion.output
  (← IO.getStderr).putStr completion.errors
  return completion.status.toUInt32
