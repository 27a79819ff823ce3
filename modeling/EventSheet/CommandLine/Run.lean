import EventSheet.Catalog.Directory
import EventSheet.CommandLine.Output
import EventSheet.Input
import EventSheet.Scope.Loading

/-!
Running a command: what it writes and how it ends.

A command gives the text of its result and may still fail, as a check does that finds something
wrong. The error follows the result: within it as a JSON line, or on the stream for errors.
-/

set_option autoImplicit false

namespace EventSheet.CommandLine

/-! ## The surroundings -/

/-- What standard input holds. -/
inductive StandardInput where
  /-- Somebody sits at it. -/
  | terminal
  /-- A text, or why there is none. -/
  | piped (content : Except FileFault String)
deriving Inhabited

/-- What a command depends on beside its arguments. -/
structure Surroundings where
  /-- The environment. -/
  environment : Environment
  /-- The files. -/
  files : Files
  /-- Standard input. -/
  input : StandardInput
deriving Inhabited

/-- How the program ends. -/
structure Completion where
  /-- The exit status. -/
  status : Nat
  /-- The text on standard output. -/
  output : String
  /-- The text on the stream for errors. -/
  errors : String
deriving DecidableEq, Repr, Inhabited

/-! ## Reading what a command needs -/

/-- The directory of the catalog. -/
def directory (s : Surroundings) (catalog : Option String) : String :=
  match catalog with
  | some directory => directory
  | none => s.environment.directory s.files

/-- The registry of a directory. -/
def registry (s : Surroundings) (directory : String) : Except String Registry :=
  match (Catalog.load Yaml.format s.files directory).result with
  | .error e => .error e.fullMessage
  | .ok catalog =>
    match Registry.ofCatalog catalog with
    | .error e => .error e.message
    | .ok (r, _) => .ok r

/-- The expression tree of a file, or of standard input. -/
def tree (s : Surroundings) (path : Option String) : Except String Expr :=
  match path with
  | some path => (Expr.ofFile s.files path).mapError InputError.message
  | none =>
    match s.input with
    | .terminal =>
      .error "No input provided. Use --ast or pipe a JSON expression tree via stdin."
    | .piped (.error fault) => .error s!"Failed to read stdin: {fault.message}"
    | .piped (.ok text) => (Expr.ofText "<stdin>" text).mapError InputError.message

/-- The text of the expression, if a file is given. -/
def sourceText (s : Surroundings) (path : Option String) : Except String (Option String) :=
  match path with
  | some path => ((s.files.inputText path).map some).mapError InputError.message
  | none => .ok none

/-- The scope of a file, or the one beside the catalog if there is one. -/
def scope (s : Surroundings) (directory : String) (path : Option String) :
    Except String ProjectScope :=
  match path with
  | some path => (ProjectScope.loadFile s.files path).mapError LoadError.fullMessage
  | none =>
    if s.files.contains (ProjectScope.pathIn directory) then
      (ProjectScope.load s.files directory).mapError LoadError.fullMessage
    else .ok .empty

/-! ## Commands -/

/-- What a command writes, and its error if it fails. -/
structure Result where
  /-- The text of the result. -/
  text : String
  /-- The error. -/
  error : Option String
deriving DecidableEq, Repr, Inhabited

/-- A failure without a result. -/
def Result.ofExcept : Except String Result → Result
  | .ok r => r
  | .error e => ⟨"", some e⟩

/-- Checks an expression. -/
def runValidate (s : Surroundings) (format : OutputFormat) (directory : String) (r : Registry)
    (treePath sourcePath : Option String) (expected : String) (scopePath : Option String) :
    Except String Result := do
  let expected ← (ValueType.ofExpectedTag expected).mapError InputError.message
  let e ← tree s treePath
  let source ← sourceText s sourcePath
  let objects ← scope s directory scopePath
  let outcome := validate r objects.toScope expected e
  let error := if outcome.isValid then none else some "Validation failed"
  pure ⟨outcomeText format source outcome, error⟩

/-- Runs a command. -/
def runCommand (s : Surroundings) (invocation : Invocation) : Except String Result := do
  let directory := directory s invocation.catalog
  let r ← registry s directory
  let format := invocation.format
  match invocation.command with
  | .validate treePath sourcePath expected scopePath =>
    runValidate s format directory r treePath sourcePath expected scopePath
  | .functions owner kind =>
    pure ⟨functionsText format kind owner (r.functionsIn kind owner), none⟩
  | .objects => pure ⟨objectsText format r.platform r.objectTypes, none⟩

/-- How the program ends with a result. -/
def complete (format : OutputFormat) (r : Result) : Completion :=
  match r.error with
  | none => ⟨0, r.text, ""⟩
  | some e =>
    if format = .json then ⟨1, r.text ++ (Json.obj [("error", .str e)]).compress ++ "\n", ""⟩
    else ⟨1, r.text, s!"error: {e}\n"⟩

/-! ## The whole program -/

/-- The name of the program and its version. -/
def versionText : String := "expr_cli 0.1.0\n"

/-- How the program is used. -/
def usageText : String :=
  "Validate event-sheet expressions against the expression catalog\n\n"
    ++ "Usage: expr_cli [OPTIONS] <COMMAND>\n\n"
    ++ "Commands:\n"
    ++ "  validate   Validate a JSON expression tree\n"
    ++ "  functions  List registered functions of one scope\n"
    ++ "  objects    List object types and their capabilities\n\n"
    ++ "Options:\n"
    ++ "      --catalog <CATALOG>  Catalog directory (containing catalog/ or catalog.yaml)\n"
    ++ "  -o, --format <FORMAT>    Output format: json, text, or pretty (default)\n"
    ++ "  -h, --help               Print help\n"
    ++ "  -V, --version            Print version\n"

/-- How the program ends for a request. -/
def answer (s : Surroundings) : Request → Completion
  | .help => ⟨0, usageText, ""⟩
  | .version => ⟨0, versionText, ""⟩
  | .misuse => ⟨2, "", "error: the arguments make no sense\n\n" ++ usageText⟩
  | .run invocation =>
    complete invocation.format (Result.ofExcept (runCommand s invocation))

/-- How the program ends for arguments. -/
def run (s : Surroundings) (arguments : List String) : Completion :=
  answer s (parse s.environment.catalogDirectory arguments)

end EventSheet.CommandLine
