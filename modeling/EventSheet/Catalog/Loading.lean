import EventSheet.Files
import EventSheet.Signature

/-!
What happens while a catalog is loaded: warnings in order, and either a result or one error.

Warnings that were given before an error stay.
-/

set_option autoImplicit false

namespace EventSheet

/-- What loading warns about. -/
inductive LoadWarning where
  /-- A file declares an extension that an earlier file has declared. -/
  | redefined (extension path : String)
  /-- An expression says no return type. -/
  | noReturnType (label function : String)
  /-- A parameter has a tag of no category. -/
  | unrecognizedTag (kind : Kind) (label function tag : String)
deriving DecidableEq, Repr, Inhabited

namespace LoadWarning

/-- The wording of a warning. -/
def message : LoadWarning → String
  | .redefined extension path =>
    s!"Extension '{extension}' redefined in {path}, keeping the last definition"
  | .noReturnType label function =>
    s!"{label}::{function} declares no return type, its calls will infer 'unknown'"
  | .unrecognizedTag kind label function tag =>
    s!"{kind} {label}::{function} has parameter of unrecognized type '{tag}'"

end LoadWarning

/-- Why nothing is loaded. -/
inductive LoadError where
  /-- A folder cannot be listed. -/
  | unlistable (path : String) (fault : FileFault)
  /-- The listing of a folder breaks off. -/
  | brokenOff (fault : FileFault)
  /-- A file cannot be read. -/
  | unreadable (path : String) (fault : FileFault)
  /-- A file does not hold what it should. -/
  | unparsable (path : String)
  /-- The catalog is for no platform. -/
  | noPlatform
  /-- A copy lacks one of its names. -/
  | incompleteDuplicate (label : String)
deriving DecidableEq, Repr, Inhabited

namespace LoadError

/-- The wording of an error, without its cause. A listing that breaks off says its cause only. -/
def message : LoadError → String
  | .unlistable path _ => s!"Failed to read directory {path}"
  | .brokenOff fault => fault.message
  | .unreadable path _ => s!"Failed to read {path}"
  | .unparsable path => s!"Failed to parse {path}"
  | .noPlatform => "catalog does not declare a platform"
  | .incompleteDuplicate label => s!"{label}: duplicate entries need both 'name' and 'from'"

/-- The wording of an error with its cause. -/
def fullMessage (e : LoadError) : String :=
  match e with
  | .unlistable _ fault => s!"{e.message}: {fault.message}"
  | .unreadable _ fault => s!"{e.message}: {fault.message}"
  | .unparsable _ => s!"{e.message}: the file does not hold what is read from it"
  | _ => e.message

end LoadError

/-- Warnings in order, and a result or an error. -/
structure Loading (α : Type) where
  /-- The warnings. -/
  warnings : List LoadWarning
  /-- The result. -/
  result : Except LoadError α

namespace Loading

variable {α β : Type}

/-- A result without warnings. -/
def succeed (a : α) : Loading α := ⟨[], .ok a⟩

/-- An error without warnings. -/
def fail (e : LoadError) : Loading α := ⟨[], .error e⟩

/-- Warnings and nothing else. -/
def warn (warnings : List LoadWarning) : Loading Unit := ⟨warnings, .ok ()⟩

/-- Goes on from a result. -/
def andThen (x : Loading α) (f : α → Loading β) : Loading β :=
  match x.result with
  | .error e => ⟨x.warnings, .error e⟩
  | .ok a => ⟨x.warnings ++ (f a).warnings, (f a).result⟩

instance : Monad Loading where
  pure := succeed
  bind := andThen

/-- A result that may be an error, without warnings. -/
def ofExcept (r : Except LoadError α) : Loading α := ⟨[], r⟩

end Loading

end EventSheet
