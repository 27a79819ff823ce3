import EventSheet.Expr.Reader
import EventSheet.Files
import EventSheet.ValueType

/-!
What people and tools hand over: expression trees as text or in a file, and the type that they
expect.

A tree says where it comes from, so that an error can name the place. A tag that names no type is
refused here, where a mistake would otherwise pass for the type `unknown`.
-/

set_option autoImplicit false

namespace EventSheet

/-! ## Errors -/

/-- Why an input is refused. -/
inductive InputError where
  /-- A file cannot be read. -/
  | unreadable (path : String) (fault : FileFault)
  /-- A text is no expression tree. -/
  | noTree (origin text : String) (fault : Expr.ReadFault)
  /-- A tag names no type. -/
  | unknownType (tag : String)
deriving DecidableEq, Repr

namespace InputError

/-- The wording of an error up to the reader's own words about a text. -/
def lead : InputError → String
  | .unreadable path fault => s!"Failed to read '{path}': {fault.message}"
  | .noTree origin _ _ => s!"Invalid expression tree in '{origin}': "
  | .unknownType tag =>
    s!"Unknown expected type '{tag}'. "
      ++ "Use: number, string, number|string, variable, object, empty, unknown"

/-- The wording of an error. -/
def message (e : InputError) : String :=
  match e with
  | .noTree _ text fault => e.lead ++ fault.message text
  | _ => e.lead

end InputError

/-! ## Reading -/

/-- The text of the file at a path. -/
def Files.inputText (fs : Files) (path : String) : Except InputError String :=
  (fs.read path).mapError (.unreadable path)

namespace Expr

/-- The expression tree of a text that comes from somewhere. -/
def ofText (origin text : String) : Except InputError Expr :=
  (parse text).mapError (.noTree origin text)

/-- The expression tree of the file at a path. -/
def ofFile (fs : Files) (path : String) : Except InputError Expr :=
  (fs.inputText path).bind (ofText path)

end Expr

/-- The type that a tag says is expected. -/
def ValueType.ofExpectedTag (tag : String) : Except InputError ValueType :=
  match ofExpectedTag? tag with
  | some t => .ok t
  | none => .error (.unknownType tag)

end EventSheet
