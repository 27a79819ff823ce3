import EventSheet.Diagnostic
import EventSheet.Text.Position

/-!
Diagnostics as text beside the expression they are about.

The long form shows, for each diagnostic, the line of the expression it starts in with carets under
the part it covers. The compact form has one line for each diagnostic.
-/

set_option autoImplicit false

namespace EventSheet.Report

/-- Some copies of a character. -/
def copies (n : Nat) (c : Char) : String := String.ofList (List.replicate n c)

/-- The place where a diagnostic starts in an expression. -/
def place (source : List Char) (d : Diagnostic) : Text.Position :=
  .at source d.span.start.toNat

/-! ## The long form -/

/-- The number of carets under a line: the characters that the span covers on its first line, as far
as the line goes, and at least one. A span that cannot be cut out of the expression has one. -/
def caretCount (source : List Char) (span : Span) (column lineLength : Nat) : Nat :=
  let stop := min span.stop.toNat (Text.byteLength source)
  let covered :=
    match Text.slice? source span.start.toNat stop with
    | some part => (part.takeWhile (· ≠ '\n')).length
    | none => 0
  max 1 (min covered (lineLength - (column - 1)))

/-- The line that a diagnostic starts in, with carets under it. Nothing stands behind the last line
of an expression. -/
def excerpt (source : List Char) (d : Diagnostic) : String :=
  let p := place source d
  match (Text.lines source)[p.line - 1]? with
  | none => ""
  | some line =>
    let number := toString p.line
    let margin := copies number.length ' '
    let carets :=
      copies (p.column - 1) ' ' ++ copies (caretCount source d.span p.column line.length) '^'
    s!"{margin} |\n{number} | {String.ofList line}\n{margin} | {carets}\n"

/-- One diagnostic in the long form. -/
def renderOne (source : List Char) (d : Diagnostic) : String :=
  let p := place source d
  let notes := (Text.laterLines d.message).map fun line => s!"   = note: {line}\n"
  let helps := d.suggestions.map fun s => s!"   = help: {s.message} '{s.replacement}'\n"
  s!"error[{d.code.short}]: {Text.firstLine d.message}\n"
    ++ s!" --> expression:{p.line}:{p.column}\n"
    ++ excerpt source d
    ++ String.join notes ++ String.join helps

/-- Diagnostics in the long form, with their number at the end. -/
def render (source : String) (diagnostics : List Diagnostic) : String :=
  if diagnostics.isEmpty then ""
  else
    let count := diagnostics.length
    let plural := if count = 1 then "" else "s"
    String.join (diagnostics.map fun d => renderOne source.toList d ++ "\n")
      ++ s!"error: aborting due to {count} previous error{plural}\n"

/-! ## The compact form -/

/-- One diagnostic in the compact form, without a line end. -/
def compactOne (source : List Char) (d : Diagnostic) : String :=
  let p := place source d
  s!"{p.line}:{p.column}:error: {Text.firstLine d.message} [{d.code.short}]"

/-- Diagnostics in the compact form, with line ends between them. -/
def compact (source : String) (diagnostics : List Diagnostic) : String :=
  "\n".intercalate (diagnostics.map (compactOne source.toList))

end EventSheet.Report
