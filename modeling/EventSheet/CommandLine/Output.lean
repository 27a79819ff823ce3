import EventSheet.Check.Json
import EventSheet.CommandLine.Arguments
import EventSheet.Json.Printer
import EventSheet.Registry.Listing
import EventSheet.Report

/-!
The results of commands as text, in each format.

JSON results are indented documents. The other two formats are for people; the longer one of them
adds descriptions and shows expressions.
-/

set_option autoImplicit false

namespace EventSheet.CommandLine

/-! ## Outcomes of checks -/

/-- A diagnostic in the JSON result of a check. -/
def diagnosticJson (d : Diagnostic) : Json :=
  .obj [("code", .str d.code.short), ("kind", .str d.code.group), ("message", .str d.message),
    ("start", .ofOffset d.span.start), ("end", .ofOffset d.span.stop),
    ("suggestions", .ofStrings (d.suggestions.map Suggestion.replacement))]

/-- An outcome as the JSON result of a check, its members in name order. -/
def outcomeJson (o : Outcome) : Json :=
  (Json.obj [("valid", .bool o.isValid), ("inferred_type", .str o.inferredType.name),
    ("diagnostics", .arr (o.diagnostics.map diagnosticJson)),
    ("object_variables", .arr (o.objectVariables.map ObjectVariable.toJson))]).normalized

/-- A diagnostic on one line, its place by offsets. -/
def plainLine (d : Diagnostic) : String :=
  s!"{d.span}:error: {Text.firstLine d.message} [{d.code.short}]\n"

/-- A diagnostic with all of its message and its suggestions, its place by offsets. -/
def plainDiagnostic (d : Diagnostic) : String :=
  let helps := d.suggestions.map fun s => s!"   = help: {s.message} '{s.replacement}'\n"
  s!"error[{d.code.short}]: {d.message} (at {d.span})\n" ++ String.join helps

/-- An outcome in a format, beside the text of the expression if it is given. -/
def outcomeText (format : OutputFormat) (source : Option String) (o : Outcome) : String :=
  match format with
  | .json => (outcomeJson o).indented ++ "\n"
  | .text =>
    match source with
    | some source => if o.isValid then "" else Report.compact source o.diagnostics ++ "\n"
    | none => String.join (o.diagnostics.map plainLine)
  | .pretty =>
    if o.isValid then s!"OK Expression is valid (type: {o.inferredType})\n"
    else
      match source with
      | some source => Report.render source o.diagnostics
      | none => String.join (o.diagnostics.map plainDiagnostic)

/-! ## Lists -/

/-- A line of a list, with a description below it in the longer format. -/
def entryText (format : OutputFormat) (line description : String) : String :=
  let below :=
    if format = .pretty && description ≠ "" then s!"    {description}\n" else ""
  s!"  {line}\n" ++ below

/-- The functions of an owner in a format. -/
def functionsText (format : OutputFormat) (kind : Kind) (owner : Owner)
    (functions : List Signature) : String :=
  match format with
  | .json => (Json.arr (functions.map Signature.toJson)).indented ++ "\n"
  | _ =>
    s!"{kind} functions of {owner.describe}\n\n"
      ++ String.join (functions.map fun f => entryText format f.listed f.description)

/-- The types of objects of a platform in a format. -/
def objectsText (format : OutputFormat) (platform : String) (types : List ObjectType) : String :=
  match format with
  | .json => (Json.arr (types.map ObjectType.toJson)).indented ++ "\n"
  | _ =>
    s!"Object types ({platform})\n"
      ++ String.join (types.map fun t => entryText format t.listed t.description)

end EventSheet.CommandLine
