import EventSheet.Check
import EventSheet.Json.Decode

/-!
Diagnostics and outcomes of checks as JSON values.

A code is a string, or an object that holds a mismatch under the code's name. Suggestions are left
out where there are none. A confidence is read as a number and written as text with six places: a
finite binary float is a whole number of powers of two, so its decimal value is exact and only the
cut to the wanted places rounds. The cut goes to the nearest decimal, a half to the even neighbour.
-/

set_option autoImplicit false

namespace EventSheet

open Json (required? optional?)

/-! ## Decimal text -/

namespace Decimal

/-- A quotient rounded to the nearest whole number, a half to the even neighbour. -/
def roundHalfEven (num den : Nat) : Nat :=
  let low := num / den
  let rest := num % den
  if 2 * rest < den then low
  else if den < 2 * rest then low + 1
  else if low % 2 = 0 then low else low + 1

/-- A whole number of `places`-th decimal parts, written with a point. -/
def withPoint (places units : Nat) : String :=
  let digits := (toString units).toList
  let padded := List.replicate (places + 1 - digits.length) '0' ++ digits
  let whole := padded.take (padded.length - places)
  String.ofList (whole ++ '.' :: padded.drop (padded.length - places))

/-- A single-precision float with a fixed number of decimal places. -/
def fixed (places : Nat) (x : Float32) : String :=
  let bits := x.toBits.toNat
  let sign := if bits / Nat.pow 2 31 = 1 then "-" else ""
  let exponent := bits / Nat.pow 2 23 % 256
  let fraction := bits % Nat.pow 2 23
  if exponent = 255 then
    if fraction = 0 then sign ++ "inf" else "NaN"
  else
    -- the value is `significand * 2 ^ scale / 2 ^ 149`
    let significand := if exponent = 0 then fraction else fraction + Nat.pow 2 23
    let scale := exponent - 1
    sign ++ withPoint places
      (roundHalfEven (significand * Nat.pow 2 scale * Nat.pow 10 places) (Nat.pow 2 149))

end Decimal

/-! ## Diagnostics -/

namespace Mismatch

/-- The mismatch that a JSON value names. -/
def ofJson? (v : Json) : Option Mismatch := v.caseName?.bind ofName?

end Mismatch

namespace Code

/-- A code as a JSON value. -/
def toJson (c : Code) : Json :=
  match c with
  | .returnTypeMismatch mismatch => .obj [(c.name, .str mismatch.name)]
  | _ => .str c.name

/-- The code that a JSON value names. -/
def ofJson? : Json → Option Code
  | .obj [("return_type_mismatch", v)] => (Mismatch.ofJson? v).map .returnTypeMismatch
  | v => v.caseName?.bind ofName?

end Code

namespace Suggestion

/-- A suggestion as a JSON value. -/
def toJson (s : Suggestion) : Json :=
  .obj [("message", .str s.message), ("replacement", .str s.replacement),
    ("confidence", .str (Decimal.fixed 6 s.confidence))]

/-- A number of single precision. -/
def confidence? : Json → Option Float32
  | .num n => some n.toFloat.toFloat32
  | _ => none

/-- The suggestion that a JSON value describes. -/
def ofJson? (v : Json) : Option Suggestion := do
  let members ← v.record? ["message", "replacement", "confidence"]
  let message ← required? "message" Json.string? members
  let replacement ← required? "replacement" Json.string? members
  let confidence ← required? "confidence" confidence? members
  pure ⟨message, replacement, confidence⟩

end Suggestion

namespace Diagnostic

/-- A diagnostic as a JSON value. -/
def toJson (d : Diagnostic) : Json :=
  let suggestions :=
    if d.suggestions.isEmpty then []
    else [("suggestions", Json.arr (d.suggestions.map Suggestion.toJson))]
  .obj ([("code", d.code.toJson), ("message", .str d.message), ("span", d.span.toJson)]
    ++ suggestions)

/-- The diagnostic that a JSON value describes. -/
def ofJson? (v : Json) : Option Diagnostic := do
  let members ← v.record? ["code", "message", "span", "suggestions"]
  let code ← required? "code" Code.ofJson? members
  let message ← required? "message" Json.string? members
  let span ← required? "span" Span.ofJson? members
  let suggestions ← optional? "suggestions" [] (Json.list? Suggestion.ofJson?) members
  pure ⟨code, message, span, suggestions⟩

end Diagnostic

/-! ## Outcomes -/

/-- A variable written for an object as a JSON value. -/
def ObjectVariable.toJson (v : ObjectVariable) : Json :=
  .obj [("object_name", .str v.objectName), ("variable_name", .str v.variableName),
    ("span", v.span.toJson)]

/-- An outcome as a JSON value; variables are left out where there are none. -/
def Outcome.toJson (o : Outcome) : Json :=
  let written :=
    if o.objectVariables.isEmpty then []
    else [("object_variables", Json.arr (o.objectVariables.map ObjectVariable.toJson))]
  .obj ([("diagnostics", .arr (o.diagnostics.map Diagnostic.toJson)),
    ("inferred_type", .str o.inferredType.name)] ++ written)

end EventSheet
