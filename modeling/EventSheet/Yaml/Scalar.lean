import EventSheet.Json.Reader

/-!
Scalars of YAML documents and the values that they stand for.

A quoted scalar is a string. A plain one may be a null, a truth value or a number by its spelling,
and is a string otherwise. A row of digits behind a leading zero is a string.
-/

set_option autoImplicit false

namespace EventSheet.Yaml

/-- A scalar as it was written. -/
structure Scalar where
  /-- Its text, escapes resolved. -/
  text : String
  /-- Whether it stood without quotes. -/
  isPlain : Bool
deriving DecidableEq, Repr, Inhabited

namespace Scalar

/-- The scalar of a place that is left empty. -/
def absent : Scalar := ⟨"", true⟩

/-- Whether a place is left empty. -/
def isAbsent (s : Scalar) : Bool := s.isPlain && s.text = ""

/-! ## Numbers -/

/-- The value of a row of digits in a base, at least one. -/
def natOf? (base : Nat) (cs : List Char) : Option Nat :=
  if cs.isEmpty then none
  else
    cs.foldlM (fun n c =>
      match Json.hexDigit? c with
      | some d => if d < base then some (base * n + d) else none
      | none => none) 0

/-- A row of digits behind a leading zero. -/
def isZeroLed (cs : List Char) : Bool :=
  match cs with
  | '0' :: rest => !rest.isEmpty && rest.all Char.isDigit
  | _ => false

/-- The natural number of a text without sign: in base 16, 8 or 2 behind a mark of the base, else in
base 10. -/
def unsigned? : List Char → Option Nat
  | '0' :: 'x' :: cs => natOf? 16 cs
  | '0' :: 'o' :: cs => natOf? 8 cs
  | '0' :: 'b' :: cs => natOf? 2 cs
  | cs => if isZeroLed cs then none else natOf? 10 cs

/-- The whole number of a text, if 64 bits hold it. -/
def integer? (cs : List Char) : Option Int :=
  match cs with
  | '-' :: cs =>
    (unsigned? cs).bind fun n => if n ≤ UInt64.size / 2 then some (-(n : Int)) else none
  | '+' :: cs => (unsigned? cs).bind fun n => if n < UInt64.size then some (n : Int) else none
  | cs => (unsigned? cs).bind fun n => if n < UInt64.size then some (n : Int) else none

/-- The exponent of a decimal: nothing, or its letter, a sign and digits. -/
def exponent? (cs : List Char) : Option Int :=
  let digits (cs : List Char) : Option Int := (natOf? 10 cs).map Int.ofNat
  match cs with
  | [] => some 0
  | e :: cs =>
    if e = 'e' || e = 'E' then
      match cs with
      | '-' :: cs => (digits cs).map fun n => -n
      | '+' :: cs => digits cs
      | cs => digits cs
    else none

/-- A decimal of a sign and a text without sign; digits on one side of the point are enough. -/
def unsignedDecimal? (negative : Bool) (cs : List Char) : Option Json.Number :=
  let whole := cs.takeWhile Char.isDigit
  let rest := cs.dropWhile Char.isDigit
  let fraction :=
    match rest with
    | '.' :: rest => rest.takeWhile Char.isDigit
    | _ => []
  let rest :=
    match rest with
    | '.' :: rest => rest.dropWhile Char.isDigit
    | rest => rest
  if whole.isEmpty && fraction.isEmpty then none
  else do
    let exponent ← exponent? rest
    let n := Json.Number.decimal negative (Json.digitsValue (whole ++ fraction))
      (exponent - fraction.length)
    if n.isOutOfRange then none else some n

/-- The decimal of a text. -/
def decimal? (cs : List Char) : Option Json.Number :=
  match cs with
  | '-' :: cs => if isZeroLed cs then none else unsignedDecimal? true cs
  | '+' :: cs => if isZeroLed cs then none else unsignedDecimal? false cs
  | cs => if isZeroLed cs then none else unsignedDecimal? false cs

/-! ## Values -/

/-- The spellings of numbers that JSON does not have. -/
def unwritableNumbers : List String :=
  [".inf", ".Inf", ".INF", "+.inf", "+.Inf", "+.INF", "-.inf", "-.Inf", "-.INF",
    ".nan", ".NaN", ".NAN"]

/-- The value of the text of a plain scalar. -/
def plainValue (text : String) : Json :=
  if text ∈ ["", "~", "null", "Null", "NULL"] then .null
  else if text ∈ ["true", "True", "TRUE"] then .bool true
  else if text ∈ ["false", "False", "FALSE"] then .bool false
  else
    match integer? text.toList with
    | some n => .num (.integer n)
    | none =>
      match decimal? text.toList with
      | some n => .num n
      | none => if text ∈ unwritableNumbers then .null else .str text

/-- The value of a scalar. -/
def value (s : Scalar) : Json := if s.isPlain then plainValue s.text else .str s.text

/-- The string that a scalar stands for. -/
def string? (s : Scalar) : Option String :=
  match s.value with
  | .str text => some text
  | _ => none

end Scalar

end EventSheet.Yaml
