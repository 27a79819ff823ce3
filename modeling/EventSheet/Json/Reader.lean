import EventSheet.Json.Basic
import EventSheet.Text.Position

/-!
Reading JSON text.

A reader takes the characters that are left and gives a value together with the characters behind
it. Where it cannot go on it stops with a fault and the place of the fault. A fault is one of two
kinds, and callers tell them apart: the text has ended inside a value (`Fault.ended`), or a
character stands where no JSON text has it (`Fault.malformed`).

Containers nest only to a given depth. Reading a value recurses on fuel; every step but the last one
uses up a character, so the length of the text is fuel enough.
-/

set_option autoImplicit false

namespace EventSheet.Json

/-! ## Faults -/

/-- What a text can end inside of. -/
inductive Part where
  | value
  | object
  | list
  | string
deriving DecidableEq, Repr

/-- How a text can leave the grammar. -/
inductive Misfit where
  | noValue
  | noWord
  | noNumber
  | numberOutOfRange
  | controlCharacter
  | badEscape
  | loneSurrogate
  | noKey
  | noColon
  | noCommaInObject
  | noCommaInList
  | trailingComma
  | trailingCharacters
  | tooDeep
deriving DecidableEq, Repr

/-- Why a text is not a JSON value. -/
inductive Fault where
  /-- The text ends inside something. -/
  | ended (inside : Part)
  /-- A character is out of place. -/
  | malformed (misfit : Misfit)
deriving DecidableEq, Repr

/-- A fault and the characters that are left where it shows. -/
structure Stop where
  /-- What is wrong. -/
  fault : Fault
  /-- The characters from the fault on. -/
  rest : List Char
deriving DecidableEq, Repr

/-- Stops because the text has ended. -/
def ended {α : Type} (inside : Part) : Except Stop α := .error ⟨.ended inside, []⟩

/-- Stops because of the next character. -/
def malformed {α : Type} (misfit : Misfit) (rest : List Char) : Except Stop α :=
  .error ⟨.malformed misfit, rest⟩

/-! ## Words and blanks -/

/-- The four blank characters of JSON. -/
def isBlank (c : Char) : Bool := c = ' ' || c = '\n' || c = '\t' || c = '\r'

/-- Passes over blanks. -/
def skipBlank (cs : List Char) : List Char := cs.dropWhile isBlank

/-- Reads the rest of a word whose first character is known. -/
def readWord (value : Json) : List Char → List Char → Except Stop (Json × List Char)
  | [], cs => .ok (value, cs)
  | _ :: _, [] => ended .value
  | w :: ws, c :: cs => if w = c then readWord value ws cs else malformed .noWord (c :: cs)

/-! ## Numbers -/

/-- The number that a row of decimal digits means. -/
def digitsValue (digits : List Char) : Nat :=
  digits.foldl (fun n c => 10 * n + (c.toNat - '0'.toNat)) 0

/-- At least one digit. -/
def readDigits (cs : List Char) : Except Stop (List Char × List Char) :=
  match cs with
  | [] => ended .value
  | c :: _ =>
    if c.isDigit then .ok (cs.takeWhile Char.isDigit, cs.dropWhile Char.isDigit)
    else malformed .noNumber cs

/-- The whole part of a number: a zero that stands alone, or digits that start with no zero. -/
def readWhole (cs : List Char) : Except Stop (List Char × List Char) :=
  match cs with
  | '0' :: c :: rest =>
    if c.isDigit then malformed .noNumber (c :: rest) else .ok (['0'], c :: rest)
  | _ => readDigits cs

/-- The part behind the point, empty without a point. -/
def readFraction : List Char → Except Stop (List Char × List Char)
  | '.' :: cs => readDigits cs
  | cs => .ok ([], cs)

/-- The exponent, absent without its letter. -/
def readExponent (cs : List Char) : Except Stop (Option Int × List Char) :=
  let signed (cs : List Char) : Except Stop (Option Int × List Char) :=
    match cs with
    | '-' :: cs => do
      let (digits, rest) ← readDigits cs
      pure (some (-(digitsValue digits : Int)), rest)
    | '+' :: cs => do
      let (digits, rest) ← readDigits cs
      pure (some (digitsValue digits : Int), rest)
    | cs => do
      let (digits, rest) ← readDigits cs
      pure (some (digitsValue digits : Int), rest)
  match cs with
  | 'e' :: cs => signed cs
  | 'E' :: cs => signed cs
  | cs => .ok (none, cs)

/-- The number of a sign, digits and an exponent. A whole number of 64 bits stays whole; a negative
zero does not, since no whole number keeps its sign. -/
def numberOf (negative : Bool) (whole fraction : List Char) (exponent : Option Int) : Number :=
  if fraction.isEmpty && exponent.isNone then
    let n := digitsValue whole
    if negative && n ≠ 0 && n ≤ UInt64.size / 2 then .integer (-(n : Int))
    else if !negative && n < UInt64.size then .integer n
    else .decimal negative n 0
  else
    .decimal negative (digitsValue (whole ++ fraction)) (exponent.getD 0 - fraction.length)

/-- Reads a number behind its sign. -/
def readUnsigned (negative : Bool) (cs : List Char) : Except Stop (Json × List Char) := do
  let (whole, cs) ← readWhole cs
  let (fraction, cs) ← readFraction cs
  let (exponent, cs) ← readExponent cs
  let n := numberOf negative whole fraction exponent
  if n.isOutOfRange then malformed .numberOutOfRange cs else pure (.num n, cs)

/-! ## Strings -/

/-- The value of a hexadecimal digit. -/
def hexDigit? (c : Char) : Option Nat :=
  if c.isDigit then some (c.toNat - '0'.toNat)
  else if 'a' ≤ c && c ≤ 'f' then some (c.toNat - 'a'.toNat + 10)
  else if 'A' ≤ c && c ≤ 'F' then some (c.toNat - 'A'.toNat + 10)
  else none

/-- The number that four hexadecimal digits mean. -/
def readHex (cs : List Char) : Except Stop (Nat × List Char) :=
  if Text.byteLength cs < 4 then ended .string
  else
    match cs with
    | a :: b :: c :: d :: rest =>
      match hexDigit? a, hexDigit? b, hexDigit? c, hexDigit? d with
      | some a, some b, some c, some d => .ok (4096 * a + 256 * b + 16 * c + d, rest)
      | _, _, _, _ => malformed .badEscape cs
    | _ => malformed .badEscape cs

/-- The character of an escape with four hexadecimal digits, read behind its `u`. One beyond the
sixteen-bit range is written as a pair of surrogates; a surrogate that stands alone is no
character. -/
def readUnicode (cs : List Char) : Except Stop (Char × List Char) := do
  let (first, cs) ← readHex cs
  if 0xDC00 ≤ first && first ≤ 0xDFFF then malformed .loneSurrogate cs
  else if 0xD800 ≤ first && first ≤ 0xDBFF then
    match cs with
    | [] => ended .string
    | '\\' :: [] => ended .string
    | '\\' :: 'u' :: rest => do
      let (second, rest) ← readHex rest
      if 0xDC00 ≤ second && second ≤ 0xDFFF then
        pure (Char.ofNat (0x10000 + (first - 0xD800) * 0x400 + (second - 0xDC00)), rest)
      else malformed .loneSurrogate rest
    | _ => malformed .loneSurrogate cs
  else pure (Char.ofNat first, cs)

/-- The character of an escape, read behind its backslash. -/
def readEscape (cs : List Char) : Except Stop (Char × List Char) :=
  match cs with
  | [] => ended .string
  | '"' :: rest => .ok ('"', rest)
  | '\\' :: rest => .ok ('\\', rest)
  | '/' :: rest => .ok ('/', rest)
  | 'b' :: rest => .ok ('\x08', rest)
  | 'f' :: rest => .ok ('\x0c', rest)
  | 'n' :: rest => .ok ('\n', rest)
  | 'r' :: rest => .ok ('\r', rest)
  | 't' :: rest => .ok ('\t', rest)
  | 'u' :: rest => readUnicode rest
  | _ => malformed .badEscape cs

/-- Reads a string behind its opening quote; `done` holds the characters so far, last first. -/
def readStringAfter (fuel : Nat) (done cs : List Char) : Except Stop (String × List Char) :=
  match fuel with
  | 0 => ended .string
  | fuel + 1 =>
    match cs with
    | [] => ended .string
    | '"' :: rest => .ok (String.ofList done.reverse, rest)
    | '\\' :: rest => do
      let (c, rest) ← readEscape rest
      readStringAfter fuel (c :: done) rest
    | c :: rest =>
      if c.toNat < 32 then malformed .controlCharacter (c :: rest)
      else readStringAfter fuel (c :: done) rest

/-- Reads a string behind its opening quote. -/
def readString (cs : List Char) : Except Stop (String × List Char) :=
  readStringAfter (cs.length + 1) [] cs

/-! ## Containers -/

/-- Reads up to the next member of an object, from behind the opening brace or the last member.
Gives the member's name, or nothing if the object is closed. -/
def readName (first : Bool) (cs : List Char) : Except Stop (Option String × List Char) :=
  let name (cs : List Char) : Except Stop (Option String × List Char) := do
    let (s, rest) ← readString cs
    pure (some s, rest)
  match skipBlank cs with
  | [] => ended .object
  | '}' :: rest => .ok (none, rest)
  | '"' :: rest => if first then name rest else malformed .noCommaInObject ('"' :: rest)
  | ',' :: rest =>
    if first then malformed .noKey (',' :: rest)
    else
      match skipBlank rest with
      | [] => ended .value
      | '"' :: rest => name rest
      | '}' :: rest => malformed .trailingComma ('}' :: rest)
      | rest => malformed .noKey rest
  | rest => malformed (if first then .noKey else .noCommaInObject) rest

/-- Reads the colon behind a member's name. -/
def readColon (cs : List Char) : Except Stop (List Char) :=
  match skipBlank cs with
  | [] => ended .object
  | ':' :: rest => .ok rest
  | rest => malformed .noColon rest

/-- Reads up to the next item of an array, from behind the opening bracket or the last item. Says
whether there is an item. -/
def readItemStart (first : Bool) (cs : List Char) : Except Stop (Bool × List Char) :=
  match skipBlank cs with
  | [] => ended .list
  | ']' :: rest => .ok (false, rest)
  | ',' :: rest =>
    if first then .ok (true, ',' :: rest)
    else
      match skipBlank rest with
      | [] => ended .value
      | ']' :: rest => malformed .trailingComma (']' :: rest)
      | rest => .ok (true, rest)
  | rest => if first then .ok (true, rest) else malformed .noCommaInList rest

mutual

/-- Reads a value; `depth` more levels of containers may follow. -/
def readValue (fuel depth : Nat) (cs : List Char) : Except Stop (Json × List Char) :=
  match fuel with
  | 0 => ended .value
  | fuel + 1 =>
    match skipBlank cs with
    | [] => ended .value
    | 'n' :: rest => readWord .null ['u', 'l', 'l'] rest
    | 't' :: rest => readWord (.bool true) ['r', 'u', 'e'] rest
    | 'f' :: rest => readWord (.bool false) ['a', 'l', 's', 'e'] rest
    | '"' :: rest => do
      let (s, rest) ← readString rest
      pure (.str s, rest)
    | '-' :: rest => readUnsigned true rest
    | '[' :: rest =>
      match depth with
      | 0 => malformed .tooDeep ('[' :: rest)
      | depth + 1 => do
        let (items, rest) ← readItems fuel depth true rest
        pure (.arr items, rest)
    | '{' :: rest =>
      match depth with
      | 0 => malformed .tooDeep ('{' :: rest)
      | depth + 1 => do
        let (members, rest) ← readMembers fuel depth true rest
        pure (.obj members, rest)
    | c :: rest =>
      if c.isDigit then readUnsigned false (c :: rest) else malformed .noValue (c :: rest)

/-- Reads the remaining items of an array. -/
def readItems (fuel depth : Nat) (first : Bool) (cs : List Char) :
    Except Stop (List Json × List Char) :=
  match fuel with
  | 0 => ended .list
  | fuel + 1 => do
    let (more, cs) ← readItemStart first cs
    if more then
      let (item, cs) ← readValue fuel depth cs
      let (items, cs) ← readItems fuel depth false cs
      pure (item :: items, cs)
    else pure ([], cs)

/-- Reads the remaining members of an object. -/
def readMembers (fuel depth : Nat) (first : Bool) (cs : List Char) :
    Except Stop (List (String × Json) × List Char) :=
  match fuel with
  | 0 => ended .object
  | fuel + 1 => do
    let (name, cs) ← readName first cs
    match name with
    | none => pure ([], cs)
    | some name =>
      let cs ← readColon cs
      let (value, cs) ← readValue fuel depth cs
      let (members, cs) ← readMembers fuel depth false cs
      pure ((name, value) :: members, cs)

end

/-! ## Whole texts -/

/-- The deepest nesting of containers in a text from outside. -/
def depthLimit : Nat := 127

/-- Accepts the end of a text, blanks aside. -/
def readEnd (cs : List Char) : Except Stop Unit :=
  match skipBlank cs with
  | [] => .ok ()
  | rest => malformed .trailingCharacters rest

/-- Reads a text that is one value with containers down to a depth. -/
def parseWithin (depth : Nat) (text : String) : Except Stop Json := do
  let cs := text.toList
  let (value, rest) ← readValue (cs.length + 1) depth cs
  readEnd rest
  pure value

/-- Reads a text that is one value. -/
def parse (text : String) : Except Stop Json := parseWithin depthLimit text

/-! ## Wording -/

/-- The wording of a fault. -/
def Fault.message : Fault → String
  | .ended .value => "EOF while parsing a value"
  | .ended .object => "EOF while parsing an object"
  | .ended .list => "EOF while parsing a list"
  | .ended .string => "EOF while parsing a string"
  | .malformed .noValue => "expected value"
  | .malformed .noWord => "expected ident"
  | .malformed .noNumber => "invalid number"
  | .malformed .numberOutOfRange => "number out of range"
  | .malformed .controlCharacter =>
    "control character (\\u0000-\\u001F) found while parsing a string"
  | .malformed .badEscape => "invalid escape"
  | .malformed .loneSurrogate => "lone leading surrogate in hex escape"
  | .malformed .noKey => "key must be a string"
  | .malformed .noColon => "expected `:`"
  | .malformed .noCommaInObject => "expected `,` or `\x7d`"
  | .malformed .noCommaInList => "expected `,` or `]`"
  | .malformed .trailingComma => "trailing comma"
  | .malformed .trailingCharacters => "trailing characters"
  | .malformed .tooDeep => "recursion limit exceeded"

/-- The line of a stop in the text that was read, and the number of bytes of that line up to and
with the character at the fault. -/
def Stop.place (stop : Stop) (text : String) : Nat × Nat :=
  let cs := text.toList
  let passed := cs.take (cs.length - stop.rest.length + 1)
  let behindBreak := (passed.reverse.takeWhile (· ≠ '\n')).reverse
  (passed.count '\n' + 1, Text.byteLength behindBreak)

/-- The wording of a stop, with its place. -/
def Stop.message (stop : Stop) (text : String) : String :=
  let (line, column) := stop.place text
  s!"{stop.fault.message} at line {line} column {column}"

end EventSheet.Json
