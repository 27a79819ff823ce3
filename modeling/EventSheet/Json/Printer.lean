import EventSheet.Json.Basic

/-!
Writing JSON text, on one line or indented.

Strings escape the quote, the backslash and the control characters, and nothing else. The indented
form puts every member and item on a line of its own, two columns deeper than its container, and
leaves an empty container closed up.
-/

set_option autoImplicit false

namespace EventSheet.Json

/-- A digit of a hexadecimal number, in lower case. -/
def hexCharacter (n : Nat) : Char := if n < 10 then Char.ofNat (48 + n) else Char.ofNat (87 + n)

/-- A character as it stands between the quotes of a string. -/
def escape (c : Char) : List Char :=
  if c = '"' then ['\\', '"']
  else if c = '\\' then ['\\', '\\']
  else if c = '\x08' then ['\\', 'b']
  else if c = '\x0c' then ['\\', 'f']
  else if c = '\n' then ['\\', 'n']
  else if c = '\r' then ['\\', 'r']
  else if c = '\t' then ['\\', 't']
  else if c.toNat < 32 then
    ['\\', 'u', '0', '0', hexCharacter (c.toNat / 16), hexCharacter (c.toNat % 16)]
  else [c]

/-- A string between quotes. -/
def quote (s : String) : String := String.ofList ('"' :: s.toList.flatMap escape ++ ['"'])

/-- A number. A decimal is written with a point, or with an exponent where the point would stand far
from the digits. -/
def Number.render : Number → String
  | .integer value => toString value
  | .decimal negative digits exponent =>
    let sign := if negative then "-" else ""
    let ds := (toString digits).toList
    match exponent with
    | .ofNat e =>
      if e ≤ 20 then sign ++ String.ofList (ds ++ List.replicate e '0') ++ ".0"
      else s!"{sign}{digits}e{e}"
    | .negSucc e =>
      let places := e + 1
      if places ≤ ds.length + 20 then
        let padded := List.replicate (places + 1 - ds.length) '0' ++ ds
        sign ++ String.ofList (padded.take (padded.length - places)) ++ "."
          ++ String.ofList (padded.drop (padded.length - places))
      else s!"{sign}{digits}e-{places}"

mutual

/-- A value on one line, without blanks. -/
def compress : Json → String
  | .null => "null"
  | .bool true => "true"
  | .bool false => "false"
  | .num n => n.render
  | .str s => quote s
  | .arr items => "[" ++ ",".intercalate (compressItems items) ++ "]"
  | .obj members => "\x7b" ++ ",".intercalate (compressMembers members) ++ "\x7d"

/-- The items of an array, each on one line. -/
def compressItems : List Json → List String
  | [] => []
  | item :: items => compress item :: compressItems items

/-- The members of an object, each on one line. -/
def compressMembers : List (String × Json) → List String
  | [] => []
  | (name, value) :: members => (quote name ++ ":" ++ compress value) :: compressMembers members

end

/-- Brackets around parts that stand on lines of their own. -/
def bracket («open» close : String) (depth : Nat) (parts : List String) : String :=
  let indent (n : Nat) : String := String.ofList (List.replicate (2 * n) ' ')
  match parts with
  | [] => «open» ++ close
  | parts =>
    «open» ++ "\n" ++ indent (depth + 1) ++ (",\n" ++ indent (depth + 1)).intercalate parts
      ++ "\n" ++ indent depth ++ close

mutual

/-- A value in the indented form, its container at a depth. -/
def indentAt (depth : Nat) : Json → String
  | .arr items => bracket "[" "]" depth (indentItems (depth + 1) items)
  | .obj members => bracket "\x7b" "\x7d" depth (indentMembers (depth + 1) members)
  | .null => "null"
  | .bool true => "true"
  | .bool false => "false"
  | .num n => n.render
  | .str s => quote s

/-- The items of an array in the indented form. -/
def indentItems (depth : Nat) : List Json → List String
  | [] => []
  | item :: items => indentAt depth item :: indentItems depth items

/-- The members of an object in the indented form. -/
def indentMembers (depth : Nat) : List (String × Json) → List String
  | [] => []
  | (name, value) :: members =>
    (quote name ++ ": " ++ indentAt depth value) :: indentMembers depth members

end

/-- A value in the indented form. -/
def indented (value : Json) : String := indentAt 0 value

end EventSheet.Json
