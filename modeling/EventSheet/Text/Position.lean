/-!
Lines and places of a text.

A line ends at a line feed; one carriage return directly before the line feed belongs to the line's
end. A carriage return elsewhere is an ordinary character, and a line feed at the very end of a text
opens no further line.

An offset counts the bytes of the UTF-8 form, a column counts characters. `Position.at` turns the
one into the other; `slice?` cuts a text at two offsets and refuses to cut a character.
-/

set_option autoImplicit false

namespace EventSheet.Text

/-! ## Lines -/

/-- Puts a character before the first of some lines, or on a line of its own if there is none. -/
def onFirst (c : Char) : List (List Char) → List (List Char)
  | [] => [[c]]
  | line :: rest => (c :: line) :: rest

/-- The lines of a text, without their ends. -/
def lines : List Char → List (List Char)
  | [] => []
  | '\r' :: '\n' :: cs => [] :: lines cs
  | c :: cs => if c = '\n' then [] :: lines cs else onFirst c (lines cs)

/-- The lines of a string. -/
def linesOf (s : String) : List String := (lines s.toList).map String.ofList

/-- The first line of a string, empty if it has none. -/
def firstLine (s : String) : String := (linesOf s).headD ""

/-- The lines of a string after the first. -/
def laterLines (s : String) : List String := (linesOf s).tail

/-! ## Places -/

/-- The number of bytes of a text in UTF-8. -/
def byteLength : List Char → Nat
  | [] => 0
  | c :: cs => c.utf8Size + byteLength cs

/-- A line and a column, both counted from one. -/
structure Position where
  /-- The line. -/
  line : Nat
  /-- The column, in characters. -/
  column : Nat
deriving DecidableEq, Repr, Inhabited

namespace Position

/-- The first place of a text. -/
def start : Position := ⟨1, 1⟩

/-- The place behind a character that stands at a place. -/
def after (p : Position) (c : Char) : Position :=
  if c = '\n' then ⟨p.line + 1, 1⟩ else ⟨p.line, p.column + 1⟩

/-- Walks past each character that begins before an offset. -/
def walk (p : Position) : List Char → Nat → Position
  | [], _ => p
  | c :: cs, offset => if offset = 0 then p else walk (p.after c) cs (offset - c.utf8Size)

/-- The place of a byte offset. An offset inside a character means the place behind it, and one past
the end means the end. -/
def «at» (text : List Char) (offset : Nat) : Position := walk start text offset

end Position

/-- What is left of a text behind its first bytes, unless that cuts a character or runs past the
end. -/
def dropBytes? : List Char → Nat → Option (List Char)
  | cs, 0 => some cs
  | [], _ + 1 => none
  | c :: cs, n + 1 => if c.utf8Size ≤ n + 1 then dropBytes? cs (n + 1 - c.utf8Size) else none

/-- The first bytes of a text, unless that cuts a character or runs past the end. -/
def takeBytes? : List Char → Nat → Option (List Char)
  | _, 0 => some []
  | [], _ + 1 => none
  | c :: cs, n + 1 =>
    if c.utf8Size ≤ n + 1 then (takeBytes? cs (n + 1 - c.utf8Size)).map (c :: ·) else none

/-- The part of a text between two byte offsets. There is none if the offsets are reversed, lie past
the end or cut a character. -/
def slice? (text : List Char) (start stop : Nat) : Option (List Char) :=
  if start ≤ stop then (dropBytes? text start).bind (takeBytes? · (stop - start)) else none

end EventSheet.Text
