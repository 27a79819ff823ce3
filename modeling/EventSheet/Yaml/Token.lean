import EventSheet.Yaml.Scalar

/-!
Tokens of YAML documents.

The structure of a document shows in the columns of its tokens and in the lines they stand on, so a
token carries both. Understood are the marks of block sequences and mappings, flow collections,
plain scalars on one line, quoted scalars over any number of lines, comments, and the markers
around a single document. A document with anything else has no tokens.
-/

set_option autoImplicit false

namespace EventSheet.Yaml

/-! ## Tokens -/

/-- What a token says. -/
inductive Mark where
  /-- A scalar. -/
  | scalar (s : Scalar)
  /-- An item of a block sequence follows. -/
  | dash
  /-- A value follows the key before. -/
  | colon
  /-- Another part of a flow collection follows. -/
  | comma
  /-- A flow sequence starts. -/
  | openList
  /-- A flow sequence ends. -/
  | closeList
  /-- A flow mapping starts. -/
  | openMap
  /-- A flow mapping ends. -/
  | closeMap
deriving DecidableEq, Repr, Inhabited

/-- A place in a document, lines and columns counted from zero. -/
structure Place where
  /-- The line. -/
  line : Nat
  /-- The column. -/
  column : Nat
deriving DecidableEq, Repr, Inhabited

/-- The place behind a character. -/
def Place.after (p : Place) (c : Char) : Place :=
  if c = '\n' then ⟨p.line + 1, 0⟩ else ⟨p.line, p.column + 1⟩

/-- The place behind some characters. -/
def Place.afterAll (p : Place) (cs : List Char) : Place := cs.foldl Place.after p

/-- A mark at the place where it starts. -/
structure Token where
  /-- The mark. -/
  mark : Mark
  /-- Where it starts. -/
  place : Place
deriving DecidableEq, Repr, Inhabited

/-! ## Characters -/

/-- A blank inside a line. -/
def isSpace (c : Char) : Bool := c = ' ' || c = '\t'

/-- An end of a line. -/
def isBreak (c : Char) : Bool := c = '\n' || c = '\r'

/-- Whether some characters start with a blank, or are at an end. -/
def startsBlank : List Char → Bool
  | [] => true
  | c :: _ => isSpace c || isBreak c

/-- The characters that part flow collections. -/
def isFlowMark (c : Char) : Bool := c ∈ [',', '[', ']', '{', '}']

/-- The characters that start no plain scalar. -/
def isIndicator (c : Char) : Bool :=
  isFlowMark c || c ∈ ['#', '&', '*', '!', '|', '>', '\'', '"', '%', '@', Char.ofNat 96]

/-! ## Scalars -/

/-- Cuts a plain scalar off: it ends with the line, at a comment, at a colon before a blank, and in
a flow collection at a mark of the collection. -/
def cutPlain (inFlow : Bool) : List Char → List Char × List Char
  | [] => ([], [])
  | c :: cs =>
    let ends :=
      isBreak c
        || (c = ':' && (startsBlank cs || (inFlow && (cs.head?.any isFlowMark))))
        || (inFlow && isFlowMark c)
    if ends then ([], c :: cs)
    else if isSpace c && cs.head? = some '#' then ([], c :: cs)
    else
      let (scalar, rest) := cutPlain inFlow cs
      (c :: scalar, rest)

/-- A text without the blanks at its end. -/
def trimEnd (cs : List Char) : List Char := (cs.reverse.dropWhile isSpace).reverse

/-- Passes over a line break inside quotes with the blanks around it and any empty lines behind it.
One break means a space, and each empty line a break of its own. -/
def foldBreak (cs : List Char) : List Char × List Char :=
  let blank := cs.takeWhile fun c => isSpace c || isBreak c
  let breaks := blank.count '\n'
  (if breaks ≤ 1 then [' '] else List.replicate (breaks - 1) '\n', cs.drop blank.length)

/-- Cuts a single-quoted scalar off, from behind its opening quote; a quote is written twice. Gives
the text and what is left. -/
def cutSingle : Nat → List Char → List Char → Option (List Char × List Char)
  | 0, _, _ => none
  | fuel + 1, done, cs =>
    match cs with
    | [] => none
    | '\'' :: '\'' :: rest => cutSingle fuel ('\'' :: done) rest
    | '\'' :: rest => some (done.reverse, rest)
    | c :: rest =>
      if isBreak c then
        let (folded, rest) := foldBreak (c :: rest)
        cutSingle fuel (folded ++ done.dropWhile isSpace) rest
      else cutSingle fuel (c :: done) rest

/-- The character that a given number of hexadecimal digits name. -/
def hexEscape? (digits : Nat) (cs : List Char) : Option (Char × List Char) := do
  let code := cs.take digits
  if code.length < digits then none
  else
    let n ← Scalar.natOf? 16 code
    if n.isValidChar then some (Char.ofNat n, cs.drop digits) else none

/-- The character of an escape in double quotes, read behind its backslash. -/
def escape? (cs : List Char) : Option (Char × List Char) :=
  let known : List (Char × Nat) :=
    [('0', 0x00), ('a', 0x07), ('b', 0x08), ('t', 0x09), ('\t', 0x09), ('n', 0x0a), ('v', 0x0b),
      ('f', 0x0c), ('r', 0x0d), ('e', 0x1b), (' ', 0x20), ('"', 0x22), ('/', 0x2f),
      ('\\', 0x5c), ('N', 0x85), ('_', 0xa0), ('L', 0x2028), ('P', 0x2029)]
  match cs with
  | 'x' :: rest => hexEscape? 2 rest
  | 'u' :: rest => hexEscape? 4 rest
  | 'U' :: rest => hexEscape? 8 rest
  | c :: rest => (known.find? fun e => e.1 = c).map fun e => (Char.ofNat e.2, rest)
  | [] => none

/-- Cuts a double-quoted scalar off, from behind its opening quote. Gives the text and what is
left. -/
def cutDouble : Nat → List Char → List Char → Option (List Char × List Char)
  | 0, _, _ => none
  | fuel + 1, done, cs =>
    match cs with
    | [] => none
    | '"' :: rest => some (done.reverse, rest)
    | '\\' :: '\n' :: rest => cutDouble fuel done (rest.dropWhile isSpace)
    | '\\' :: rest =>
      match escape? rest with
      | some (c, rest) => cutDouble fuel (c :: done) rest
      | none => none
    | c :: rest =>
      if isBreak c then
        let (folded, rest) := foldBreak (c :: rest)
        cutDouble fuel (folded ++ done.dropWhile isSpace) rest
      else cutDouble fuel (c :: done) rest

/-! ## Documents -/

/-- Whether some characters start with a marker of documents, three times the same character. -/
def startsMarker (c : Char) (cs : List Char) : Bool :=
  cs.take 3 = [c, c, c] && startsBlank (cs.drop 3)

/-- Whether a line holds nothing but blanks and a comment. -/
def isBareLine (cs : List Char) : Bool :=
  match cs.dropWhile isSpace with
  | [] => true
  | c :: _ => isBreak c || c = '#'

/-- Whether nothing but blanks and comments is left. -/
def isBare : Nat → List Char → Bool
  | 0, _ => false
  | fuel + 1, cs =>
    isBareLine cs &&
      match cs.dropWhile fun c => c ≠ '\n' with
      | [] => true
      | _ :: rest => isBare fuel rest

/-- Splits a document into tokens, from a place on. `depth` counts the flow collections around the
place, `fresh` says whether the line has no token yet, and `started` whether the document has one.
-/
def tokens (fuel : Nat) (place : Place) (depth : Nat) (fresh started : Bool) (cs : List Char) :
    Option (List Token) :=
  match fuel with
  | 0 => none
  | fuel + 1 =>
    let single (mark : Mark) (depth : Nat) (rest : List Char) : Option (List Token) :=
      (tokens fuel ⟨place.line, place.column + 1⟩ depth false true rest).map (⟨mark, place⟩ :: ·)
    let quoted (cut : Option (List Char × List Char)) : Option (List Token) := do
      let (text, rest) ← cut
      let behind := place.afterAll (cs.take (cs.length - rest.length))
      let more ← tokens fuel behind depth false true rest
      pure (⟨.scalar ⟨String.ofList text, false⟩, place⟩ :: more)
    if place.column = 0 && startsMarker '-' cs then
      if started then none
      else tokens fuel ⟨place.line, 3⟩ depth true true (cs.drop 3)
    else if place.column = 0 && startsMarker '.' cs then
      if depth = 0 && isBare (cs.length + 1) (cs.drop 3) then some [] else none
    else
      match cs with
      | [] => if depth = 0 then some [] else none
      | c :: rest =>
        if isBreak c then tokens fuel (place.after c) depth true started rest
        else if c = '\t' && fresh && depth = 0 && !isBareLine rest then none
        else if isSpace c then tokens fuel (place.after c) depth fresh started rest
        else if c = '#' then
          let comment := cs.takeWhile fun c => c ≠ '\n'
          tokens fuel (place.afterAll comment) depth fresh started (cs.drop comment.length)
        else if c = '-' && startsBlank rest then
          if depth = 0 then single .dash depth rest else none
        else if c = ':' && (0 < depth || startsBlank rest) then single .colon depth rest
        else if c = '?' && startsBlank rest then none
        else if c = ',' then if 0 < depth then single .comma depth rest else none
        else if c = '[' then single .openList (depth + 1) rest
        else if c = '{' then single .openMap (depth + 1) rest
        else if c = ']' then if 0 < depth then single .closeList (depth - 1) rest else none
        else if c = '}' then if 0 < depth then single .closeMap (depth - 1) rest else none
        else if c = '\'' then quoted (cutSingle (rest.length + 1) [] rest)
        else if c = '"' then quoted (cutDouble (rest.length + 1) [] rest)
        else if isIndicator c then none
        else
          let (scalar, behind) := cutPlain (0 < depth) cs
          let more := tokens fuel (place.afterAll scalar) depth false true behind
          more.map (⟨.scalar ⟨String.ofList (trimEnd scalar), true⟩, place⟩ :: ·)

/-- The tokens of a document; a byte-order mark before it is passed over. -/
def tokensOf (text : String) : Option (List Token) :=
  let cs :=
    match text.toList with
    | c :: rest => if c.toNat = 0xfeff then rest else c :: rest
    | [] => []
  tokens (cs.length + 1) ⟨0, 0⟩ 0 true false cs

end EventSheet.Yaml
