import EventSheet.Expr.Json
import EventSheet.Json.Reader

/-!
Reading expression trees from JSON text.

A text can fail in two ways: it is no JSON value (`ReadFault.text`), or its value is no tree
(`ReadFault.notATree`). The outermost record is read member by member, and what its `kind` says is
judged as soon as it is read. So a wrong `kind` is reported even if the text behind it is malformed,
while every other flaw of a tree is reported only once the record is complete.
-/

set_option autoImplicit false

namespace EventSheet.Expr

open Json (Stop skipBlank readName readColon readItemStart readItems readValue readEnd)

/-- Why a text is not a tree. -/
inductive ReadFault where
  /-- The text is no JSON value. -/
  | text (stop : Stop)
  /-- The value is no tree. -/
  | notATree
deriving DecidableEq, Repr

namespace ReadFault

/-- The name of a sort of faults: the text ends too early, is malformed, or says something else. -/
def category : ReadFault → String
  | .text ⟨.ended _, _⟩ => "eof"
  | .text ⟨.malformed _, _⟩ => "syntax"
  | .notATree => "data"

/-- The wording of a fault of a text. -/
def message (fault : ReadFault) (text : String) : String :=
  match fault with
  | .text stop => stop.message text
  | .notATree => "not an expression tree"

end ReadFault

/-- Keeps a stop of a reader as a fault of the text. -/
def onText {α : Type} (r : Except Stop α) : Except ReadFault α := r.mapError .text

/-- Whether a value starts a container. -/
def startsContainer (cs : List Char) : Bool :=
  match skipBlank cs with
  | c :: _ => c = '{' || c = '['
  | [] => false

/-- Reads the value of `kind`, which has to name a sort of trees. -/
def readKind (fuel : Nat) (cs : List Char) : Except ReadFault (String × List Char) :=
  if startsContainer cs then .error .notATree
  else do
    let (value, rest) ← onText (readValue fuel 0 cs)
    match value with
    | .str kind => if isKind kind then pure (kind, rest) else .error .notATree
    | _ => .error .notATree

/-- Reads the members of the outermost object; `judged` says whether `kind` has been read. -/
def readRootMembers (fuel : Nat) (first judged : Bool) (cs : List Char) :
    Except ReadFault (List (String × Json) × List Char) :=
  match fuel with
  | 0 => onText (Json.ended .object)
  | fuel + 1 => do
    let (name, cs) ← onText (readName first cs)
    match name with
    | none => pure ([], cs)
    | some name =>
      if name = "kind" then
        if judged then .error .notATree
        else do
          let cs ← onText (readColon cs)
          let (kind, cs) ← readKind fuel cs
          let (members, cs) ← readRootMembers fuel false true cs
          pure ((name, .str kind) :: members, cs)
      else do
        let cs ← onText (readColon cs)
        let (value, cs) ← onText (readValue fuel (Json.depthLimit - 1) cs)
        let (members, cs) ← readRootMembers fuel false judged cs
        pure ((name, value) :: members, cs)

/-- Reads the members of the outermost object, behind its brace, as a value. -/
def readRootObject (fuel : Nat) (cs : List Char) : Except ReadFault (Json × List Char) := do
  let (members, cs) ← readRootMembers fuel true false cs
  pure (.obj members, cs)

/-- Reads the items of the outermost array, behind its bracket, as a value. -/
def readRootArray (fuel : Nat) (cs : List Char) : Except ReadFault (Json × List Char) := do
  let (hasKind, cs) ← onText (readItemStart true cs)
  if hasKind then
    let (kind, cs) ← readKind fuel cs
    let (items, cs) ← onText (readItems fuel (Json.depthLimit - 1) false cs)
    pure (.arr (.str kind :: items), cs)
  else .error .notATree

/-- Reads the outermost value. Only an object or an array can be a tree. -/
def readRoot (fuel : Nat) (cs : List Char) : Except ReadFault (Json × List Char) :=
  match skipBlank cs with
  | '{' :: rest => readRootObject fuel rest
  | '[' :: rest => readRootArray fuel rest
  | rest => do
    let _ ← onText (readValue fuel 0 rest)
    .error .notATree

/-- Reads a text that is one tree. -/
def parse (text : String) : Except ReadFault Expr := do
  let cs := text.toList
  let (value, rest) ← readRoot (cs.length + 1) cs
  match ofJson? value with
  | none => .error .notATree
  | some e =>
    onText (readEnd rest)
    pure e

end EventSheet.Expr
