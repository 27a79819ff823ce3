import EventSheet.Expr

/-!
Expression trees as JSON values.

A tree is an object whose member `kind` names the sort of its root; the other members belong to
that sort. A call may leave out its receivers, its arguments and the span of its object. Spans are
objects of their own. Like any record a tree may also be an array: the kind, then the values of the
members in order.

Decoding reads every value of the JSON tree once, as a tree and as a list of trees (`Decoded`), and
each record then picks from the results of its members. So the recursion is on the value itself.
-/

set_option autoImplicit false

namespace EventSheet.Expr

/-! ## Encoding -/

mutual

/-- A tree as a JSON value. -/
def toJson : Expr → Json
  | .call c arguments =>
    .obj [("kind", .str "function_call"), ("object_name", .str c.objectName),
      ("behavior_name", .str c.behaviorName), ("function_name", .str c.functionName),
      ("parameters", .arr (toJsonList arguments)), ("span", c.span.toJson),
      ("object_name_span", c.objectNameSpan.toJson)]
  | .identifier name s =>
    .obj [("kind", .str "identifier"), ("name", .str name), ("span", s.toJson)]
  | .empty s => .obj [("kind", .str "empty"), ("span", s.toJson)]
  | .number value s => .obj [("kind", .str "number"), ("value", .str value), ("span", s.toJson)]
  | .text value s => .obj [("kind", .str "text"), ("value", .str value), ("span", s.toJson)]
  | .variable name s =>
    .obj [("kind", .str "variable"), ("name", .str name), ("span", s.toJson)]
  | .operator op left right s =>
    .obj [("kind", .str "operator"), ("op", .str op), ("left", left.toJson),
      ("right", right.toJson), ("span", s.toJson)]
  | .unary op operand s =>
    .obj [("kind", .str "unary_operator"), ("op", .str op), ("operand", operand.toJson),
      ("span", s.toJson)]
  | .sub inner s =>
    .obj [("kind", .str "sub_expression"), ("inner", inner.toJson), ("span", s.toJson)]

/-- A list of trees as JSON values. -/
def toJsonList : List Expr → List Json
  | [] => []
  | e :: es => e.toJson :: toJsonList es

end

/-! ## Decoding -/

/-- What a JSON value says as a tree, and what as a list of trees. -/
structure Decoded where
  /-- The value itself. -/
  value : Json
  /-- The tree that the value describes. -/
  tree : Option Expr
  /-- The trees that the value lists. -/
  trees : Option (List Expr)

namespace Decoded

/-- A string. -/
def string? (d : Decoded) : Option String := d.value.string?

/-- A span. -/
def span? (d : Decoded) : Option Span := Span.ofJson? d.value

end Decoded

open Json (required? optional?)

/-- The kinds of trees, as they are written, each with the names of its members in order. -/
def memberNames : List (String × List String) :=
  [("function_call",
      ["object_name", "behavior_name", "function_name", "parameters", "span", "object_name_span"]),
    ("identifier", ["name", "span"]),
    ("empty", ["span"]),
    ("number", ["value", "span"]),
    ("text", ["value", "span"]),
    ("variable", ["name", "span"]),
    ("operator", ["op", "left", "right", "span"]),
    ("unary_operator", ["op", "operand", "span"]),
    ("sub_expression", ["inner", "span"])]

/-- Whether a string is the kind of a tree. -/
def isKind (kind : String) : Bool := memberNames.any fun m => m.1 = kind

/-- The tree that the members of an object describe. -/
def ofMembers? (members : List (String × Decoded)) : Option Expr := do
  let kind ← required? "kind" Decoded.string? members
  match kind with
  | "function_call" =>
    let objectName ← optional? "object_name" "" Decoded.string? members
    let behaviorName ← optional? "behavior_name" "" Decoded.string? members
    let functionName ← required? "function_name" Decoded.string? members
    let arguments ← optional? "parameters" [] Decoded.trees members
    let span ← required? "span" Decoded.span? members
    let objectNameSpan ← optional? "object_name_span" .origin Decoded.span? members
    pure (.call ⟨objectName, behaviorName, functionName, span, objectNameSpan⟩ arguments)
  | "identifier" =>
    pure (.identifier (← required? "name" Decoded.string? members)
      (← required? "span" Decoded.span? members))
  | "empty" => pure (.empty (← required? "span" Decoded.span? members))
  | "number" =>
    pure (.number (← required? "value" Decoded.string? members)
      (← required? "span" Decoded.span? members))
  | "text" =>
    pure (.text (← required? "value" Decoded.string? members)
      (← required? "span" Decoded.span? members))
  | "variable" =>
    pure (.variable (← required? "name" Decoded.string? members)
      (← required? "span" Decoded.span? members))
  | "operator" =>
    pure (.operator (← required? "op" Decoded.string? members)
      (← required? "left" Decoded.tree members) (← required? "right" Decoded.tree members)
      (← required? "span" Decoded.span? members))
  | "unary_operator" =>
    pure (.unary (← required? "op" Decoded.string? members)
      (← required? "operand" Decoded.tree members) (← required? "span" Decoded.span? members))
  | "sub_expression" =>
    pure (.sub (← required? "inner" Decoded.tree members)
      (← required? "span" Decoded.span? members))
  | _ => none

/-- The tree that the items of an array describe. -/
def ofItems? : List Decoded → Option Expr
  | [] => none
  | kind :: values => do
    let names ← NameMap.find (← kind.string?) memberNames
    let members ← Json.inOrder? names values
    ofMembers? (("kind", kind) :: members)

mutual

/-- Reads a value both ways. -/
def decode : Json → Decoded
  | .obj members => ⟨.obj members, ofMembers? (decodeMembers members), none⟩
  | .arr items =>
    let decoded := decodeItems items
    ⟨.arr items, ofItems? decoded, decoded.mapM Decoded.tree⟩
  | v => ⟨v, none, none⟩

/-- Reads the value of every member. -/
def decodeMembers : List (String × Json) → List (String × Decoded)
  | [] => []
  | (name, value) :: members => (name, decode value) :: decodeMembers members

/-- Reads every item. -/
def decodeItems : List Json → List Decoded
  | [] => []
  | item :: items => decode item :: decodeItems items

end

/-- The tree that a JSON value describes. -/
def ofJson? (v : Json) : Option Expr := (decode v).tree

end EventSheet.Expr
