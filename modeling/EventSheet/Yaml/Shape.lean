import EventSheet.Yaml.Node

/-!
YAML trees as JSON values, by the shape that is wanted.

What a plain scalar means can depend on what is read from it. Where a text is wanted, a scalar
means its own text, also if it would be a number or a null elsewhere. Where a collection is wanted,
a place that is left empty means an empty one. So the shape guides the conversion, and the JSON
value that comes out is decoded like any other. A node that misses its shape becomes a value that
no decoder takes for what is wanted.
-/

set_option autoImplicit false

namespace EventSheet.Yaml

/-- What is wanted at a place of a tree. -/
inductive Shape where
  /-- Any value; scalars by their spelling, keys by their text. -/
  | value
  /-- A record whose keys are strings by their spelling, scalars by their spelling. -/
  | resolved
  /-- A text. -/
  | text
  /-- A list, its items alike. -/
  | list (item : Shape)
  /-- A mapping with any keys, its values alike. -/
  | table (entry : Shape)
  /-- A mapping with known keys; unknown keys are passed over, and a sequence is no record. -/
  | record (fields : List (String × Shape))
deriving Repr, Inhabited

namespace Shape

/-- The shape at an item of a sequence. -/
def ofItem : Shape → Shape
  | .list item => item
  | .resolved => .resolved
  | _ => .value

/-- The shape behind a key, if the key counts. -/
def ofKey? (key : String) : Shape → Option Shape
  | .table entry => some entry
  | .record fields => (fields.find? fun f => f.1 = key).map Prod.snd
  | .resolved => some .resolved
  | _ => some .value

/-- What a scalar means in a shape. -/
def ofScalar (s : Scalar) : Shape → Json
  | .text => .str s.text
  | .list _ => if s.isAbsent then .arr [] else .null
  | .table _ => if s.isAbsent then .obj [] else .null
  | .record _ => if s.isAbsent then .obj [] else .null
  | .value | .resolved => s.value

/-- The name that a key gives to a member. Among resolved values a key has to be a string. -/
def keyName? (key : Scalar) : Shape → Option String
  | .resolved => key.string?
  | _ => some key.text

end Shape

namespace Node

mutual

/-- A tree as a JSON value of a shape. -/
def toJson (shape : Shape) : Node → Option Json
  | .scalar s => some (shape.ofScalar s)
  | .sequence items =>
    match shape with
    | .record _ => some .null
    | _ => (toJsonItems shape.ofItem items).map .arr
  | .mapping entries => (toJsonEntries shape entries).map .obj

/-- The items of a sequence as JSON values of a shape. -/
def toJsonItems (shape : Shape) : List Node → Option (List Json)
  | [] => some []
  | item :: items => do
    let v ← toJson shape item
    let vs ← toJsonItems shape items
    pure (v :: vs)

/-- The entries of a mapping of a shape as members of an object. -/
def toJsonEntries (shape : Shape) : List (Scalar × Node) → Option (List (String × Json))
  | [] => some []
  | (key, node) :: entries => do
    let name ← shape.keyName? key
    let members ← toJsonEntries shape entries
    match shape.ofKey? name with
    | none => pure members
    | some inner =>
      let v ← toJson inner node
      pure ((name, v) :: members)

end

end Node

/-- A document as a JSON value of a shape. -/
def readAs (shape : Shape) (text : String) : Option Json :=
  (Node.parse? text).bind (Node.toJson shape)

end EventSheet.Yaml
