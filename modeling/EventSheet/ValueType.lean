/-!
The types of expressions and the tags that name them.

A catalog declares parameters by tags, of which there are many more than types: a layer name and a
colour are both texts. A tag belongs to at most one category, and the category decides the type. A
tag of no category has the type `unknown`, which fits everywhere.
-/

set_option autoImplicit false

namespace EventSheet

/-! ## Categories of parameter tags -/

/-- How a declared parameter is written. -/
inductive Category where
  /-- Any expression that gives a number. -/
  | number
  /-- Any expression that gives a text. -/
  | text
  /-- The name of a variable. -/
  | variable
  /-- The bare name of an object. -/
  | object
  /-- No way of writing that is known. -/
  | unrecognized
deriving DecidableEq, Repr, Inhabited

namespace Category

/-- The tags of numbers. -/
def numberTags : List String := ["number", "expression", "camera", "forceMultiplier"]

/-- The tags of texts. -/
def textTags : List String :=
  ["string", "layer", "color", "file", "joyaxis", "stringWithSelector", "sceneName",
    "layerEffectName", "layerEffectParameterName", "objectEffectName",
    "objectEffectParameterName", "objectPointName", "objectAnimationName",
    "functionParameterName", "externalLayoutName", "leaderboardId", "identifier"]

/-- The tags of variables. -/
def variableTags : List String := ["variable", "objectvar", "globalvar", "scenevar"]

/-- The tags of objects. -/
def objectTags : List String :=
  ["object", "objectPtr", "objectList", "objectListOrEmptyIfJustDeclared",
    "objectListOrEmptyWithoutPicking"]

/-- The category of a tag. -/
def ofTag (tag : String) : Category :=
  if tag ∈ numberTags then .number
  else if tag ∈ textTags then .text
  else if tag ∈ variableTags then .variable
  else if tag ∈ objectTags then .object
  else .unrecognized

/-- The tag of a variable that belongs to the object written before it. -/
def objectVariableTag : String := "objectvar"

/-- The name of a category. -/
def name : Category → String
  | .number => "number_expression"
  | .text => "string_expression"
  | .variable => "variable_expression"
  | .object => "object"
  | .unrecognized => "unrecognized"

end Category

/-! ## Types of expressions -/

/-- The type of an expression. -/
inductive ValueType where
  | number
  | string
  | numberOrString
  | variable
  | object
  | empty
  /-- The type of what cannot be typed; it is never reported as a mismatch. -/
  | unknown
deriving DecidableEq, Repr, Inhabited

namespace ValueType

/-- The name of a type. -/
def name : ValueType → String
  | .number => "number"
  | .string => "string"
  | .numberOrString => "number|string"
  | .variable => "variable"
  | .object => "object"
  | .empty => "empty"
  | .unknown => "unknown"

instance : ToString ValueType := ⟨name⟩

/-- The type of a tag: two types have a tag that is no parameter tag, all else follows the
category. -/
def ofTag (tag : String) : ValueType :=
  if tag = "number|string" then .numberOrString
  else if tag = "empty" then .empty
  else
    match Category.ofTag tag with
    | .number => .number
    | .text => .string
    | .variable => .variable
    | .object => .object
    | .unrecognized => .unknown

/-- The type that a user expects, by its tag. A tag that would mean `unknown` by accident is
refused. -/
def ofExpectedTag? (tag : String) : Option ValueType :=
  if ofTag tag = .unknown && tag ≠ "unknown" then none else some (ofTag tag)

end ValueType

end EventSheet
