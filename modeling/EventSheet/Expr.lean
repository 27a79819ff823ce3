import EventSheet.Span

/-!
Expression trees.

A tree is what is left of a written expression once its text is parsed: calls, operators, literals
and names, each with the span it was written at. Spans and names are taken as they come.
-/

set_option autoImplicit false

namespace EventSheet

/-- What is written before the arguments of a call: `Fn`, `Object.Fn` or `Object.Behavior::Fn`. -/
structure Callee where
  /-- The object written before the point, empty for a free function. -/
  objectName : String
  /-- The behavior written before the colons, empty without one. -/
  behaviorName : String
  /-- The qualified name of the function. -/
  functionName : String
  /-- The span of the whole call. -/
  span : Span
  /-- The span of the object's name. -/
  objectNameSpan : Span
deriving DecidableEq, Repr, Inhabited

namespace Callee

/-- The callee of a free function. -/
def free (functionName : String) (span : Span) : Callee :=
  ⟨"", "", functionName, span, .origin⟩

/-- The callee of a function of an object. -/
def onObject (objectName functionName : String) (span objectNameSpan : Span) : Callee :=
  ⟨objectName, "", functionName, span, objectNameSpan⟩

/-- The callee of a function of a behavior. -/
def onBehavior (objectName behaviorName functionName : String) (span objectNameSpan : Span) :
    Callee :=
  ⟨objectName, behaviorName, functionName, span, objectNameSpan⟩

/-- Whether an object, and no behavior, receives the call. -/
def isObjectScoped (c : Callee) : Bool := c.objectName ≠ "" && c.behaviorName = ""

/-- Whether a behavior receives the call. -/
def isBehaviorScoped (c : Callee) : Bool := c.behaviorName ≠ ""

/-- The number of declared parameters that the receivers fill, so that no argument is written for
them: the object takes the first, the behavior the second. -/
def receiverSlots (c : Callee) : Nat :=
  if c.behaviorName ≠ "" then 2 else if c.objectName ≠ "" then 1 else 0

end Callee

/-- An expression tree. -/
inductive Expr where
  /-- A call of a function. -/
  | call (callee : Callee) (arguments : List Expr)
  /-- A bare name, of an object or a variable. -/
  | identifier (name : String) (span : Span)
  /-- The place of an argument that is left out. -/
  | empty (span : Span)
  /-- A number, as it was written. -/
  | number (value : String) (span : Span)
  /-- A text. -/
  | text (value : String) (span : Span)
  /-- An access to a variable. -/
  | variable (name : String) (span : Span)
  /-- Two operands and an operator between them. -/
  | operator (op : String) (left right : Expr) (span : Span)
  /-- An operand behind an operator. -/
  | unary (op : String) (operand : Expr) (span : Span)
  /-- An expression in parentheses. -/
  | sub (inner : Expr) (span : Span)
deriving Repr, Inhabited

namespace Expr

/-- The span of the root. -/
def span : Expr → Span
  | .call callee _ => callee.span
  | .identifier _ s | .empty s | .number _ s | .text _ s | .variable _ s => s
  | .operator _ _ _ s | .unary _ _ s | .sub _ s => s

/-- Whether the tree stands for an argument that is left out. -/
def isEmptyPlaceholder : Expr → Bool
  | .empty _ => true
  | _ => false

/-- The name, if the tree is a bare name. -/
def identifier? : Expr → Option String
  | .identifier name _ => some name
  | _ => none

end Expr

end EventSheet
