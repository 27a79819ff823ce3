import EventSheet.Diagnostic
import EventSheet.Expr
import EventSheet.Likeness
import EventSheet.Registry
import EventSheet.Scope
import EventSheet.Suggestion.Ranking

/-!
Checking expression trees against a registry and a scope.

The expected type goes down the tree, the inferred type and what was found come up. A check that
fails never ends the walk: it is noted, and the node gets the best type that is still known. A call
goes through these checks, each of which but the third ends the call's own checking if it fails:

1. its name belongs to a function that its receiver has,
2. the object has the capability that the function requires,
3. the declared return type fits the expected one,
4. the number of arguments is in range.

Then the arguments are paired, in order, with the parameters that arguments are written for
(`walkArguments`). An argument tagged as an object's variable belongs to the object that was written
last before it, and is noted with that object.
-/

set_option autoImplicit false

namespace EventSheet

/-! ## What a walk knows and finds -/

/-- What an expression is checked against. -/
structure Setting where
  /-- The functions that can be called. -/
  registry : Registry
  /-- The objects that can be spoken of. -/
  scope : ObjectScope
  /-- How names are compared to suggest one. -/
  likeness : String → String → Float

/-- A variable that was written for an object. -/
structure ObjectVariable where
  /-- The object. -/
  objectName : String
  /-- The variable. -/
  variableName : String
  /-- Where the variable is written. -/
  span : Span
deriving DecidableEq, Repr, Inhabited

/-- What a walk finds, in the order of the walk. -/
structure Findings where
  /-- What is wrong. -/
  diagnostics : List Diagnostic
  /-- The variables written for objects. -/
  objectVariables : List ObjectVariable
deriving DecidableEq, Inhabited

namespace Findings

/-- Nothing found. -/
def none : Findings := ⟨[], []⟩

/-- One problem. -/
def ofProblem (p : Problem) (span : Span) : Findings := ⟨[p.at span], []⟩

instance : Append Findings :=
  ⟨fun a b => ⟨a.diagnostics ++ b.diagnostics, a.objectVariables ++ b.objectVariables⟩⟩

/-- A variable, if it belongs to an object. -/
def ofVariable (owner : Option String) (name : String) (span : Span) : Findings :=
  match owner with
  | some objectName => ⟨[], [⟨objectName, name, span⟩]⟩
  | Option.none => none

end Findings

/-- What is known of an expression after a walk. -/
structure Outcome where
  /-- What is wrong with it. -/
  diagnostics : List Diagnostic
  /-- Its type, as far as it can be told. -/
  inferredType : ValueType
  /-- The variables written for objects. -/
  objectVariables : List ObjectVariable
deriving DecidableEq, Inhabited

/-- Whether nothing is wrong with an expression. -/
def Outcome.isValid (o : Outcome) : Bool := o.diagnostics.isEmpty

namespace Check

/-! ## The receiver and the function of a call -/

/-- The type of the object that receives a call, if an object is written. An undeclared object has
the type that stands for every object. -/
def objectType? (s : Setting) (c : Callee) : Option String :=
  if c.objectName = "" then none else some ((s.scope.objectType? c.objectName).getD "")

/-- The type of the behavior that receives a call, if a behavior is written. -/
def behaviorType? (s : Setting) (c : Callee) : Option String :=
  if c.behaviorName = "" then none
  else some ((s.scope.behaviorType? c.objectName c.behaviorName).getD "")

/-- The owner whose functions a call may name. -/
def owner (s : Setting) (c : Callee) : Owner :=
  .ofReceivers (objectType? s c) (behaviorType? s c)

/-- The function of a call. -/
def resolve (s : Setting) (c : Callee) : Option Signature :=
  s.registry.lookup .expression (owner s c) c.functionName

/-- Names like that of a call. -/
def suggestions (s : Setting) (c : Callee) : List Suggestion :=
  Ranking.suggest s.likeness c.functionName (s.registry.namesInScope .expression (owner s c))

/-! ## Checks of a call before its arguments -/

/-- The capability that the object of a call lacks. An object without a known type lacks none. -/
def missingCapability? (s : Setting) (c : Callee) (signature : Signature) : Option String := do
  let capability ← signature.capability?
  let type ← objectType? s c
  if type = "" then none
  else
    let t ← s.registry.object? type
    if t.supports capability then none else some capability

/-- How a declared return type misses the expected one, if it does. An unknown type fits, and either
of numbers and texts fits where both do. -/
def mismatch? (declared expected : ValueType) : Option Mismatch :=
  match declared, expected with
  | .unknown, _ => none
  | _, .unknown => none
  | .number, .number => none
  | .number, .numberOrString => none
  | .number, .string => some .numberWhereStringExpected
  | .string, .string => none
  | .string, .numberOrString => none
  | .string, .number => some .stringWhereNumberExpected
  | d, e => if d = e then none else some .generic

/-- What the checks of a call say before any argument is looked at. -/
structure CallCheck where
  /-- The type of the call. -/
  type : ValueType
  /-- What is wrong with the call. -/
  diagnostics : List Diagnostic
  /-- The parameters to pair the arguments with, unless the arguments are not to be looked at. -/
  parameters : Option (List Parameter)

/-- What is wrong with the return type of a call. -/
def returnTypeDiagnostics (declared expected : ValueType) (span : Span) : List Diagnostic :=
  match mismatch? declared expected with
  | some m => [(Problem.returnTypeMismatch m declared expected).at span]
  | none => []

/-- What is wrong with the number of arguments of a call. Arguments that are left over are marked
from the first of them to the end of the call. -/
def arityDiagnostics (signature : Signature) (c : Callee) (arguments : List Expr) :
    List Diagnostic :=
  let min := signature.minArguments c.receiverSlots
  let max := signature.maxArguments c.receiverSlots
  if arguments.length < min then [(Problem.tooFewArguments min max).at c.span]
  else
    match arguments[max]? with
    | some excess =>
      let span := ⟨excess.span.start, Max.max c.span.stop excess.span.stop⟩
      [(Problem.tooManyArguments min max).at span]
    | none => []

/-- Checks a call before its arguments. -/
def checkCall (s : Setting) (expected : ValueType) (c : Callee) (arguments : List Expr) :
    CallCheck :=
  match resolve s c with
  | none => ⟨.unknown, [(Problem.unknownFunction c.functionName (suggestions s c)).at c.span], none⟩
  | some signature =>
    let declared := signature.returnType
    match missingCapability? s c signature with
    | some capability =>
      ⟨declared, [(Problem.unsupportedCapability capability).at c.objectNameSpan], none⟩
    | none =>
      let mismatch := returnTypeDiagnostics declared expected c.span
      match arityDiagnostics signature c arguments with
      | [] => ⟨declared, mismatch, some (signature.written c.receiverSlots)⟩
      | arity => ⟨declared, mismatch ++ arity, none⟩

/-! ## Checks of an argument against its parameter -/

/-- What is wrong with an argument that is left out. -/
def placeholderFindings (p : Parameter) (span : Span) : Findings :=
  if p.isOptional then .none else .ofProblem (.missingArgument p.type) span

/-- The object that an argument's variable belongs to. -/
def variableOwner (p : Parameter) (lastObject : Option String) : Option String :=
  if p.tag = Category.objectVariableTag then lastObject else none

/-- What is wrong with an argument as a whole. -/
def categoryFindings (p : Parameter) (a : Expr) : Findings :=
  match p.category with
  | .unrecognized => .ofProblem (.unknownParameterType p.tag) a.span
  | .object =>
    match a.identifier? with
    | some _ => .none
    | none => .ofProblem .malformedObjectParameter a.span
  | _ => .none

/-- The object that was written last, once an argument is behind. -/
def lastObjectAfter (p : Parameter) (a : Expr) (lastObject : Option String) : Option String :=
  match p.category with
  | .object => a.identifier?.or lastObject
  | _ => lastObject

/-! ## The walk -/

/-- The type that two operands have in common. -/
def join (left right : ValueType) : ValueType := if left = right then left else .unknown

/-- The type of a bare name. -/
def identifierType : ValueType → ValueType
  | .object => .object
  | .variable => .variable
  | _ => .unknown

/-- What a bare name adds: where a variable is expected, it is one. -/
def identifierFindings (expected : ValueType) (owner : Option String) (name : String)
    (span : Span) : Findings :=
  match expected with
  | .variable => .ofVariable owner name span
  | _ => .none

/-- The object that a call starts with. -/
def receiverName (c : Callee) : Option String :=
  if c.objectName = "" then none else some c.objectName

mutual

/-- Walks a tree at a depth. `owner` is the object that a variable at the root belongs to. -/
def walk (s : Setting) (expected : ValueType) (depth : Nat) (owner : Option String) (e : Expr) :
    ValueType × Findings :=
  if maxDepth < depth then (.unknown, .ofProblem .nestingTooDeep e.span)
  else
    match e with
    | .call c arguments =>
      let check := checkCall s expected c arguments
      let inArguments :=
        match check.parameters with
        | some parameters => walkArguments s depth (receiverName c) parameters arguments
        | none => .none
      (check.type, ⟨check.diagnostics, []⟩ ++ inArguments)
    | .identifier name span =>
      (identifierType expected, identifierFindings expected owner name span)
    | .empty _ => (.empty, .none)
    | .number _ _ => (.number, .none)
    | .text _ _ => (.string, .none)
    | .variable name span => (.variable, .ofVariable owner name span)
    | .operator _ left right _ =>
      let l := walk s expected (depth + 1) none left
      let r := walk s expected (depth + 1) none right
      (join l.1 r.1, l.2 ++ r.2)
    | .unary _ operand _ => walk s expected (depth + 1) none operand
    | .sub inner _ => walk s expected (depth + 1) none inner

/-- Walks the arguments of a call at a depth, each with its parameter. `lastObject` is the object
that was written last. -/
def walkArguments (s : Setting) (depth : Nat) (lastObject : Option String) :
    List Parameter → List Expr → Findings
  | p :: ps, a :: as =>
    if a.isEmptyPlaceholder then
      placeholderFindings p a.span ++ walkArguments s depth lastObject ps as
    else
      (walk s p.type (depth + 1) (variableOwner p lastObject) a).2 ++ categoryFindings p a
        ++ walkArguments s depth (lastObjectAfter p a lastObject) ps as
  | [], _ => .none
  | _, [] => .none
termination_by structural _ arguments => arguments

end

/-- Checks a tree of which a type is expected. -/
def validateIn (s : Setting) (expected : ValueType) (e : Expr) : Outcome :=
  let (type, findings) := walk s expected 0 none e
  ⟨findings.diagnostics, type, findings.objectVariables⟩

end Check

/-- Checks a tree against a registry and a scope. Names are suggested by their Jaro–Winkler
likeness. -/
def validate (registry : Registry) (scope : ObjectScope) (expected : ValueType) (e : Expr) :
    Outcome :=
  Check.validateIn ⟨registry, scope, Likeness.jaroWinkler⟩ expected e

end EventSheet
