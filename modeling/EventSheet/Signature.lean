import EventSheet.NameMap
import EventSheet.ValueType

/-!
Signatures of functions: what a call of a function may look like and what it gives.

A function belongs to an owner: to nobody, to a type of objects or to a type of behaviors. The
declared parameters of an object's function start with the object, those of a behavior's function
with the object and the behavior; no argument is written for these. Of the others, an argument is
written for all but those that generated code supplies.
-/

set_option autoImplicit false

namespace EventSheet

/-! ## Kinds and owners -/

/-- What a function is for. -/
inductive Kind where
  /-- Gives a value. -/
  | expression
  /-- Does something. -/
  | action
  /-- Decides something. -/
  | condition
deriving DecidableEq, Repr, Inhabited

namespace Kind

/-- The name of a kind. -/
def name : Kind → String
  | .expression => "expression"
  | .action => "action"
  | .condition => "condition"

/-- The kind of a name. -/
def ofName? (s : String) : Option Kind :=
  if s = "expression" then some .expression
  else if s = "action" then some .action
  else if s = "condition" then some .condition
  else none

instance : ToString Kind := ⟨name⟩

end Kind

/-- The sort of owners. -/
inductive OwnerSort where
  | global
  | object
  | behavior
deriving DecidableEq, Repr, Inhabited

namespace OwnerSort

/-- The name of a sort of owners. -/
def name : OwnerSort → String
  | .global => "global"
  | .object => "object"
  | .behavior => "behavior"

/-- The sort of a name. -/
def ofName? (s : String) : Option OwnerSort :=
  if s = "global" then some .global
  else if s = "object" then some .object
  else if s = "behavior" then some .behavior
  else none

/-- The number of leading parameters that receivers fill. -/
def receiverSlots : OwnerSort → Nat
  | .global => 0
  | .object => 1
  | .behavior => 2

end OwnerSort

/-- Whom a table of functions belongs to. The empty type stands for every object, or behavior. -/
inductive Owner where
  | global
  | object (type : String)
  | behavior (type : String)
deriving DecidableEq, Repr, Inhabited

namespace Owner

/-- The sort of an owner. -/
def sort : Owner → OwnerSort
  | .global => .global
  | .object _ => .object
  | .behavior _ => .behavior

/-- An owner as it is shown to people. -/
def describe : Owner → String
  | .global => "global scope"
  | .object type => if type = "" then "base object" else s!"object '{type}'"
  | .behavior type => if type = "" then "base behavior" else s!"behavior '{type}'"

/-- The owner that a call's receivers select: the behavior if there is one, else the object. -/
def ofReceivers (object behavior : Option String) : Owner :=
  match behavior, object with
  | some type, _ => .behavior type
  | none, some type => .object type
  | none, none => .global

end Owner

/-! ## Tables by kind -/

/-- One table for each kind of function. -/
structure ByKind (α : Type) where
  /-- The table of expressions. -/
  expressions : NameMap α
  /-- The table of actions. -/
  actions : NameMap α
  /-- The table of conditions. -/
  conditions : NameMap α
deriving DecidableEq

namespace ByKind

variable {α : Type}

/-- Three empty tables. -/
def empty : ByKind α := ⟨.empty, .empty, .empty⟩

instance : Inhabited (ByKind α) := ⟨empty⟩

/-- The table of a kind. -/
def get (t : ByKind α) : Kind → NameMap α
  | .expression => t.expressions
  | .action => t.actions
  | .condition => t.conditions

/-- Sets an entry in the table of a kind. -/
def insert (t : ByKind α) (kind : Kind) (name : String) (value : α) : ByKind α :=
  match kind with
  | .expression => { t with expressions := t.expressions.insert name value }
  | .action => { t with actions := t.actions.insert name value }
  | .condition => { t with conditions := t.conditions.insert name value }

/-- The number of entries of all kinds. -/
def size (t : ByKind α) : Nat := t.expressions.size + t.actions.size + t.conditions.size

/-- The entries of all kinds, each with its kind: expressions, then actions, then conditions. -/
def entries (t : ByKind α) : List (Kind × String × α) :=
  [Kind.expression, .action, .condition].flatMap fun kind =>
    (t.get kind).entries.map fun e => (kind, e.1, e.2)

end ByKind

/-! ## Qualified names -/

/-- A name behind the prefix of its extension, if there is one. -/
def qualifiedName (qualifier name : String) : String :=
  if qualifier = "" then name else qualifier ++ "::" ++ name

/-! ## Parameters and signatures -/

/-- A declared parameter. -/
structure Parameter where
  /-- The tag of its type. -/
  tag : String
  /-- Its name, empty without one. -/
  name : String
  /-- Its description, empty without one. -/
  description : String
  /-- Whether its argument may be left out. -/
  isOptional : Bool
  /-- Whether generated code supplies the argument, so that none is written. -/
  isCodeOnly : Bool
deriving DecidableEq, Repr, Inhabited

namespace Parameter

/-- A parameter of a tag that has to be written. -/
def ofTag (tag : String) : Parameter := ⟨tag, "", "", false, false⟩

/-- How its argument is written. -/
def category (p : Parameter) : Category := Category.ofTag p.tag

/-- The type that its argument is expected to have. -/
def type (p : Parameter) : ValueType := ValueType.ofTag p.tag

end Parameter

/-- What is declared about a function. -/
structure Signature where
  /-- The qualified name. -/
  name : String
  /-- The tag of the type of its value, empty if it has none. -/
  returnTag : String
  /-- The parameters in order, those of the receivers first. -/
  parameters : List Parameter
  /-- The capability that the object has to have. -/
  requiredCapability : Option String
  /-- The sort of its owner. -/
  ownerSort : OwnerSort
  /-- Its description, empty without one. -/
  description : String
deriving DecidableEq, Repr, Inhabited

namespace Signature

/-- The type of a call. -/
def returnType (s : Signature) : ValueType := ValueType.ofTag s.returnTag

/-- The capability that the object has to have; an empty one is none. -/
def capability? (s : Signature) : Option String := s.requiredCapability.filter (· ≠ "")

/-- The parameters that arguments are written for, behind those of the receivers. -/
def written (s : Signature) (receiverSlots : Nat) : List Parameter :=
  (s.parameters.drop receiverSlots).filter fun p => !p.isCodeOnly

/-- The least number of written arguments. -/
def minArguments (s : Signature) (receiverSlots : Nat) : Nat :=
  ((s.written receiverSlots).filter fun p => !p.isOptional).length

/-- The greatest number of written arguments. -/
def maxArguments (s : Signature) (receiverSlots : Nat) : Nat := (s.written receiverSlots).length

end Signature

end EventSheet
