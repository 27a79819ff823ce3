import EventSheet.Check

/-!
The walk, one equation for each node.

`Check.walk` gives a type and findings, and carries the object that a variable belongs to. Whatever
is said about types and diagnostics is easier without that object: neither depends on it
(`walk_owner`), so both are functions of the expected type, the depth and the tree (`typeAt`,
`diagnosticsAt`). For these there is one equation for each node, and the diagnostics of a call are
those of the call itself followed by those of each argument with its parameter
(`diagnosticsAt_call`). Every statement about a check is proved against these equations, by
induction along the walk (`Check.induction`).
-/

set_option autoImplicit false

namespace EventSheet

/-! ## Induction over trees -/

/-- Whether the tree is a name, a literal or a placeholder, and so has no parts. -/
def Expr.isLeaf : Expr → Bool
  | .call _ _ | .operator _ _ _ _ | .unary _ _ _ | .sub _ _ => false
  | _ => true

/-- Induction over trees, the arguments of a call all at once and the nodes without parts in one
case. The recursor that comes with the type has a second motive for lists of arguments; here it is
"every one of them". -/
@[elab_as_elim]
theorem Expr.induction {motive : Expr → Prop}
    (call : ∀ c arguments, (∀ a ∈ arguments, motive a) → motive (.call c arguments))
    (leaf : ∀ e, e.isLeaf = true → motive e)
    (operator : ∀ op left right span, motive left → motive right →
      motive (.operator op left right span))
    (unary : ∀ op operand span, motive operand → motive (.unary op operand span))
    (sub : ∀ inner span, motive inner → motive (.sub inner span)) (e : Expr) : motive e := by
  refine Expr.rec (motive_2 := fun arguments => ∀ a ∈ arguments, motive a) call
    (fun _ _ => leaf _ rfl) (fun _ => leaf _ rfl) (fun _ _ => leaf _ rfl) (fun _ _ => leaf _ rfl)
    (fun _ _ => leaf _ rfl) operator unary sub ?_ ?_ e
  · intro a ha
    exact absurd ha List.not_mem_nil
  · intro head tail hhead htail a ha
    rcases List.mem_cons.mp ha with rfl | ha
    · exact hhead
    · exact htail a ha

/-- A tree is another one or occurs in it. -/
inductive Expr.IsPart (x : Expr) : Expr → Prop where
  | self : Expr.IsPart x x
  | argument {c arguments a} : a ∈ arguments → Expr.IsPart x a →
      Expr.IsPart x (.call c arguments)
  | left {op left right span} : Expr.IsPart x left → Expr.IsPart x (.operator op left right span)
  | right {op left right span} : Expr.IsPart x right → Expr.IsPart x (.operator op left right span)
  | operand {op operand span} : Expr.IsPart x operand → Expr.IsPart x (.unary op operand span)
  | inner {inner span} : Expr.IsPart x inner → Expr.IsPart x (.sub inner span)

namespace Expr.IsPart

variable {x y z : Expr}

/-- A part of a part is a part. -/
theorem trans (hxy : x.IsPart y) (hyz : y.IsPart z) : x.IsPart z := by
  -- on how the part in the middle lies in the whole: the way down to it is kept, and goes on
  induction hyz with
  | self => exact hxy
  | argument ha _ ih => exact .argument ha ih
  | left _ ih => exact .left ih
  | right _ ih => exact .right ih
  | operand _ ih => exact .operand ih
  | inner _ ih => exact .inner ih

/-- An argument of a call that is part of a tree is part of the tree. -/
theorem argument_of_call {c : Callee} {arguments : List Expr} (h : IsPart (.call c arguments) x)
    {a : Expr} (ha : a ∈ arguments) : a.IsPart x :=
  (IsPart.argument ha .self).trans h

end Expr.IsPart

/-- A walk that lies too deep ends at once, so only the others are left to look at. -/
theorem Check.shallow {α : Type} {motive : Nat → α → Prop}
    (deep : ∀ depth a, maxDepth < depth → motive depth a) {depth : Nat} {a : α}
    (h : depth ≤ maxDepth → motive depth a) : motive depth a := by
  rcases Nat.lt_or_ge maxDepth depth with hdeep | hdepth
  · exact deep depth a hdeep
  · exact h hdepth

/-- Induction along a walk: a tree that lies too deep is one case whatever it is, and the parts of
any other lie one level deeper. -/
@[elab_as_elim]
theorem Check.induction {motive : Nat → Expr → Prop}
    (deep : ∀ depth e, maxDepth < depth → motive depth e)
    (call : ∀ depth c arguments, depth ≤ maxDepth →
      (∀ a ∈ arguments, motive (depth + 1) a) → motive depth (.call c arguments))
    (leaf : ∀ depth e, depth ≤ maxDepth → e.isLeaf = true → motive depth e)
    (operator : ∀ depth op left right span, depth ≤ maxDepth → motive (depth + 1) left →
      motive (depth + 1) right → motive depth (.operator op left right span))
    (unary : ∀ depth op operand span, depth ≤ maxDepth → motive (depth + 1) operand →
      motive depth (.unary op operand span))
    (sub : ∀ depth inner span, depth ≤ maxDepth → motive (depth + 1) inner →
      motive depth (.sub inner span)) (depth : Nat) (e : Expr) : motive depth e := by
  -- the walk goes down the tree, so the depth has to be any
  induction e using Expr.induction generalizing depth with
  | call c arguments ih =>
    exact shallow deep fun hdepth => call depth c arguments hdepth fun a ha => ih a ha (depth + 1)
  | leaf e he => exact shallow deep fun hdepth => leaf depth e hdepth he
  | operator op left right span ihleft ihright =>
    exact shallow deep fun hdepth =>
      operator depth op left right span hdepth (ihleft (depth + 1)) (ihright (depth + 1))
  | unary op operand span ih =>
    exact shallow deep fun hdepth => unary depth op operand span hdepth (ih (depth + 1))
  | sub inner span ih =>
    exact shallow deep fun hdepth => sub depth inner span hdepth (ih (depth + 1))

/-- A placeholder is a node of its own. -/
theorem Expr.isEmptyPlaceholder_iff {e : Expr} :
    e.isEmptyPlaceholder = true ↔ ∃ span, e = .empty span := by
  cases e <;> simp [Expr.isEmptyPlaceholder]

/-- A tree has a name exactly if it is one. -/
theorem Expr.identifier?_isSome_iff {e : Expr} :
    e.identifier?.isSome = true ↔ ∃ name span, e = .identifier name span := by
  cases e <;> simp [Expr.identifier?]

/-! ## Findings -/

namespace Findings

@[simp] theorem diagnostics_append (a b : Findings) :
    (a ++ b).diagnostics = a.diagnostics ++ b.diagnostics := rfl

@[simp] theorem objectVariables_append (a b : Findings) :
    (a ++ b).objectVariables = a.objectVariables ++ b.objectVariables := rfl

@[simp] theorem diagnostics_none : none.diagnostics = [] := rfl

@[simp] theorem objectVariables_none : none.objectVariables = [] := rfl

@[simp] theorem diagnostics_ofProblem (p : Problem) (span : Span) :
    (ofProblem p span).diagnostics = [p.at span] := rfl

@[simp] theorem objectVariables_ofProblem (p : Problem) (span : Span) :
    (ofProblem p span).objectVariables = [] := rfl

@[simp] theorem diagnostics_ofVariable (owner : Option String) (name : String) (span : Span) :
    (ofVariable owner name span).diagnostics = [] := by
  cases owner <;> rfl

end Findings

namespace Check

/-- The setting that `validate` checks in. -/
def setting (registry : Registry) (scope : ObjectScope) : Setting :=
  ⟨registry, scope, Likeness.jaroWinkler⟩

/-! ## Before the arguments of a call -/

/-- The type of a call: what its function declares, if the function is known. -/
def callType (s : Setting) (c : Callee) : ValueType :=
  match resolve s c with
  | some signature => signature.returnType
  | none => .unknown

/-- The parameters that a number of arguments of a call are paired with, if they are looked at: the
function is known, the object has what it requires, and the number is in range. -/
def argumentParameters? (s : Setting) (c : Callee) (count : Nat) : Option (List Parameter) :=
  match resolve s c with
  | none => none
  | some signature =>
    if missingCapability? s c signature = none
        ∧ signature.minArguments c.receiverSlots ≤ count
        ∧ count ≤ signature.maxArguments c.receiverSlots then
      some (signature.written c.receiverSlots)
    else none

/-- Nothing is wrong with a number of arguments exactly if it is in range. -/
theorem arityDiagnostics_eq_nil_iff (signature : Signature) (c : Callee) (arguments : List Expr) :
    arityDiagnostics signature c arguments = [] ↔
      signature.minArguments c.receiverSlots ≤ arguments.length
        ∧ arguments.length ≤ signature.maxArguments c.receiverSlots := by
  unfold arityDiagnostics
  by_cases hmin : arguments.length < signature.minArguments c.receiverSlots
  · simp only [if_pos hmin, List.cons_ne_nil, false_iff]
    omega
  · simp only [if_neg hmin]
    -- an argument stands behind the last parameter exactly if there are more arguments than these
    rcases hexcess : arguments[signature.maxArguments c.receiverSlots]? with _ | excess
    · have hmax := List.getElem?_eq_none_iff.mp hexcess
      simp only [true_iff]
      omega
    · obtain ⟨hmax, -⟩ := List.getElem?_eq_some_iff.mp hexcess
      simp only [List.cons_ne_nil, false_iff]
      omega

/-- The type of a call is settled before its arguments, and none of them matters to it. -/
theorem checkCall_type (s : Setting) (expected : ValueType) (c : Callee) (arguments : List Expr) :
    (checkCall s expected c arguments).type = callType s c := by
  unfold checkCall callType
  rcases resolve s c with _ | signature
  · rfl
  · dsimp only
    rcases missingCapability? s c signature with _ | capability
    · dsimp only
      split <;> rfl
    · rfl

/-- Whether the arguments are looked at depends on their number alone. -/
theorem checkCall_parameters (s : Setting) (expected : ValueType) (c : Callee)
    (arguments : List Expr) :
    (checkCall s expected c arguments).parameters
      = argumentParameters? s c arguments.length := by
  unfold checkCall argumentParameters?
  rcases resolve s c with _ | signature
  · rfl
  · dsimp only
    rcases missingCapability? s c signature with _ | capability
    · have hiff := arityDiagnostics_eq_nil_iff signature c arguments
      rcases harity : arityDiagnostics signature c arguments with _ | ⟨d, rest⟩
      · simp only [true_and, if_pos (hiff.mp harity)]
      · have hout := mt hiff.mpr (by simp [harity])
        simp only [true_and, if_neg hout]
    · simp

/-! ## Judging an argument as a whole notes no variable -/

/-- A placeholder can only lack an argument. -/
theorem objectVariables_placeholderFindings (p : Parameter) (span : Span) :
    (placeholderFindings p span).objectVariables = [] := by
  unfold placeholderFindings
  split <;> rfl

/-- The category of a parameter can only be at odds with an argument. -/
theorem objectVariables_categoryFindings (p : Parameter) (a : Expr) :
    (categoryFindings p a).objectVariables = [] := by
  unfold categoryFindings
  split
  · rfl
  · split <;> rfl
  · rfl

/-! ## Types and diagnostics, without the owner of variables -/

/-- The type of a tree at a depth. -/
def typeAt (s : Setting) (expected : ValueType) (depth : Nat) (e : Expr) : ValueType :=
  (walk s expected depth none e).1

/-- What is wrong with a tree at a depth. -/
def diagnosticsAt (s : Setting) (expected : ValueType) (depth : Nat) (e : Expr) :
    List Diagnostic :=
  (walk s expected depth none e).2.diagnostics

/-- What is wrong with an argument, for its parameter. The depth is that of the call. -/
def argumentDiagnostics (s : Setting) (depth : Nat) (p : Parameter) (a : Expr) :
    List Diagnostic :=
  if a.isEmptyPlaceholder then (placeholderFindings p a.span).diagnostics
  else diagnosticsAt s p.type (depth + 1) a ++ (categoryFindings p a).diagnostics

-- a node of the tree is opened by the equation of the walk for its constructor
attribute [local simp] walk walkArguments

/-- The owner of a variable is handed to the root only, and a variable is never wrong: so the owner
changes neither the type nor the diagnostics. -/
theorem walk_owner (s : Setting) (expected : ValueType) (depth : Nat) (owner : Option String)
    (e : Expr) :
    (walk s expected depth owner e).1 = typeAt s expected depth e
      ∧ (walk s expected depth owner e).2.diagnostics = diagnosticsAt s expected depth e := by
  unfold typeAt diagnosticsAt
  -- where the walk ends at once it does not come to see the owner
  by_cases hdeep : maxDepth < depth
  · cases e <;> simp only [walk, if_pos hdeep, and_self]
  · cases e with
    | identifier name span =>
      simp only [walk, if_neg hdeep, true_and]
      cases expected <;> simp [identifierFindings]
    -- only a variable is noted under its owner, beside the diagnostics
    | «variable» name span => simp [hdeep]
    | _ => simp only [walk, and_self]

/-- The diagnostics of a walk, whatever the owner of a variable at its root. -/
theorem walk_diagnostics (s : Setting) (expected : ValueType) (depth : Nat)
    (owner : Option String) (e : Expr) :
    (walk s expected depth owner e).2.diagnostics = diagnosticsAt s expected depth e :=
  (walk_owner s expected depth owner e).2

/-- The walk over the arguments pairs them with the parameters in order and stops where either list
ends. The object written last goes along with it but shows in no diagnostic. -/
theorem walkArguments_diagnostics (s : Setting) (depth : Nat) (lastObject : Option String)
    (parameters : List Parameter) (arguments : List Expr) :
    (walkArguments s depth lastObject parameters arguments).diagnostics
      = (parameters.zip arguments).flatMap fun pair =>
          argumentDiagnostics s depth pair.1 pair.2 := by
  induction arguments generalizing parameters lastObject with
  | nil => cases parameters <;> simp
  | cons a arguments ih =>
    cases parameters with
    | nil => simp
    | cons p parameters =>
      -- the object written last is another one behind this argument, hence the generalization
      rw [walkArguments, List.zip_cons_cons, List.flatMap_cons, argumentDiagnostics]
      by_cases hempty : a.isEmptyPlaceholder = true
      · simp only [if_pos hempty, Findings.diagnostics_append, ih]
      · simp only [if_neg hempty, Findings.diagnostics_append, walk_diagnostics, ih]

/-! ## One equation for each node -/

section Nodes

variable {s : Setting} {expected : ValueType} {depth : Nat}

/-- Below the greatest depth the walk ends with one diagnostic, at the root of what is left. -/
theorem walk_of_lt (h : maxDepth < depth) (expected : ValueType) (owner : Option String)
    (e : Expr) : walk s expected depth owner e = (.unknown, .ofProblem .nestingTooDeep e.span) := by
  cases e <;> simp only [walk, if_pos h]

/-- A call: its own checks, then its arguments, if they are looked at. -/
theorem walk_call (h : depth ≤ maxDepth) (expected : ValueType) (owner : Option String) (c : Callee)
    (arguments : List Expr) :
    walk s expected depth owner (.call c arguments)
      = (callType s c, ⟨(checkCall s expected c arguments).diagnostics, []⟩
          ++ (argumentParameters? s c arguments.length).elim .none fun parameters =>
              walkArguments s depth (receiverName c) parameters arguments) := by
  -- the checks of the call itself do not walk, so both sides have the same ones
  rw [walk, if_neg (Nat.not_lt.mpr h)]
  dsimp only
  rw [checkCall_type, checkCall_parameters]
  rcases argumentParameters? s c arguments.length with _ | parameters <;> rfl

/-- A bare name has the type that is expected of it, if it can be a variable or an object. -/
theorem walk_identifier (h : depth ≤ maxDepth) (expected : ValueType) (owner : Option String)
    (name : String) (span : Span) :
    walk s expected depth owner (.identifier name span)
      = (identifierType expected, identifierFindings expected owner name span) := by
  rw [walk, if_neg (Nat.not_lt.mpr h)]

/-- A variable is noted for the owner that the walk brings along. -/
theorem walk_variable (h : depth ≤ maxDepth) (expected : ValueType) (owner : Option String)
    (name : String) (span : Span) :
    walk s expected depth owner (.variable name span)
      = (.variable, .ofVariable owner name span) := by
  rw [walk, if_neg (Nat.not_lt.mpr h)]

/-- Both operands are walked for the type that is expected of the whole. A variable in one of them
has no owner. -/
theorem walk_operator (h : depth ≤ maxDepth) (expected : ValueType) (owner : Option String)
    (op : String) (left right : Expr) (span : Span) :
    walk s expected depth owner (.operator op left right span)
      = (join (walk s expected (depth + 1) none left).1 (walk s expected (depth + 1) none right).1,
          (walk s expected (depth + 1) none left).2
            ++ (walk s expected (depth + 1) none right).2) := by
  rw [walk, if_neg (Nat.not_lt.mpr h)]

/-- An operand is walked in place of its operator. -/
theorem walk_unary (h : depth ≤ maxDepth) (expected : ValueType) (owner : Option String)
    (op : String) (operand : Expr) (span : Span) :
    walk s expected depth owner (.unary op operand span)
      = walk s expected (depth + 1) none operand := by
  rw [walk, if_neg (Nat.not_lt.mpr h)]

theorem walk_sub (h : depth ≤ maxDepth) (expected : ValueType) (owner : Option String)
    (inner : Expr) (span : Span) :
    walk s expected depth owner (.sub inner span) = walk s expected (depth + 1) none inner := by
  rw [walk, if_neg (Nat.not_lt.mpr h)]

/-- Of what lies too deep, nothing but its depth is reported. -/
theorem diagnosticsAt_of_lt (h : maxDepth < depth) (e : Expr) :
    diagnosticsAt s expected depth e = [Problem.nestingTooDeep.at e.span] := by
  rw [diagnosticsAt, walk_of_lt h, Findings.diagnostics_ofProblem]

theorem typeAt_of_lt (h : maxDepth < depth) (e : Expr) :
    typeAt s expected depth e = .unknown := by
  rw [typeAt, walk_of_lt h]

/-- The diagnostics of a call: those of the call itself, then those of each argument that is looked
at, with its parameter. -/
theorem diagnosticsAt_call (h : depth ≤ maxDepth) (c : Callee) (arguments : List Expr) :
    diagnosticsAt s expected depth (.call c arguments)
      = (checkCall s expected c arguments).diagnostics
        ++ (((argumentParameters? s c arguments.length).getD []).zip arguments).flatMap
            fun pair => argumentDiagnostics s depth pair.1 pair.2 := by
  rw [diagnosticsAt, walk_call h, Findings.diagnostics_append]
  rcases argumentParameters? s c arguments.length with _ | parameters
  · simp
  · rw [Option.elim_some, walkArguments_diagnostics, Option.getD_some]

/-- A call has the type that its function declares, even if its arguments are wrong. -/
theorem typeAt_call (h : depth ≤ maxDepth) (c : Callee) (arguments : List Expr) :
    typeAt s expected depth (.call c arguments) = callType s c := by
  rw [typeAt, walk_call h]

/-- Nothing is wrong with a node that has no parts: a name is judged by the call that it is an
argument of. -/
theorem diagnosticsAt_leaf (h : depth ≤ maxDepth) {e : Expr} (he : e.isLeaf = true) :
    diagnosticsAt s expected depth e = [] := by
  unfold diagnosticsAt
  cases e with
  | identifier name span =>
    rw [walk_identifier h]
    -- a bare name may be noted as a variable, but is never wrong
    cases expected <;> rfl
  | call | operator | unary | sub => exact absurd he Bool.false_ne_true
  | _ =>
    simp only [walk, if_neg (Nat.not_lt.mpr h)]
    rfl

/-- The left operand is reported on before the right one. -/
theorem diagnosticsAt_operator (h : depth ≤ maxDepth) (op : String) (left right : Expr)
    (span : Span) :
    diagnosticsAt s expected depth (.operator op left right span)
      = diagnosticsAt s expected (depth + 1) left
        ++ diagnosticsAt s expected (depth + 1) right := by
  rw [diagnosticsAt, walk_operator h, Findings.diagnostics_append, diagnosticsAt, diagnosticsAt]

theorem typeAt_operator (h : depth ≤ maxDepth) (op : String) (left right : Expr) (span : Span) :
    typeAt s expected depth (.operator op left right span)
      = join (typeAt s expected (depth + 1) left) (typeAt s expected (depth + 1) right) := by
  rw [typeAt, walk_operator h, typeAt, typeAt]

/-- A sign adds nothing to what is wrong with its operand. -/
theorem diagnosticsAt_unary (h : depth ≤ maxDepth) (op : String) (operand : Expr)
    (span : Span) :
    diagnosticsAt s expected depth (.unary op operand span)
      = diagnosticsAt s expected (depth + 1) operand := by
  rw [diagnosticsAt, walk_unary h, diagnosticsAt]

theorem typeAt_unary (h : depth ≤ maxDepth) (op : String) (operand : Expr) (span : Span) :
    typeAt s expected depth (.unary op operand span)
      = typeAt s expected (depth + 1) operand := by
  rw [typeAt, walk_unary h, typeAt]

theorem diagnosticsAt_sub (h : depth ≤ maxDepth) (inner : Expr) (span : Span) :
    diagnosticsAt s expected depth (.sub inner span)
      = diagnosticsAt s expected (depth + 1) inner := by
  rw [diagnosticsAt, walk_sub h, diagnosticsAt]

theorem typeAt_sub (h : depth ≤ maxDepth) (inner : Expr) (span : Span) :
    typeAt s expected depth (.sub inner span) = typeAt s expected (depth + 1) inner := by
  rw [typeAt, walk_sub h, typeAt]

end Nodes

end Check

end EventSheet
