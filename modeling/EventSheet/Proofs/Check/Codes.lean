import EventSheet.Proofs.Check.Acceptance
import EventSheet.Proofs.Check.Context

/-!
Which check a diagnostic comes from.

A walk reports a tree that lies too deep, what is wrong with a call before its arguments, an
argument that is left out, and an argument whose form does not suit its parameter. These four have
no code in common, so a code tells which of them spoke. What holds of the diagnostics of each holds
of all that a walk finds (`Check.forall_diagnosticsAt`).

Parameters of no category are the first use: they are reported only if a call means a function that
has one among its written parameters (`Check.code_ne_unknownParameterType`), and then some call does
report it (`Check.unknownParameterType_mem_diagnosticsAt`).
-/

set_option autoImplicit false

namespace EventSheet

/-- Whether a code belongs to the checks of a call before its arguments. -/
def Code.isOfCall : Code → Bool
  | .unknownFunction | .unsupportedCapability | .returnTypeMismatch _ | .tooFewArguments
  | .tooManyArguments => true
  | _ => false

namespace Check

variable {s : Setting}

/-! ## One check at a time -/

/-- A return type is reported exactly if it does not fit. -/
theorem mem_returnTypeDiagnostics_iff {declared expected : ValueType} {span : Span}
    {d : Diagnostic} :
    d ∈ returnTypeDiagnostics declared expected span ↔
      ∃ mismatch, mismatch? declared expected = some mismatch
        ∧ d = (Problem.returnTypeMismatch mismatch declared expected).at span := by
  unfold returnTypeDiagnostics
  rcases mismatch? declared expected with _ | mismatch <;> simp

/-- There are too few arguments, or there is a first one that is left over. -/
theorem mem_arityDiagnostics {signature : Signature} {c : Callee} {arguments : List Expr}
    {d : Diagnostic} (hd : d ∈ arityDiagnostics signature c arguments) :
    let min := signature.minArguments c.receiverSlots
    let max := signature.maxArguments c.receiverSlots
    d = (Problem.tooFewArguments min max).at c.span
      ∨ ∃ excess, arguments[max]? = some excess
        ∧ d = (Problem.tooManyArguments min max).at
          ⟨excess.span.start, Max.max c.span.stop excess.span.stop⟩ := by
  intro min max
  unfold arityDiagnostics at hd
  dsimp only at hd
  by_cases hmin : arguments.length < min
  · rw [if_pos hmin] at hd
    exact Or.inl (List.mem_singleton.mp hd)
  · rw [if_neg hmin] at hd
    rcases hexcess : arguments[max]? with _ | excess
    · rw [hexcess] at hd
      exact absurd hd List.not_mem_nil
    · rw [hexcess] at hd
      exact Or.inr ⟨excess, rfl, List.mem_singleton.mp hd⟩

/-- Which check of a call before its arguments a diagnostic comes from: its name means no function,
its object lacks a capability, or the return type or the number of arguments is wrong. -/
theorem mem_checkCall_cases {expected : ValueType} {c : Callee} {arguments : List Expr}
    {d : Diagnostic} (hd : d ∈ (checkCall s expected c arguments).diagnostics) :
    (resolve s c = none
        ∧ d = (Problem.unknownFunction c.functionName (suggestions s c)).at c.span)
      ∨ ∃ signature, resolve s c = some signature
        ∧ ((∃ capability, missingCapability? s c signature = some capability
            ∧ d = (Problem.unsupportedCapability capability).at c.objectNameSpan)
          ∨ d ∈ returnTypeDiagnostics signature.returnType expected c.span
          ∨ d ∈ arityDiagnostics signature c arguments) := by
  unfold checkCall at hd
  rcases hresolve : resolve s c with _ | signature
  · rw [hresolve] at hd
    exact Or.inl ⟨rfl, List.mem_singleton.mp hd⟩
  rw [hresolve] at hd
  dsimp only at hd
  refine Or.inr ⟨signature, rfl, ?_⟩
  -- the return type is told only where no capability is missing, and the number beside it
  rcases hmissing : missingCapability? s c signature with _ | capability
  · rw [hmissing] at hd
    dsimp only at hd
    rcases harity : arityDiagnostics signature c arguments with _ | ⟨first, rest⟩
    · rw [harity] at hd
      exact Or.inr (Or.inl hd)
    · rw [harity] at hd
      exact Or.inr (List.mem_append.mp hd)
  · rw [hmissing] at hd
    exact Or.inl ⟨capability, rfl, List.mem_singleton.mp hd⟩

/-- The checks of a call before its arguments have codes of their own, and the one of a name that no
function has belongs to the calls that mean none. -/
theorem checkCall_code {expected : ValueType} {c : Callee} {arguments : List Expr}
    {d : Diagnostic} (hd : d ∈ (checkCall s expected c arguments).diagnostics) :
    d.code.isOfCall = true ∧ (d.code = .unknownFunction ↔ resolve s c = none) := by
  rcases mem_checkCall_cases hd with ⟨hresolve, rfl⟩ | ⟨signature, hresolve, hd⟩
  · exact ⟨rfl, iff_of_true rfl hresolve⟩
  · have hsome : resolve s c ≠ none := by
      rw [hresolve]
      exact Option.some_ne_none signature
    suffices h : d.code.isOfCall = true ∧ d.code ≠ .unknownFunction from
      ⟨h.1, iff_of_false h.2 hsome⟩
    rcases hd with ⟨capability, -, rfl⟩ | hd | hd
    · exact ⟨rfl, Code.noConfusion⟩
    · obtain ⟨mismatch, -, rfl⟩ := mem_returnTypeDiagnostics_iff.mp hd
      exact ⟨rfl, Code.noConfusion⟩
    · rcases mem_arityDiagnostics hd with rfl | ⟨excess, -, rfl⟩
      · exact ⟨rfl, Code.noConfusion⟩
      · exact ⟨rfl, Code.noConfusion⟩

theorem checkCall_isOfCall {expected : ValueType} {c : Callee} {arguments : List Expr}
    {d : Diagnostic} (hd : d ∈ (checkCall s expected c arguments).diagnostics) :
    d.code.isOfCall = true :=
  (checkCall_code hd).1

/-- A placeholder is reported exactly where an argument is needed. -/
theorem mem_placeholderFindings_iff {p : Parameter} {span : Span} {d : Diagnostic} :
    d ∈ (placeholderFindings p span).diagnostics ↔
      p.isOptional = false ∧ d = (Problem.missingArgument p.type).at span := by
  unfold placeholderFindings
  cases p.isOptional <;> simp [Findings.none, Findings.ofProblem]

/-- All that can be wrong with a placeholder is that something is missing. -/
theorem placeholderFindings_code {p : Parameter} {span : Span} {d : Diagnostic}
    (hd : d ∈ (placeholderFindings p span).diagnostics) : d.code = .missingArgument := by
  obtain ⟨-, rfl⟩ := mem_placeholderFindings_iff.mp hd
  rfl

/-- What is wrong with an argument as a whole: its parameter has a tag of no category, or is one for
objects and gets something else. -/
theorem mem_categoryFindings_iff {p : Parameter} {a : Expr} {d : Diagnostic} :
    d ∈ (categoryFindings p a).diagnostics ↔
      (p.category = .unrecognized ∧ d = (Problem.unknownParameterType p.tag).at a.span)
        ∨ (p.category = .object ∧ a.identifier? = none
          ∧ d = Problem.malformedObjectParameter.at a.span) := by
  unfold categoryFindings
  cases p.category with
  | object => rcases a.identifier? with _ | name <;> simp [Findings.none, Findings.ofProblem]
  | _ => simp [Findings.none, Findings.ofProblem]

theorem categoryFindings_code {p : Parameter} {a : Expr} {d : Diagnostic}
    (hd : d ∈ (categoryFindings p a).diagnostics) :
    d.code = .unknownParameterType ∧ p.category = .unrecognized
      ∨ d.code = .malformedObjectParameter ∧ p.category = .object := by
  rcases mem_categoryFindings_iff.mp hd with ⟨hcategory, rfl⟩ | ⟨hcategory, -, rfl⟩
  · exact Or.inl ⟨rfl, hcategory⟩
  · exact Or.inr ⟨rfl, hcategory⟩

/-! ## All checks -/

/-- What holds of the diagnostics of each check holds of all that a walk finds. Only the parts that
the tree has need to be looked at. -/
theorem forall_diagnosticsAt {P : Diagnostic → Prop} {e : Expr}
    (hdeep : ∀ x : Expr, x.IsPart e → P (Problem.nestingTooDeep.at x.span))
    (hcall : ∀ expected c arguments, Expr.IsPart (.call c arguments) e →
      ∀ d ∈ (checkCall s expected c arguments).diagnostics, P d)
    (hargument : ∀ c arguments, Expr.IsPart (.call c arguments) e →
      ∀ parameters, argumentParameters? s c arguments.length = some parameters →
      ∀ p ∈ parameters, ∀ a ∈ arguments, (∀ d ∈ (placeholderFindings p a.span).diagnostics, P d)
        ∧ ∀ d ∈ (categoryFindings p a).diagnostics, P d)
    (expected : ValueType) (depth : Nat) :
    ∀ d ∈ diagnosticsAt s expected depth e, P d := by
  -- the checks are those of the whole tree `e`, of which the walk has come to a part
  suffices h : ∀ (depth : Nat) (x : Expr), x.IsPart e → ∀ expected,
      ∀ d ∈ diagnosticsAt s expected depth x, P d from h depth e .self expected
  intro depth x
  induction depth, x using Check.induction with
  | deep depth x hlt =>
    intro hpart expected d hd
    rw [diagnosticsAt_of_lt hlt] at hd
    rw [List.mem_singleton.mp hd]
    exact hdeep x hpart
  | call depth c arguments hdepth ih =>
    intro hpart expected d hd
    rw [diagnosticsAt_call hdepth] at hd
    rcases List.mem_append.mp hd with hd | hd
    · exact hcall expected c arguments hpart d hd
    · obtain ⟨⟨p, a⟩, hpair, hd⟩ := List.mem_flatMap.mp hd
      obtain ⟨hp, ha⟩ := List.of_mem_zip hpair
      rcases hparameters : argumentParameters? s c arguments.length with _ | parameters
      · rw [hparameters] at hp
        exact absurd hp List.not_mem_nil
      rw [hparameters, Option.getD_some] at hp
      obtain ⟨hplaceholder, hcategory⟩ :=
        hargument c arguments hpart parameters hparameters p hp a ha
      rw [argumentDiagnostics] at hd
      by_cases hempty : a.isEmptyPlaceholder = true
      · rw [if_pos hempty] at hd
        exact hplaceholder d hd
      · rw [if_neg hempty] at hd
        rcases List.mem_append.mp hd with hd | hd
        · exact ih a ha (.argument_of_call hpart ha) p.type d hd
        · exact hcategory d hd
  | leaf depth x hdepth hx =>
    intro _ expected d hd
    rw [diagnosticsAt_leaf hdepth hx] at hd
    exact absurd hd List.not_mem_nil
  | operator depth op left right span hdepth ihleft ihright =>
    intro hpart expected d hd
    rw [diagnosticsAt_operator hdepth] at hd
    rcases List.mem_append.mp hd with hd | hd
    · exact ihleft ((Expr.IsPart.left .self).trans hpart) expected d hd
    · exact ihright ((Expr.IsPart.right .self).trans hpart) expected d hd
  | unary depth op operand span hdepth ih =>
    intro hpart expected d hd
    rw [diagnosticsAt_unary hdepth] at hd
    exact ih ((Expr.IsPart.operand .self).trans hpart) expected d hd
  | sub depth inner span hdepth ih =>
    intro hpart expected d hd
    rw [diagnosticsAt_sub hdepth] at hd
    exact ih ((Expr.IsPart.inner .self).trans hpart) expected d hd

/-! ## Parameters of no category -/

/-- Where the functions that calls mean have written parameters of known categories only, no
parameter is reported for its category. -/
theorem code_ne_unknownParameterType
    (hknown : ∀ callee signature, Means s.registry s.scope callee signature →
      ∀ p ∈ signature.written callee.receiverSlots, p.category ≠ .unrecognized)
    (expected : ValueType) (depth : Nat) (e : Expr) :
    ∀ d ∈ diagnosticsAt s expected depth e, d.code ≠ .unknownParameterType := by
  refine forall_diagnosticsAt ?_ ?_ ?_ expected depth
  · intro x _ hcode
    cases hcode
  · -- the checks before the arguments have other codes, whatever function is meant
    intro expected callee arguments _ d hd hcode
    have hcall := checkCall_isOfCall hd
    rw [hcode] at hcall
    cases hcall
  · intro callee arguments _ parameters hparameters p hp a _
    constructor
    · intro d hd hcode
      rw [placeholderFindings_code hd] at hcode
      cases hcode
    · intro d hd hcode
      rcases categoryFindings_code hd with ⟨-, hcategory⟩ | ⟨hobject, -⟩
      · obtain ⟨signature, hmeans, -, -, -, rfl⟩ := argumentParameters?_eq_some_iff.mp hparameters
        exact hknown callee signature hmeans p hp hcategory
      · rw [hobject] at hcode
        cases hcode

/-- An argument for every written parameter. -/
def numberForEach (parameters : List Parameter) : List Expr :=
  parameters.map fun _ => .number "0" .origin

/-- In a call with an argument for every written parameter, each parameter of no category is
reported, whatever else is. -/
theorem unknownParameterType_mem_diagnosticsAt {callee : Callee} {signature : Signature}
    {p : Parameter} (hmeans : Means s.registry s.scope callee signature)
    (hcapable : Capable s.registry s.scope callee signature)
    (hp : p ∈ signature.written callee.receiverSlots) (hcategory : p.category = .unrecognized)
    {depth : Nat} (hdepth : depth ≤ maxDepth) (expected : ValueType) :
    (Problem.unknownParameterType p.tag).at .origin ∈ diagnosticsAt s expected depth
      (.call callee (numberForEach (signature.written callee.receiverSlots))) := by
  have hparameters : argumentParameters? s callee
      (numberForEach (signature.written callee.receiverSlots)).length
        = some (signature.written callee.receiverSlots) := by
    refine argumentParameters?_eq_some hmeans hcapable ?_ ?_
    · rw [numberForEach, List.length_map]
      exact List.length_filter_le _ _
    · exact Nat.le_of_eq (List.length_map _)
  -- there are as many arguments as parameters, so pairing leaves out none
  have hpair : (p, .number "0" .origin) ∈ (signature.written callee.receiverSlots).zip
      (numberForEach (signature.written callee.receiverSlots)) := by
    rw [numberForEach, ← List.map_id (signature.written _), List.map_map, List.zip_map']
    exact List.mem_map_of_mem hp
  rw [diagnosticsAt_call hdepth, hparameters, Option.getD_some, List.mem_append, List.mem_flatMap]
  refine Or.inr ⟨_, hpair, ?_⟩
  rw [argumentDiagnostics_of_notEmpty _ _ rfl, categoryFindings, hcategory]
  exact List.mem_append_right _ (List.mem_singleton_self _)

end Check

end EventSheet
