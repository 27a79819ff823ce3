import EventSheet.Proofs.Check.Walk
import EventSheet.Proofs.Registry.Lookup

/-!
Which trees nothing is wrong with.

`Accepted` says when a tree is in order, rule by rule and without a walk: it knows no diagnostics,
no order of checks and no state. The checker agrees with it on every tree, in both directions
(`validate_eq_nil_iff_accepted`). What is left out of the rules is as telling as what is in them:
the type that an argument is found to have occurs nowhere.
-/

set_option autoImplicit false

namespace EventSheet

/-! ## The function of a call -/

/-- The owner whose functions a call may name, by what is written in front of its name. An
undeclared object or behavior is taken to be of the type that stands for all. -/
inductive Receiver (scope : ObjectScope) (c : Callee) : Owner → Prop where
  | global : c.behaviorName = "" → c.objectName = "" → Receiver scope c .global
  | object : c.behaviorName = "" → c.objectName ≠ "" →
      Receiver scope c (.object ((scope.objectType? c.objectName).getD ""))
  | behavior : c.behaviorName ≠ "" →
      Receiver scope c (.behavior ((scope.behaviorType? c.objectName c.behaviorName).getD ""))

/-- What is written in front of a call fills as many parameters as its owners' sort says. -/
theorem Receiver.receiverSlots {scope : ObjectScope} {c : Callee} {o : Owner}
    (h : Receiver scope c o) : o.sort.receiverSlots = c.receiverSlots := by
  unfold Callee.receiverSlots
  cases h with
  | global hbehavior hobject => simp [hbehavior, hobject, Owner.sort, OwnerSort.receiverSlots]
  | object hbehavior hobject => simp [hbehavior, hobject, Owner.sort, OwnerSort.receiverSlots]
  | behavior hbehavior => simp [hbehavior, Owner.sort, OwnerSort.receiverSlots]

/-- Arguments are written for the parameters that neither a receiver fills nor generated code
supplies, in the order in which they are declared. -/
theorem Signature.written_eq (s : Signature) (receiverSlots : Nat) :
    s.written receiverSlots = (s.parameters.zipIdx.filter fun e =>
      receiverSlots ≤ e.2 && !e.1.isCodeOnly).map Prod.fst := by
  -- behind the first parameter the indices count from one, so they may count from anywhere
  have hfrom : ∀ (parameters : List Parameter) (start : Nat),
      (parameters.drop (receiverSlots - start)).filter (fun p => !p.isCodeOnly)
        = ((parameters.zipIdx start).filter fun e =>
            receiverSlots ≤ e.2 && !e.1.isCodeOnly).map Prod.fst := by
    intro parameters
    induction parameters with
    | nil => simp
    | cons p parameters ih =>
      intro start
      rw [List.zipIdx_cons]
      by_cases hfilled : receiverSlots ≤ start
      · have hnone : receiverSlots - start = 0 ∧ receiverSlots - (start + 1) = 0 := by omega
        have hrest := ih (start + 1)
        rw [hnone.2, List.drop_zero] at hrest
        rw [hnone.1, List.drop_zero]
        cases hcode : p.isCodeOnly <;> simp [hcode, hfilled, hrest]
      · have hmore : receiverSlots - start = receiverSlots - (start + 1) + 1 := by omega
        rw [hmore, List.drop_succ_cons, ih (start + 1)]
        simp [hfilled]
  exact hfrom s.parameters 0

/-- The function that a call means: the receiver's own one of that name, or one that every receiver
of its sort has. -/
inductive Means (registry : Registry) (scope : ObjectScope) (c : Callee) (signature : Signature) :
    Prop where
  | own {owner} : Receiver scope c owner →
      registry.declared? .expression owner c.functionName = some signature →
      Means registry scope c signature
  | base {owner} : Receiver scope c owner →
      registry.declared? .expression owner c.functionName = none →
      registry.declared? .expression owner.base c.functionName = some signature →
      Means registry scope c signature

/-- The object of a call has the capability that a function requires, as far as its type is
known. -/
def Capable (registry : Registry) (scope : ObjectScope) (c : Callee) (signature : Signature) :
    Prop :=
  ∀ capability type t, signature.requiredCapability = some capability → capability ≠ "" →
    c.objectName ≠ "" → scope.objectType? c.objectName = some type → type ≠ "" →
    registry.object? type = some t → t.supports capability = true

/-- A declared type fits an expected one. -/
inductive Fits : ValueType → ValueType → Prop where
  | unknownDeclared (expected : ValueType) : Fits .unknown expected
  | unknownExpected (declared : ValueType) : Fits declared .unknown
  | same (type : ValueType) : Fits type type
  | number : Fits .number .numberOrString
  | string : Fits .string .numberOrString

/-! ## The rules -/

mutual

/-- A tree at a depth is in order where a type is expected. -/
inductive Accepted (registry : Registry) (scope : ObjectScope) : Nat → ValueType → Expr → Prop where
  | leaf {depth expected e} : depth ≤ maxDepth → e.isLeaf = true →
      Accepted registry scope depth expected e
  | operator {depth expected op left right span} : depth ≤ maxDepth →
      Accepted registry scope (depth + 1) expected left →
      Accepted registry scope (depth + 1) expected right →
      Accepted registry scope depth expected (.operator op left right span)
  | unary {depth expected op operand span} : depth ≤ maxDepth →
      Accepted registry scope (depth + 1) expected operand →
      Accepted registry scope depth expected (.unary op operand span)
  | sub {depth expected inner span} : depth ≤ maxDepth →
      Accepted registry scope (depth + 1) expected inner →
      Accepted registry scope depth expected (.sub inner span)
  | call {depth expected c arguments signature} : depth ≤ maxDepth →
      Means registry scope c signature →
      Capable registry scope c signature →
      Fits signature.returnType expected →
      ((signature.written c.receiverSlots).filter fun p => !p.isOptional).length
        ≤ arguments.length →
      arguments.length ≤ (signature.written c.receiverSlots).length →
      ArgumentsAccepted registry scope depth (signature.written c.receiverSlots) arguments →
      Accepted registry scope depth expected (.call c arguments)

/-- The arguments of a call at a depth are in order, each for its parameter. -/
inductive ArgumentsAccepted (registry : Registry) (scope : ObjectScope) :
    Nat → List Parameter → List Expr → Prop where
  | nil {depth parameters} : ArgumentsAccepted registry scope depth parameters []
  | omitted {depth p parameters span arguments} : p.isOptional = true →
      ArgumentsAccepted registry scope depth parameters arguments →
      ArgumentsAccepted registry scope depth (p :: parameters) (.empty span :: arguments)
  | written {depth p parameters a arguments} : a.isEmptyPlaceholder = false →
      Accepted registry scope (depth + 1) p.type a →
      p.category ≠ .unrecognized →
      (p.category = .object → ∃ name span, a = .identifier name span) →
      ArgumentsAccepted registry scope depth parameters arguments →
      ArgumentsAccepted registry scope depth (p :: parameters) (a :: arguments)

end

/-! ## Inversion

The rule for nodes without parts speaks of any tree, so `cases` offers it for every node; here it is
ruled out once. -/

section Inversion

variable {registry : Registry} {scope : ObjectScope} {depth : Nat} {expected : ValueType}

/-- No rule accepts a tree that lies too deep. -/
theorem Accepted.le_maxDepth {e : Expr} (h : Accepted registry scope depth expected e) :
    depth ≤ maxDepth := by
  cases h <;> assumption

/-- A call is accepted if its function, its object, its type, its number of arguments and its
arguments are. -/
theorem accepted_call_iff {c : Callee} {arguments : List Expr} :
    Accepted registry scope depth expected (.call c arguments) ↔
      depth ≤ maxDepth ∧ ∃ signature, Means registry scope c signature
        ∧ Capable registry scope c signature ∧ Fits signature.returnType expected
        ∧ signature.minArguments c.receiverSlots ≤ arguments.length
        ∧ arguments.length ≤ signature.maxArguments c.receiverSlots
        ∧ ArgumentsAccepted registry scope depth (signature.written c.receiverSlots)
            arguments := by
  constructor
  · intro h
    cases h with
    | leaf _ he => exact absurd he Bool.false_ne_true
    | call hdepth hmeans hcapable hfits hmin hmax harguments =>
      exact ⟨hdepth, _, hmeans, hcapable, hfits, hmin, hmax, harguments⟩
  · rintro ⟨hdepth, signature, hmeans, hcapable, hfits, hmin, hmax, harguments⟩
    exact .call hdepth hmeans hcapable hfits hmin hmax harguments

/-- An operator is accepted if both sides are. -/
theorem accepted_operator_iff {op : String} {left right : Expr} {span : Span} :
    Accepted registry scope depth expected (.operator op left right span) ↔
      depth ≤ maxDepth ∧ Accepted registry scope (depth + 1) expected left
        ∧ Accepted registry scope (depth + 1) expected right := by
  constructor
  · intro h
    cases h with
    | leaf _ he => exact absurd he Bool.false_ne_true
    | operator hdepth hleft hright => exact ⟨hdepth, hleft, hright⟩
  · rintro ⟨hdepth, hleft, hright⟩
    exact .operator hdepth hleft hright

/-- A sign is accepted if its operand is. -/
theorem accepted_unary_iff {op : String} {operand : Expr} {span : Span} :
    Accepted registry scope depth expected (.unary op operand span) ↔
      depth ≤ maxDepth ∧ Accepted registry scope (depth + 1) expected operand := by
  constructor
  · intro h
    cases h with
    | leaf _ he => exact absurd he Bool.false_ne_true
    | unary hdepth hoperand => exact ⟨hdepth, hoperand⟩
  · rintro ⟨hdepth, hoperand⟩
    exact .unary hdepth hoperand

/-- Parentheses are accepted if what is inside is. -/
theorem accepted_sub_iff {inner : Expr} {span : Span} :
    Accepted registry scope depth expected (.sub inner span) ↔
      depth ≤ maxDepth ∧ Accepted registry scope (depth + 1) expected inner := by
  constructor
  · intro h
    cases h with
    | leaf _ he => exact absurd he Bool.false_ne_true
    | sub hdepth hinner => exact ⟨hdepth, hinner⟩
  · rintro ⟨hdepth, hinner⟩
    exact .sub hdepth hinner

end Inversion

/-! ## Each check against its rule -/

namespace Check

variable (s : Setting) (c : Callee) (signature : Signature)

/-- The owner that a call is resolved for is the one that is written in front of it. -/
theorem receiver_owner : Receiver s.scope c (owner s c) := by
  unfold owner objectType? behaviorType?
  by_cases hbehavior : c.behaviorName = ""
  · rw [if_pos hbehavior]
    by_cases hobject : c.objectName = ""
    · rw [if_pos hobject]
      exact .global hbehavior hobject
    · rw [if_neg hobject]
      exact .object hbehavior hobject
  · rw [if_neg hbehavior]
    exact .behavior hbehavior

/-- What is written selects one owner only. -/
theorem receiver_iff {o : Owner} : Receiver s.scope c o ↔ o = owner s c := by
  constructor
  · intro h
    cases h with
    | global hbehavior hobject => simp [owner, objectType?, behaviorType?, hbehavior, hobject,
        Owner.ofReceivers]
    | object hbehavior hobject => simp [owner, objectType?, behaviorType?, hbehavior, hobject,
        Owner.ofReceivers]
    | behavior hbehavior => simp [owner, behaviorType?, hbehavior, Owner.ofReceivers]
  · rintro rfl
    exact receiver_owner s c

/-- A call is resolved to the function that it means. -/
theorem resolve_eq_some_iff :
    resolve s c = some signature ↔ Means s.registry s.scope c signature := by
  unfold resolve
  rw [Registry.lookup_eq_some_iff]
  constructor
  · rintro (hown | ⟨hnone, hbase⟩)
    · exact .own (receiver_owner s c) hown
    · exact .base (receiver_owner s c) hnone hbase
  · intro h
    cases h with
    | own hreceiver hown =>
      rw [receiver_iff] at hreceiver
      subst hreceiver
      exact Or.inl hown
    | base hreceiver hnone hbase =>
      rw [receiver_iff] at hreceiver
      subst hreceiver
      exact Or.inr ⟨hnone, hbase⟩

variable {s c} in
/-- A call is not resolved exactly if it means no function. -/
theorem resolve_eq_none_iff :
    resolve s c = none ↔ ∀ signature, ¬ Means s.registry s.scope c signature := by
  rw [Option.eq_none_iff_forall_ne_some]
  apply forall_congr'
  intro signature
  rw [Ne, resolve_eq_some_iff]

/-- No capability is missing exactly if the object is capable. -/
theorem missingCapability?_eq_none_iff :
    missingCapability? s c signature = none ↔ Capable s.registry s.scope c signature := by
  constructor
  · intro hnone capability type t hrequired hcapability hobject htype hne ht
    have hcap : signature.capability? = some capability := by
      simp [Signature.capability?, hrequired, hcapability]
    have hobj : objectType? s c = some type := by
      simp [objectType?, hobject, htype]
    rcases hsupports : t.supports capability with _ | _
    · simp [missingCapability?, hcap, hobj, hne, ht, hsupports] at hnone
    · rfl
  · intro hcapable
    unfold missingCapability?
    rcases hcap : signature.capability? with _ | capability
    · rfl
    rcases hobj : objectType? s c with _ | type
    · rfl
    by_cases hne : type = ""
    · simp [hne]
    rcases ht : s.registry.object? type with _ | t
    · simp [hne, ht]
    obtain ⟨hrequired, hcapability⟩ := Option.filter_eq_some_iff.mp hcap
    have hobject : c.objectName ≠ "" := by
      intro h
      simp [objectType?, h] at hobj
    -- an undeclared object has the base type, which is excluded here, so this one is declared
    have htype : s.scope.objectType? c.objectName = some type := by
      simp only [objectType?, if_neg hobject, Option.some.injEq] at hobj
      rcases hdeclared : s.scope.objectType? c.objectName with _ | declared
      · rw [hdeclared, Option.getD_none] at hobj
        exact absurd hobj.symm hne
      · rw [hdeclared, Option.getD_some] at hobj
        rw [hobj]
    have hsupports := hcapable capability type t hrequired (by simpa using hcapability) hobject
      htype hne ht
    simp [hne, ht, hsupports]

/-- A return type is reported exactly if it does not fit. -/
theorem mismatch?_eq_none_iff (declared expected : ValueType) :
    mismatch? declared expected = none ↔ Fits declared expected := by
  constructor
  · intro h
    cases declared <;> cases expected <;> simp [mismatch?] at h <;> constructor
  · intro h
    cases h with
    | unknownDeclared => rfl
    | unknownExpected => cases declared <;> rfl
    | same => cases declared <;> rfl
    | number => rfl
    | string => rfl

/-- Nothing is wrong with a call before its arguments exactly if its function is known, its object
has what the function requires, the return type fits and the number of arguments is in range. -/
theorem checkCall_diagnostics_eq_nil_iff (expected : ValueType) (arguments : List Expr) :
    (checkCall s expected c arguments).diagnostics = [] ↔
      ∃ signature, Means s.registry s.scope c signature ∧ Capable s.registry s.scope c signature
        ∧ Fits signature.returnType expected
        ∧ signature.minArguments c.receiverSlots ≤ arguments.length
        ∧ arguments.length ≤ signature.maxArguments c.receiverSlots := by
  unfold checkCall
  constructor
  · intro h
    -- the checks one by one: where one of them fails there is a diagnostic
    rcases hresolve : resolve s c with _ | signature
    · simp [hresolve] at h
    rcases hmissing : missingCapability? s c signature with _ | capability
    · rcases harity : arityDiagnostics signature c arguments with _ | ⟨d, rest⟩
      · simp only [hresolve, hmissing, harity, returnTypeDiagnostics] at h
        have hfits : mismatch? signature.returnType expected = none := by
          rcases hm : mismatch? signature.returnType expected with _ | m
          · rfl
          · simp [hm] at h
        exact ⟨signature, (resolve_eq_some_iff s c signature).mp hresolve,
          (missingCapability?_eq_none_iff s c signature).mp hmissing,
          (mismatch?_eq_none_iff _ _).mp hfits,
          (arityDiagnostics_eq_nil_iff signature c arguments).mp harity⟩
      · simp [hresolve, hmissing, harity] at h
    · simp [hresolve, hmissing] at h
  · -- where all checks pass, each of them gives nothing
    rintro ⟨signature, hmeans, hcapable, hfits, harity⟩
    have hresolve := (resolve_eq_some_iff s c signature).mpr hmeans
    have hmissing := (missingCapability?_eq_none_iff s c signature).mpr hcapable
    have hmismatch := (mismatch?_eq_none_iff _ _).mpr hfits
    have hnone := (arityDiagnostics_eq_nil_iff signature c arguments).mpr harity
    simp only [hresolve, hmissing, hnone, returnTypeDiagnostics, hmismatch]

/-- Nothing is wrong with an argument exactly if it is a placeholder where one may stand, or a tree
in order whose form suits the parameter. -/
theorem argumentDiagnostics_eq_nil_iff (depth : Nat) (p : Parameter) (a : Expr) :
    argumentDiagnostics s depth p a = [] ↔
      (a.isEmptyPlaceholder = true ∧ p.isOptional = true)
        ∨ (a.isEmptyPlaceholder = false ∧ diagnosticsAt s p.type (depth + 1) a = []
          ∧ p.category ≠ .unrecognized
          ∧ (p.category = .object → ∃ name span, a = .identifier name span)) := by
  unfold argumentDiagnostics
  by_cases hempty : a.isEmptyPlaceholder = true
  · rw [if_pos hempty, placeholderFindings]
    cases p.isOptional <;> simp [hempty]
  · rw [if_neg hempty, List.append_eq_nil_iff, categoryFindings]
    cases hcategory : p.category with
    | object =>
      rw [← Expr.identifier?_isSome_iff]
      cases hname : a.identifier? <;> simp [hempty]
    | _ => simp [hempty]

/-! ## Every tree -/

section Trees

variable {s}

/-- The rules for arguments, read off the pairs of parameters and arguments. -/
theorem argumentsAccepted_iff {depth : Nat} {parameters : List Parameter} {arguments : List Expr}
    (hlength : arguments.length ≤ parameters.length)
    (ih : ∀ a ∈ arguments, ∀ expected, diagnosticsAt s expected (depth + 1) a = [] ↔
      Accepted s.registry s.scope (depth + 1) expected a) :
    (parameters.zip arguments).flatMap
        (fun pair => argumentDiagnostics s depth pair.1 pair.2) = [] ↔
      ArgumentsAccepted s.registry s.scope depth parameters arguments := by
  induction arguments generalizing parameters with
  | nil =>
    rw [List.zip_nil_right, List.flatMap_nil]
    exact ⟨fun _ => .nil, fun _ => rfl⟩
  | cons a arguments iharguments =>
    cases parameters with
    | nil =>
      -- an argument behind the last parameter would go unseen, but then there are too many
      exact absurd hlength (Nat.not_succ_le_zero _)
    | cons p parameters =>
      have hrest := iharguments (Nat.le_of_succ_le_succ hlength)
        (fun b hb => ih b (List.mem_cons_of_mem a hb))
      have ha := ih a List.mem_cons_self p.type
      rw [List.zip_cons_cons, List.flatMap_cons, List.append_eq_nil_iff, hrest,
        argumentDiagnostics_eq_nil_iff, ha]
      constructor
      · rintro ⟨⟨hempty, hoptional⟩ | ⟨hempty, haccepted, hknown, hname⟩, harguments⟩
        · obtain ⟨span, rfl⟩ := Expr.isEmptyPlaceholder_iff.mp hempty
          exact .omitted hoptional harguments
        · exact .written hempty haccepted hknown hname harguments
      · intro h
        cases h with
        | omitted hoptional harguments => exact ⟨Or.inl ⟨rfl, hoptional⟩, harguments⟩
        | written hempty haccepted hknown hname harguments =>
          exact ⟨Or.inr ⟨hempty, haccepted, hknown, hname⟩, harguments⟩

/-- The parameters that the arguments of a call are paired with, where the checks of the call
pass. -/
theorem argumentParameters?_eq_some {c : Callee} {signature : Signature} {count : Nat}
    (hmeans : Means s.registry s.scope c signature)
    (hcapable : Capable s.registry s.scope c signature)
    (hmin : signature.minArguments c.receiverSlots ≤ count)
    (hmax : count ≤ signature.maxArguments c.receiverSlots) :
    argumentParameters? s c count = some (signature.written c.receiverSlots) := by
  have hresolve := (resolve_eq_some_iff s c signature).mpr hmeans
  have hmissing := (missingCapability?_eq_none_iff s c signature).mpr hcapable
  simp only [argumentParameters?, hresolve, hmissing, hmin, hmax, and_self, if_true]

/-- Arguments are looked at exactly if the checks of the call pass, and they are paired with the
written parameters of the function that the call means. -/
theorem argumentParameters?_eq_some_iff {c : Callee} {count : Nat} {parameters : List Parameter} :
    argumentParameters? s c count = some parameters ↔
      ∃ signature, Means s.registry s.scope c signature
        ∧ Capable s.registry s.scope c signature
        ∧ signature.minArguments c.receiverSlots ≤ count
        ∧ count ≤ signature.maxArguments c.receiverSlots
        ∧ parameters = signature.written c.receiverSlots := by
  constructor
  · intro h
    unfold argumentParameters? at h
    rcases hresolve : resolve s c with _ | signature
    · simp [hresolve] at h
    simp only [hresolve, Option.ite_none_right_eq_some, Option.some.injEq] at h
    obtain ⟨⟨hmissing, hmin, hmax⟩, hwritten⟩ := h
    exact ⟨signature, (resolve_eq_some_iff s c signature).mp hresolve,
      (missingCapability?_eq_none_iff s c signature).mp hmissing, hmin, hmax, hwritten.symm⟩
  · rintro ⟨signature, hmeans, hcapable, hmin, hmax, rfl⟩
    exact argumentParameters?_eq_some hmeans hcapable hmin hmax

/-- The walk finds nothing wrong with a tree exactly if the rules accept it, at every depth and
wherever the tree stands. -/
theorem diagnosticsAt_eq_nil_iff (expected : ValueType) (depth : Nat) (e : Expr) :
    diagnosticsAt s expected depth e = [] ↔ Accepted s.registry s.scope depth expected e := by
  induction depth, e using Check.induction generalizing expected with
  | deep depth e hdeep =>
    rw [diagnosticsAt_of_lt hdeep]
    constructor
    · intro h
      exact absurd h (List.cons_ne_nil _ _)
    · intro h
      exact absurd h.le_maxDepth (Nat.not_le.mpr hdeep)
  | call depth c arguments hdepth ih =>
    -- the rules of a call have passed before its arguments are looked at: they say which parameters
    -- these are paired with
    rw [diagnosticsAt_call hdepth, List.append_eq_nil_iff, checkCall_diagnostics_eq_nil_iff,
      accepted_call_iff]
    constructor
    · rintro ⟨⟨signature, hmeans, hcapable, hfits, hmin, hmax⟩, hflat⟩
      rw [argumentParameters?_eq_some hmeans hcapable hmin hmax, Option.getD_some,
        argumentsAccepted_iff hmax ih] at hflat
      exact ⟨hdepth, signature, hmeans, hcapable, hfits, hmin, hmax, hflat⟩
    · rintro ⟨-, signature, hmeans, hcapable, hfits, hmin, hmax, harguments⟩
      refine ⟨⟨signature, hmeans, hcapable, hfits, hmin, hmax⟩, ?_⟩
      rw [argumentParameters?_eq_some hmeans hcapable hmin hmax, Option.getD_some,
        argumentsAccepted_iff hmax ih]
      exact harguments
  | leaf depth e hdepth he =>
    exact ⟨fun _ => .leaf hdepth he, fun _ => diagnosticsAt_leaf hdepth he⟩
  | operator depth op left right span hdepth ihleft ihright =>
    rw [diagnosticsAt_operator hdepth, List.append_eq_nil_iff, ihleft, ihright,
      accepted_operator_iff, and_iff_right hdepth]
  | unary depth op operand span hdepth ih =>
    rw [diagnosticsAt_unary hdepth, ih, accepted_unary_iff, and_iff_right hdepth]
  | sub depth inner span hdepth ih =>
    rw [diagnosticsAt_sub hdepth, ih, accepted_sub_iff, and_iff_right hdepth]

end Trees

end Check

/-- An outcome is valid if there are no diagnostics. -/
theorem Outcome.isValid_iff (o : Outcome) : o.isValid = true ↔ o.diagnostics = [] :=
  List.isEmpty_iff

/-- An expression is valid exactly if it is in order at the root. -/
theorem isValid_iff_accepted {registry : Registry} {scope : ObjectScope} {expected : ValueType}
    {e : Expr} :
    (validate registry scope expected e).isValid = true ↔ Accepted registry scope 0 expected e := by
  rw [Outcome.isValid_iff]
  exact Check.diagnosticsAt_eq_nil_iff (s := Check.setting registry scope) expected 0 e

/-- A call means one function at most. -/
theorem Means.unique {registry : Registry} {scope : ObjectScope} {c : Callee}
    {signature signature' : Signature} (h : Means registry scope c signature)
    (h' : Means registry scope c signature') : signature = signature' := by
  -- both are what the one look-up finds
  have hresolve := (Check.resolve_eq_some_iff (Check.setting registry scope) c signature).mpr h
  have hresolve' := (Check.resolve_eq_some_iff (Check.setting registry scope) c signature').mpr h'
  rw [hresolve] at hresolve'
  exact Option.some.inj hresolve'

/-- A call means a function exactly if there is one of its name, for its receiver or for all of the
receiver's sort. -/
theorem Receiver.exists_means_iff {registry : Registry} {scope : ObjectScope} {c : Callee}
    {receiver : Owner} (h : Receiver scope c receiver) :
    (∃ signature, Means registry scope c signature) ↔
      registry.declared? .expression receiver c.functionName ≠ none
        ∨ registry.declared? .expression receiver.base c.functionName ≠ none := by
  let s := Check.setting registry scope
  obtain rfl := (Check.receiver_iff s c).mp h
  calc (∃ signature, Means registry scope c signature)
    _ ↔ ∃ signature, Check.resolve s c = some signature :=
        exists_congr fun signature => (Check.resolve_eq_some_iff s c signature).symm
    _ ↔ registry.lookup .expression (Check.owner s c) c.functionName ≠ none :=
        Option.ne_none_iff_exists'.symm
    _ ↔ _ := by
        rw [Registry.lookup_eq, Ne, Option.or_eq_none_iff, Classical.not_and_iff_not_or_not]

/-- **The checker accepts exactly the trees that are in order.** -/
theorem validate_eq_nil_iff_accepted (registry : Registry) (scope : ObjectScope)
    (expected : ValueType) (e : Expr) :
    (validate registry scope expected e).diagnostics = [] ↔
      Accepted registry scope 0 expected e :=
  Check.diagnosticsAt_eq_nil_iff (s := Check.setting registry scope) expected 0 e

end EventSheet
