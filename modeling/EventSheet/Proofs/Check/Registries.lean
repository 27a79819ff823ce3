import EventSheet.Proofs.Check.Acceptance
import EventSheet.Proofs.Check.Lockstep
import EventSheet.Proofs.Registry.Answers
import Mathlib.Logic.Relation

/-!
What of a registry shows in a check.

A check asks a registry for the functions of the names that the tree calls, for the capabilities of
types of objects, and, where a call is of no function, for the names that it could have meant. Of a
function it asks for the parameters that arguments are written for. So two registries lead to the
same outcome if they differ

* in parameters that generated code supplies (`validate_sameButHidden`), or
* in functions that the tree does not call; then what is suggested may differ as well
  (`validate_addFunction`).
-/

set_option autoImplicit false

namespace EventSheet

variable {r r' : Registry}

/-! ## Two registries and one scope -/

theorem Registry.SameTypes.capabilities (h : r.SameTypes r') (type : String) :
    (r.object? type).map ObjectType.capabilities
      = (r'.object? type).map ObjectType.capabilities := by
  have hbare : ∀ r : Registry, (r.object? type).map ObjectType.capabilities
      = (r.bareType? type).map ObjectType.capabilities := by
    intro r
    rw [Registry.bareType?, Option.map_map]
    rfl
  rw [hbare, hbare, h.objects]

namespace Check

variable {scope : ObjectScope} {R : Diagnostic → Diagnostic → Prop} {e : Expr}

/-- A call is of functions that treat it alike if all those of its name do that belong to owners of
one sort: a look-up does not leave the sort of the receivers. -/
theorem resolve_alike {c : Callee}
    (h : ∀ owner, Option.Rel (Signature.CalledAlike owner.sort.receiverSlots)
      (r.find? ⟨owner, .expression, c.functionName⟩)
      (r'.find? ⟨owner, .expression, c.functionName⟩)) :
    Option.Rel (Signature.CalledAlike c.receiverSlots) (resolve (setting r scope) c)
      (resolve (setting r' scope) c) := by
  let receiver := owner (setting r scope) c
  have hslots : receiver.sort.receiverSlots = c.receiverSlots :=
    (receiver_owner (setting r scope) c).receiverSlots
  have hfound : ∀ r : Registry, resolve (setting r scope) c
      = (r.find? ⟨receiver, .expression, c.functionName⟩).or
          (r.find? ⟨receiver.base, .expression, c.functionName⟩) :=
    fun r => r.lookup_eq .expression receiver c.functionName
  have hown := h receiver
  have hbase := h receiver.base
  rw [Owner.sort_base] at hbase
  rw [hfound, hfound, ← hslots]
  generalize r.find? ⟨receiver, .expression, c.functionName⟩ = found,
    r'.find? ⟨receiver, .expression, c.functionName⟩ = found' at hown ⊢
  -- the base is asked only if the receiver has no such function itself
  cases hown with
  | none => rwa [Option.none_or, Option.none_or]
  | some halike => exact .some halike

/-- Registries that have the same types are in step if the functions of every name that is called
treat their calls alike, and what is said where there is none is related. -/
theorem InStep.of_sameTypes (htypes : r.SameTypes r') (hrefl : ∀ d, R d d)
    (hfunctions : ∀ c arguments, Expr.IsPart (.call c arguments) e → ∀ owner,
      Option.Rel (Signature.CalledAlike owner.sort.receiverSlots)
        (r.find? ⟨owner, .expression, c.functionName⟩)
        (r'.find? ⟨owner, .expression, c.functionName⟩))
    (hunknown : ∀ c arguments, Expr.IsPart (.call c arguments) e →
      R ((Problem.unknownFunction c.functionName (suggestions (setting r scope) c)).at c.span)
        ((Problem.unknownFunction c.functionName (suggestions (setting r' scope) c)).at c.span)) :
    InStep (setting r scope) (setting r' scope) id R Eq e where
  scope := .id scope
  capabilities := htypes.capabilities
  functions c arguments hpart := resolve_alike (hfunctions c arguments hpart)
  unknown := hunknown
  refl := hrefl
  ofIdentifier _ _ _ _ := rfl
  ofVariable _ _ _ _ := rfl

/-- Registries with the same names in scope suggest the same. -/
theorem suggestions_congr {c : Callee}
    (h : ∀ owner, r.namesInScope .expression owner = r'.namesInScope .expression owner) :
    suggestions (setting r scope) c = suggestions (setting r' scope) c := by
  have howner : owner (setting r scope) c = owner (setting r' scope) c := rfl
  rw [suggestions, suggestions, howner]
  exact congrArg (Ranking.suggest Likeness.jaroWinkler c.functionName) (h _)

end Check

/-- Walks in lockstep that find the same give the same outcome. -/
theorem validate_eq_of_inStep {scope : ObjectScope} {e : Expr}
    (h : Check.InStep (Check.setting r scope) (Check.setting r' scope) id Eq Eq e)
    (expected : ValueType) : validate r scope expected e = validate r' scope expected e := by
  obtain ⟨hdiagnostics, htype, hvariables⟩ := h.validateIn_inStep expected
  rw [Expr.rename_id] at hdiagnostics htype hvariables
  rw [List.forall₂_eq_eq_eq] at hdiagnostics hvariables
  let outcome := validate r scope expected e
  let outcome' := validate r' scope expected e
  calc outcome
      = ⟨outcome.diagnostics, outcome.inferredType, outcome.objectVariables⟩ := rfl
    _ = ⟨outcome'.diagnostics, outcome'.inferredType, outcome'.objectVariables⟩ :=
      congr (congr (congrArg Outcome.mk hdiagnostics) htype) hvariables
    _ = outcome' := rfl

/-! ## Parameters that generated code supplies -/

/-- A parameter that generated code supplies is put somewhere behind those of the receivers. -/
inductive PutsHidden (receiverSlots : Nat) : List Parameter → List Parameter → Prop where
  | intro (before after : List Parameter) (p : Parameter) : receiverSlots ≤ before.length →
      p.isCodeOnly = true → PutsHidden receiverSlots (before ++ after) (before ++ p :: after)

/-- Two functions are the same but for parameters that generated code supplies, any number of which
come and go behind those of the receivers. -/
structure Signature.SameButHidden (receiverSlots : Nat) (a b : Signature) : Prop where
  parameters : Relation.EqvGen (PutsHidden receiverSlots) a.parameters b.parameters
  rest : { a with parameters := b.parameters } = b

/-- Two registries are the same but for such parameters. How many parameters the receivers take
depends on the owner. -/
structure Registry.SameButHidden (r r' : Registry) : Prop where
  types : r.SameTypes r'
  functions : ∀ key, Option.Rel (Signature.SameButHidden key.owner.sort.receiverSlots)
    (r.find? key) (r'.find? key)

/-- Without such parameters the lists behind the receivers are the same. -/
theorem PutsHidden.filter_drop_eq {receiverSlots : Nat} {parameters parameters' : List Parameter}
    (h : PutsHidden receiverSlots parameters parameters') :
    (parameters.drop receiverSlots).filter (fun p => !p.isCodeOnly)
      = (parameters'.drop receiverSlots).filter fun p => !p.isCodeOnly := by
  obtain ⟨before, after, p, hbehind, hhidden⟩ := h
  have hskipped : (p :: after).filter (fun p => !p.isCodeOnly)
      = after.filter fun p => !p.isCodeOnly := List.filter_cons_of_neg (by simp [hhidden])
  rw [List.drop_append_of_le_length hbehind, List.drop_append_of_le_length hbehind,
    List.filter_append, List.filter_append, hskipped]

namespace Signature.SameButHidden

variable {receiverSlots : Nat} {a b : Signature}

theorem refl (receiverSlots : Nat) (a : Signature) : a.SameButHidden receiverSlots a :=
  ⟨.refl _, rfl⟩

/-- No argument is written for the parameters that come and go. -/
theorem calledAlike (h : a.SameButHidden receiverSlots b) : a.CalledAlike receiverSlots b := by
  have hwritten : a.written receiverSlots = b.written receiverSlots := by
    have hparameters := h.parameters
    unfold written
    -- the relation is about lists in any place, so the induction is on these
    generalize a.parameters = parameters, b.parameters = parameters' at hparameters ⊢
    induction hparameters with
    | rel _ _ hputs => exact hputs.filter_drop_eq
    | refl => rfl
    | symm _ _ _ ih => exact ih.symm
    | trans _ _ _ _ _ ih ih' => exact ih.trans ih'
  have hrest : { a with parameters := b.parameters } = b := h.rest
  exact ⟨by rw [← hrest]; rfl, by rw [← hrest]; rfl, hwritten⟩

end Signature.SameButHidden

namespace Registry.SameButHidden

/-- A function is there in both registries or in neither. -/
theorem ne_none_iff (h : r.SameButHidden r') (key : FunctionKey) :
    r.find? key ≠ none ↔ r'.find? key ≠ none := by
  have hkey := h.functions key
  generalize r.find? key = found, r'.find? key = found' at hkey ⊢
  cases hkey with
  | none => exact Iff.rfl
  | some => exact iff_of_true (Option.some_ne_none _) (Option.some_ne_none _)

/-- A call cannot tell the functions at a key apart. -/
theorem calledAlike (h : r.SameButHidden r') (key : FunctionKey) :
    Option.Rel (Signature.CalledAlike key.owner.sort.receiverSlots) (r.find? key)
      (r'.find? key) := by
  have hkey := h.functions key
  generalize r.find? key = found, r'.find? key = found' at hkey ⊢
  cases hkey with
  | none => exact .none
  | some hsame => exact .some hsame.calledAlike

/-- Registering two functions that are the same but for such parameters. -/
theorem addFunction {r₁ r₁' : Registry} (h : r.SameButHidden r') {owner : Owner} {kind : Kind}
    {a b : Signature} (hsame : a.SameButHidden owner.sort.receiverSlots b)
    (ha : r.addFunction owner kind a = .ok r₁) (hb : r'.addFunction owner kind b = .ok r₁') :
    r₁.SameButHidden r₁' where
  types := ((sameTypes_addFunction ha).symm.trans h.types).trans (sameTypes_addFunction hb)
  functions key := by
    have hname : a.name = b.name := by rw [← hsame.rest]
    rw [find?_addFunction ha, find?_addFunction hb, hname]
    by_cases hkey : (⟨owner, kind, b.name⟩ : FunctionKey) = key
    · rw [if_pos hkey, if_pos hkey, ← hkey]
      exact .some hsame
    · rw [if_neg hkey, if_neg hkey]
      exact h.functions key

theorem refl (r : Registry) : r.SameButHidden r where
  types := .refl r
  functions key := by
    rcases r.find? key with _ | s
    · exact .none
    · exact .some (.refl _ s)

end Registry.SameButHidden

/-- **Parameters that generated code supplies do not show.** If two registries are the same but for
such parameters, behind those of the receivers, every tree has the same outcome in both. -/
theorem validate_sameButHidden (h : r.SameButHidden r') (scope : ObjectScope)
    (expected : ValueType) (e : Expr) :
    validate r scope expected e = validate r' scope expected e := by
  have hnames : ∀ owner, r.namesInScope .expression owner = r'.namesInScope .expression owner :=
    fun _ => Registry.namesInScope_congr fun _ _ _ => h.ne_none_iff _
  refine validate_eq_of_inStep (.of_sameTypes h.types (fun _ => rfl) (fun c _ _ owner => ?_)
    fun c _ _ => ?_) expected
  · exact h.calledAlike ⟨owner, .expression, c.functionName⟩
  · rw [Check.suggestions_congr hnames]

/-- How far an object is from a point. -/
def Signature.distance (hidden : List Parameter) : Signature :=
  let coordinate : Parameter := .ofTag "expression"
  ⟨"DistanceTo", "number", .ofTag "object" :: coordinate :: (hidden ++ [coordinate]), none, .object,
    ""⟩

/-- One argument too many is found, whether generated code supplies the scene or not. -/
theorem validate_sameButHidden_distance :
    let scene : Parameter := ⟨"currentScene", "", "", true, true⟩
    let arguments : List Expr :=
      [.number "1" ⟨16, 17⟩, .number "2" ⟨19, 20⟩, .number "3" ⟨22, 23⟩]
    let e : Expr := .call (.onObject "Hero" "DistanceTo" ⟨0, 24⟩ ⟨0, 4⟩) arguments
    let outcome := fun r : Registry => validate r ProjectScope.empty.toScope .number e
    ∃ r r', (Registry.empty "game").addFunction (.object "") .expression (.distance []) = .ok r
      ∧ (Registry.empty "game").addFunction (.object "") .expression (.distance [scene]) = .ok r'
      ∧ outcome r = outcome r'
      ∧ (outcome r).diagnostics = [(Problem.tooManyArguments 2 2).at ⟨22, 24⟩] := by
  intro scene arguments e outcome
  have hadds : PutsHidden 1 (Signature.distance []).parameters
      (Signature.distance [scene]).parameters :=
    .intro [.ofTag "object", .ofTag "expression"] [.ofTag "expression"] scene (by decide) rfl
  have hsame : (Signature.distance []).SameButHidden (Owner.object "").sort.receiverSlots
      (.distance [scene]) := ⟨.rel _ _ hadds, rfl⟩
  obtain ⟨r, hr, hfound⟩ : ∃ r,
      (Registry.empty "game").addFunction (.object "") .expression (.distance []) = .ok r
        ∧ (outcome r).diagnostics = [(Problem.tooManyArguments 2 2).at ⟨22, 24⟩] := ⟨_, rfl, rfl⟩
  obtain ⟨r', hr'⟩ : ∃ r',
      (Registry.empty "game").addFunction (.object "") .expression (.distance [scene])
        = .ok r' := ⟨_, rfl⟩
  have hregistries : r.SameButHidden r' :=
    (Registry.SameButHidden.refl (.empty "game")).addFunction hsame hr hr'
  exact ⟨r, r', hr, hr', validate_sameButHidden hregistries _ _ e, hfound⟩

/-! ## Functions that are not called -/

/-- Two diagnostics are the same, or both report an unknown function and are the same but for what
they suggest. -/
def Diagnostic.SameButSuggestions (d d' : Diagnostic) : Prop :=
  d = d' ∨ d.code = .unknownFunction ∧ { d with suggestions := d'.suggestions } = d'

/-- Two outcomes are the same but for what reports of unknown functions suggest. -/
structure Outcome.SameButSuggestions (o o' : Outcome) : Prop where
  diagnostics : List.Forall₂ Diagnostic.SameButSuggestions o.diagnostics o'.diagnostics
  inferredType : o.inferredType = o'.inferredType
  objectVariables : o.objectVariables = o'.objectVariables

/-- Registries that have the same types, and the same expressions for every owner, give every tree
the same outcome. -/
theorem validate_sameExpressions (htypes : r.SameTypes r')
    (hfind : ∀ owner name, r.find? ⟨owner, .expression, name⟩ = r'.find? ⟨owner, .expression, name⟩)
    (scope : ObjectScope) (expected : ValueType) (e : Expr) :
    validate r scope expected e = validate r' scope expected e := by
  have hnames : ∀ owner, r.namesInScope .expression owner = r'.namesInScope .expression owner :=
    fun _ => Registry.namesInScope_congr fun o _ name => by rw [hfind]
  refine validate_eq_of_inStep (.of_sameTypes htypes (fun _ => rfl) (fun c _ _ owner => ?_)
    fun c _ _ => ?_) expected
  · exact Signature.CalledAlike.rel_of_eq _ (hfind owner c.functionName)
  · rw [Check.suggestions_congr hnames]

/-- Registries that have the same types, and the same expressions of every name that a tree calls,
give the tree the same outcome, but for suggestions. -/
theorem validate_sameCalled (htypes : r.SameTypes r') {e : Expr}
    (hfind : ∀ c arguments, Expr.IsPart (.call c arguments) e → ∀ owner,
      r.find? ⟨owner, .expression, c.functionName⟩ = r'.find? ⟨owner, .expression, c.functionName⟩)
    (scope : ObjectScope) (expected : ValueType) :
    (validate r scope expected e).SameButSuggestions (validate r' scope expected e) := by
  have hstep : Check.InStep (Check.setting r scope) (Check.setting r' scope) id
      Diagnostic.SameButSuggestions Eq e :=
    .of_sameTypes htypes (fun _ => Or.inl rfl)
      (fun c arguments hpart owner =>
        Signature.CalledAlike.rel_of_eq _ (hfind c arguments hpart owner))
      fun _ _ _ => Or.inr ⟨rfl, rfl⟩
  obtain ⟨hdiagnostics, htype, hvariables⟩ := hstep.validateIn_inStep expected
  rw [Expr.rename_id] at hdiagnostics htype hvariables
  rw [List.forall₂_eq_eq_eq] at hvariables
  exact ⟨hdiagnostics, htype, hvariables⟩

/-- **A new function does not disturb what does not call it.** A new action or condition changes no
outcome. A new expression leaves the outcome of every tree that calls no function of its name as it
was, but for what reports of unknown functions suggest. -/
theorem validate_addFunction {owner : Owner} {kind : Kind} {signature : Signature}
    (h : r.addFunction owner kind signature = .ok r') (scope : ObjectScope) (expected : ValueType)
    (e : Expr) :
    (kind = .action ∨ kind = .condition →
        validate r scope expected e = validate r' scope expected e)
      ∧ (kind = .expression →
        (∀ c arguments, Expr.IsPart (.call c arguments) e → c.functionName ≠ signature.name) →
          (validate r scope expected e).SameButSuggestions (validate r' scope expected e)) := by
  have htypes := Registry.sameTypes_addFunction h
  have hother : ∀ key : FunctionKey, key.kind ≠ kind ∨ key.name ≠ signature.name →
      r.find? key = r'.find? key := by
    intro key hkey
    -- only one key is written, and its kind or its name is another one
    have hne : (⟨owner, kind, signature.name⟩ : FunctionKey) ≠ key := by
      rintro rfl
      exact hkey.elim (absurd rfl) (absurd rfl)
    rw [Registry.find?_addFunction h, if_neg hne]
  constructor
  · intro hkind
    have hne : Kind.expression ≠ kind := by
      rcases hkind with rfl | rfl <;> decide
    exact validate_sameExpressions htypes (fun _ _ => hother _ (Or.inl hne)) scope expected e
  · intro _ hname
    exact validate_sameCalled htypes
      (fun c arguments hpart _ => hother _ (Or.inr (hname c arguments hpart))) scope expected

/-- A call that lacks an argument is reported alike before and after a function of another name is
registered. -/
theorem validate_addFunction_abs :
    let abs : Signature := ⟨"Abs", "number", [.ofTag "expression"], none, .global, ""⟩
    let e : Expr := .call (.free "Pow" ⟨0, 6⟩) [.number "2" ⟨4, 5⟩]
    let outcome := fun r : Registry => validate r ProjectScope.empty.toScope .number e
    ∃ r r', Registry.withPower.addFunction .global .action abs = .ok r
      ∧ Registry.withPower.addFunction .global .expression abs = .ok r'
      ∧ outcome .withPower = outcome r
      ∧ (outcome .withPower).SameButSuggestions (outcome r')
      ∧ (outcome .withPower).diagnostics = [(Problem.tooFewArguments 2 2).at ⟨0, 6⟩] := by
  intro abs e outcome
  have hname : ∀ c arguments, Expr.IsPart (.call c arguments) e → c.functionName ≠ abs.name := by
    intro c arguments hpart
    dsimp only [e] at hpart
    cases hpart with
    | self => decide
    | argument ha hinner =>
      -- the only argument is a number, of which no call is a part
      rw [List.mem_singleton.mp ha] at hinner
      cases hinner
  obtain ⟨r, hr⟩ : ∃ r, Registry.withPower.addFunction .global .action abs = .ok r := ⟨_, rfl⟩
  obtain ⟨r', hr'⟩ : ∃ r', Registry.withPower.addFunction .global .expression abs = .ok r' :=
    ⟨_, rfl⟩
  have haction := validate_addFunction hr ProjectScope.empty.toScope .number e
  have hexpression := validate_addFunction hr' ProjectScope.empty.toScope .number e
  exact ⟨r, r', hr, hr', haction.1 (Or.inl rfl), hexpression.2 rfl hname, rfl⟩

end EventSheet
