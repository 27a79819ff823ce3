import EventSheet.Proofs.Check.Acceptance
import EventSheet.Proofs.Check.Context

/-!
Calls whose arguments nobody looks at.

Three checks of a call end it if they fail: its name has to belong to a function, its object has to
be capable of that function, and the number of arguments has to be in range. A call that fails one
of them is `Refused`. It reports the check that failed, and of the checks behind that one nothing;
only a return type that does not fit is told beside a wrong number of arguments, since it is checked
in between. What is written inside the arguments plays no part (`validate_call_cases`): of them only
their number counts, and the span of the first one that is left over.
-/

set_option autoImplicit false

namespace EventSheet

/-- A call with some number of arguments fails one of the checks that end it. -/
inductive Refused (registry : Registry) (scope : ObjectScope) (c : Callee) (count : Nat) :
    Prop where
  | unknown : (∀ signature, ¬ Means registry scope c signature) → Refused registry scope c count
  | incapable {signature} : Means registry scope c signature →
      ¬ Capable registry scope c signature → Refused registry scope c count
  | tooFew {signature} : Means registry scope c signature →
      count < signature.minArguments c.receiverSlots → Refused registry scope c count
  | tooMany {signature} : Means registry scope c signature →
      signature.maxArguments c.receiverSlots < count → Refused registry scope c count

/-- What a call tells of its return type: nothing if it fits, else one mismatch at the call. -/
def ReportsReturnType (declared expected : ValueType) (span : Span) (told : List Diagnostic) :
    Prop :=
  Fits declared expected ∧ told = []
    ∨ ¬ Fits declared expected
      ∧ ∃ mismatch, told = [(Problem.returnTypeMismatch mismatch declared expected).at span]

namespace Check

variable {s : Setting} {c : Callee} {signature : Signature} {expected : ValueType}
  {arguments : List Expr}

/-! ## One failing check at a time -/

/-- The arguments of a call are looked at unless the call is refused. -/
theorem argumentParameters?_eq_none_iff (count : Nat) :
    argumentParameters? s c count = none ↔ Refused s.registry s.scope c count := by
  constructor
  · intro h
    rcases hresolve : resolve s c with _ | signature
    · exact .unknown (resolve_eq_none_iff.mp hresolve)
    have hmeans := (resolve_eq_some_iff s c signature).mp hresolve
    by_cases hcapable : Capable s.registry s.scope c signature
    · by_cases hmin : signature.minArguments c.receiverSlots ≤ count
      · by_cases hmax : count ≤ signature.maxArguments c.receiverSlots
        · rw [argumentParameters?_eq_some hmeans hcapable hmin hmax] at h
          exact absurd h (Option.some_ne_none _)
        · exact .tooMany hmeans (Nat.lt_of_not_le hmax)
      · exact .tooFew hmeans (Nat.lt_of_not_le hmin)
    · exact .incapable hmeans hcapable
  · intro h
    -- whatever parameters there were to pair, the call would have passed the check that it fails
    rw [Option.eq_none_iff_forall_ne_some]
    intro parameters hparameters
    obtain ⟨signature, hmeans, hcapable, hmin, hmax, -⟩ :=
      argumentParameters?_eq_some_iff.mp hparameters
    cases h with
    | unknown hnone => exact hnone signature hmeans
    | incapable hmeans' hincapable =>
      obtain rfl := hmeans.unique hmeans'
      exact hincapable hcapable
    | tooFew hmeans' hfew =>
      obtain rfl := hmeans.unique hmeans'
      omega
    | tooMany hmeans' hmany =>
      obtain rfl := hmeans.unique hmeans'
      omega

/-- The type of a call is the declared one of its function. -/
theorem callType_of_means (hmeans : Means s.registry s.scope c signature) :
    callType s c = signature.returnType := by
  rw [callType, (resolve_eq_some_iff s c signature).mpr hmeans]

/-- What is told of a return type is told of one that does not fit. -/
theorem reportsReturnType (declared expected : ValueType) (span : Span) :
    ReportsReturnType declared expected span (returnTypeDiagnostics declared expected span) := by
  unfold returnTypeDiagnostics
  have hfits := mismatch?_eq_none_iff declared expected
  rcases hmismatch : mismatch? declared expected with _ | mismatch
  · exact Or.inl ⟨hfits.mp hmismatch, rfl⟩
  · refine Or.inr ⟨fun h => ?_, mismatch, rfl⟩
    rw [hfits.mpr h] at hmismatch
    exact Option.some_ne_none _ hmismatch.symm

/-- An object that is not capable of a function lacks the capability that the function requires. -/
theorem exists_missingCapability (hincapable : ¬ Capable s.registry s.scope c signature) :
    ∃ capability, signature.requiredCapability = some capability
      ∧ missingCapability? s c signature = some capability := by
  rcases hmissing : missingCapability? s c signature with _ | capability
  · exact absurd ((missingCapability?_eq_none_iff s c signature).mp hmissing) hincapable
  refine ⟨capability, ?_, rfl⟩
  -- only the capability of the signature itself is ever found missing
  unfold missingCapability? at hmissing
  obtain ⟨required, hrequired, hmissing⟩ := Option.bind_eq_some_iff.mp hmissing
  obtain ⟨type, -, hmissing⟩ := Option.bind_eq_some_iff.mp hmissing
  by_cases htype : type = ""
  · simp [htype] at hmissing
  rw [if_neg htype] at hmissing
  obtain ⟨t, -, hmissing⟩ := Option.bind_eq_some_iff.mp hmissing
  by_cases hsupports : t.supports required = true
  · simp [hsupports] at hmissing
  rw [if_neg hsupports, Option.some.injEq] at hmissing
  rw [← hmissing]
  exact (Option.filter_eq_some_iff.mp hrequired).1

/-- Where there is no function, that is all that is said. -/
theorem checkCall_of_unknown (hunknown : resolve s c = none) :
    (checkCall s expected c arguments).diagnostics
      = [(Problem.unknownFunction c.functionName (suggestions s c)).at c.span] := by
  rw [checkCall, hunknown]

/-- Where the object is not capable, that is all that is said. -/
theorem checkCall_of_incapable (hmeans : Means s.registry s.scope c signature)
    {capability : String} (hmissing : missingCapability? s c signature = some capability) :
    (checkCall s expected c arguments).diagnostics
      = [(Problem.unsupportedCapability capability).at c.objectNameSpan] := by
  simp only [checkCall, (resolve_eq_some_iff s c signature).mpr hmeans, hmissing]

/-- Behind the first two checks the return type is told, and then the number of arguments. -/
theorem checkCall_of_capable (hmeans : Means s.registry s.scope c signature)
    (hcapable : Capable s.registry s.scope c signature) :
    (checkCall s expected c arguments).diagnostics
      = returnTypeDiagnostics signature.returnType expected c.span
        ++ arityDiagnostics signature c arguments := by
  simp only [checkCall, (resolve_eq_some_iff s c signature).mpr hmeans,
    (missingCapability?_eq_none_iff s c signature).mpr hcapable]
  rcases arityDiagnostics signature c arguments with _ | ⟨d, rest⟩
  · rw [List.append_nil]
  · rfl

/-- Too few arguments are reported at the call. -/
theorem arityDiagnostics_of_lt_min
    (h : arguments.length < signature.minArguments c.receiverSlots) :
    arityDiagnostics signature c arguments
      = [(Problem.tooFewArguments (signature.minArguments c.receiverSlots)
          (signature.maxArguments c.receiverSlots)).at c.span] := by
  rw [arityDiagnostics, if_pos h]

/-- No more arguments are needed than there is room for. -/
theorem minArguments_le_maxArguments (signature : Signature) (receiverSlots : Nat) :
    signature.minArguments receiverSlots ≤ signature.maxArguments receiverSlots :=
  List.length_filter_le _ _

/-- Too many arguments are reported from the first one that is left over. -/
theorem arityDiagnostics_of_max_lt
    (h : signature.maxArguments c.receiverSlots < arguments.length) :
    ∃ excess, arguments[signature.maxArguments c.receiverSlots]? = some excess
      ∧ arityDiagnostics signature c arguments
        = [(Problem.tooManyArguments (signature.minArguments c.receiverSlots)
            (signature.maxArguments c.receiverSlots)).at
              ⟨excess.span.start, max c.span.stop excess.span.stop⟩] := by
  have hle := minArguments_le_maxArguments signature c.receiverSlots
  have hexcess := List.getElem?_eq_getElem h
  refine ⟨_, hexcess, ?_⟩
  rw [arityDiagnostics, if_neg (by omega)]
  simp only [hexcess]

/-! ## What a refused call shows of its arguments -/

/-- The checks before the arguments see the number of these, and the span of the first one that is
left over. -/
theorem checkCall_diagnostics_congr_excess {others : List Expr}
    (hlength : others.length = arguments.length)
    (hexcess : ∀ signature, Means s.registry s.scope c signature →
      others[signature.maxArguments c.receiverSlots]?.map Expr.span
        = arguments[signature.maxArguments c.receiverSlots]?.map Expr.span) :
    (checkCall s expected c others).diagnostics
      = (checkCall s expected c arguments).diagnostics := by
  rcases hresolve : resolve s c with _ | signature
  · rw [checkCall_of_unknown hresolve, checkCall_of_unknown hresolve]
  have hmeans := (resolve_eq_some_iff s c signature).mp hresolve
  have harity : arityDiagnostics signature c others = arityDiagnostics signature c arguments :=
    arityDiagnostics_congr_excess rfl rfl hlength (hexcess signature hmeans)
  simp only [checkCall, hresolve, harity]

end Check

/-- A refused call gives what its own checks say and nothing of its arguments. -/
theorem validate_call_of_refused {registry : Registry} {scope : ObjectScope} {c : Callee}
    {arguments : List Expr} (h : Refused registry scope c arguments.length)
    (expected : ValueType) :
    validate registry scope expected (.call c arguments)
      = ⟨(Check.checkCall (Check.setting registry scope) expected c arguments).diagnostics,
          Check.callType (Check.setting registry scope) c, []⟩ := by
  have hnone := (Check.argumentParameters?_eq_none_iff (s := Check.setting registry scope) _).mpr h
  unfold validate
  rw [← Check.setting, Check.validateIn, Check.walk_call (Nat.zero_le _), hnone, Option.elim_none]
  -- no argument is paired with a parameter, so the walk adds nothing
  simp only [Findings.diagnostics_append, Findings.objectVariables_append,
    Findings.diagnostics_none, Findings.objectVariables_none, List.append_nil]

/-- **A refused call reports once and hides its arguments.** If its name belongs to no function, or
its object is not capable of the function, that is all it reports. If the number of its arguments is
out of range, it reports that, behind a return type that does not fit. Its type is the declared one
as soon as there is a function, whatever the arguments are. And other arguments change nothing about
a refused call, as long as there are as many of them and what is left over starts at the same
place. -/
theorem validate_call_cases (registry : Registry) (scope : ObjectScope) (expected : ValueType)
    (c : Callee) (arguments : List Expr) :
    let outcome := fun arguments => validate registry scope expected (.call c arguments)
    ((∀ signature, ¬ Means registry scope c signature) →
        ∃ suggestions, outcome arguments
          = ⟨[(Problem.unknownFunction c.functionName suggestions).at c.span], .unknown, []⟩)
      ∧ (∀ signature, Means registry scope c signature →
        let min := signature.minArguments c.receiverSlots
        let max := signature.maxArguments c.receiverSlots
        (outcome arguments).inferredType = signature.returnType
          ∧ (¬ Capable registry scope c signature →
            ∃ capability, signature.requiredCapability = some capability
              ∧ outcome arguments
                = ⟨[(Problem.unsupportedCapability capability).at c.objectNameSpan],
                    signature.returnType, []⟩)
          ∧ (Capable registry scope c signature → arguments.length < min →
            ∃ told, ReportsReturnType signature.returnType expected c.span told
              ∧ outcome arguments
                = ⟨told ++ [(Problem.tooFewArguments min max).at c.span],
                    signature.returnType, []⟩)
          ∧ (Capable registry scope c signature → max < arguments.length →
            ∃ told excess, ReportsReturnType signature.returnType expected c.span told
              ∧ arguments[max]? = some excess
              ∧ outcome arguments
                = ⟨told ++ [(Problem.tooManyArguments min max).at
                      ⟨excess.span.start, Max.max c.span.stop excess.span.stop⟩],
                    signature.returnType, []⟩))
      ∧ (Refused registry scope c arguments.length →
        (outcome arguments).objectVariables = []
          ∧ ∀ others : List Expr, others.length = arguments.length →
            (∀ signature, Means registry scope c signature →
              others[signature.maxArguments c.receiverSlots]?.map Expr.span
                = arguments[signature.maxArguments c.receiverSlots]?.map Expr.span) →
            outcome others = outcome arguments) := by
  intro outcome
  have houtcome : Refused registry scope c arguments.length → outcome arguments = _ :=
    fun h => validate_call_of_refused h expected
  refine ⟨fun hunknown => ?_, fun signature hmeans => ?_, fun hrefused => ?_⟩
  · have hresolve := (Check.resolve_eq_none_iff (s := Check.setting registry scope)).mpr hunknown
    refine ⟨Check.suggestions (Check.setting registry scope) c,
      (houtcome (.unknown hunknown)).trans ?_⟩
    rw [Check.checkCall_of_unknown hresolve, Check.callType, hresolve]
  · intro min max
    have htype : Check.callType (Check.setting registry scope) c = signature.returnType :=
      Check.callType_of_means hmeans
    have htold := Check.reportsReturnType signature.returnType expected c.span
    refine ⟨?_, fun hincapable => ?_, fun hcapable hfew => ?_, fun hcapable hmany => ?_⟩
    · rw [← htype]
      exact Check.typeAt_call (Nat.zero_le _) c arguments
    · obtain ⟨capability, hrequired, hmissing⟩ :=
        Check.exists_missingCapability (s := Check.setting registry scope) hincapable
      refine ⟨capability, hrequired, (houtcome (.incapable hmeans hincapable)).trans ?_⟩
      -- the check of the capability is the last one here, so the return type is not told
      rw [Check.checkCall_of_incapable hmeans hmissing, htype]
    · refine ⟨_, htold, (houtcome (.tooFew hmeans hfew)).trans ?_⟩
      rw [Check.checkCall_of_capable hmeans hcapable, Check.arityDiagnostics_of_lt_min hfew, htype]
    · obtain ⟨excess, hexcess, harity⟩ := Check.arityDiagnostics_of_max_lt hmany
      refine ⟨_, excess, htold, hexcess, (houtcome (.tooMany hmeans hmany)).trans ?_⟩
      rw [Check.checkCall_of_capable hmeans hcapable, harity, htype]
  · refine ⟨by rw [houtcome hrefused], fun others hlength hexcess => ?_⟩
    have hothers : outcome others = _ :=
      validate_call_of_refused (hlength.symm ▸ hrefused) expected
    rw [hothers, houtcome hrefused, Check.checkCall_diagnostics_congr_excess hlength hexcess]

/-- Three arguments for two parameters, where a text is expected: the mismatch comes first, and the
unknown function in the argument that is left over is not reported. A number at its place changes
nothing, nor does a placeholder for a required argument. -/
theorem validate_call_cases_power :
    let c := Callee.free "Pow" ⟨0, 17⟩
    let arguments : List Expr :=
      [.number "2" ⟨4, 5⟩, .number "3" ⟨7, 8⟩, .call (.free "Foo" ⟨10, 15⟩) []]
    let others : List Expr := [.empty ⟨4, 4⟩, .number "3" ⟨7, 8⟩, .number "1" ⟨10, 15⟩]
    let outcome := fun arguments =>
      validate Registry.withPower ProjectScope.empty.toScope .string (.call c arguments)
    (∃ told, ReportsReturnType .number .string ⟨0, 17⟩ told
        ∧ outcome arguments
          = ⟨told ++ [(Problem.tooManyArguments 2 2).at ⟨10, 17⟩], .number, []⟩)
      ∧ outcome others = outcome arguments := by
  intro c arguments others outcome
  have hmeans : Means Registry.withPower ProjectScope.empty.toScope c
      ⟨"Pow", "number", [.ofTag "expression", .ofTag "expression"], none, .global, ""⟩ :=
    .own (.global rfl rfl) rfl
  obtain ⟨-, hcall, hhidden⟩ := validate_call_cases Registry.withPower
    ProjectScope.empty.toScope .string c arguments
  obtain ⟨-, -, -, hmany⟩ := hcall _ hmeans
  constructor
  · obtain ⟨told, excess, htold, hexcess, hgives⟩ :=
      hmany (fun _ _ _ hrequired => absurd hrequired.symm (Option.some_ne_none _)) (by decide)
    obtain rfl : Expr.call (.free "Foo" ⟨10, 15⟩) [] = excess := Option.some.inj hexcess
    exact ⟨told, htold, hgives⟩
  · have hrefused : Refused Registry.withPower ProjectScope.empty.toScope c arguments.length :=
      .tooMany hmeans (by decide)
    apply (hhidden hrefused).2 others rfl
    intro signature hmeans'
    obtain rfl := hmeans.unique hmeans'
    rfl

end EventSheet
