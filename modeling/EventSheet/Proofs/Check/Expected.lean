import EventSheet.Proofs.Check.Acceptance

/-!
What the expected type of a tree changes.

It goes down to the operands and stops at the arguments of a call, which have expectations of their
own. So all it can do is to add a mismatch at a call that is no argument, one at most for each
(`Expr.spineCalls`): nothing else found in a tree depends on it. With `unknown` there is nothing to
miss, and the types that a tree may be expected to have are ordered by what they let pass: `number`
and `string` below `numberOrString`, and all below `unknown` (`validate_expected_mono`).
-/

set_option autoImplicit false

namespace EventSheet

/-- The calls that are reached without entering the arguments of another, in the order of the
walk. -/
def Expr.spineCalls : Expr → List Callee
  | .call c _ => [c]
  | .operator _ left right _ => left.spineCalls ++ right.spineCalls
  | .unary _ inner _ | .sub inner _ => inner.spineCalls
  | _ => []

/-! ## Lists put into one another -/

/-- A list is made of two others, each in its order. -/
inductive Interleaved {α : Type} : List α → List α → List α → Prop where
  | nil : Interleaved [] [] []
  | left {a l m n} : Interleaved l m n → Interleaved (a :: l) m (a :: n)
  | right {a l m n} : Interleaved l m n → Interleaved l (a :: m) (a :: n)

namespace Interleaved

variable {α : Type} {l m n l' m' n' : List α}

theorem nil_right (l : List α) : Interleaved l [] l := by
  induction l with
  | nil => exact .nil
  | cons a l ih => exact .left ih

/-- Lists that are made of others one after the other are made of these one after the other. -/
theorem append (h : Interleaved l m n) (h' : Interleaved l' m' n') :
    Interleaved (l ++ l') (m ++ m') (n ++ n') := by
  induction h with
  | nil => exact h'
  | left _ ih => exact .left ih
  | right _ ih => exact .right ih

/-- What a list is made of stands in it, in order. -/
theorem sublist_left (h : Interleaved l m n) : l.Sublist n := by
  induction h with
  | nil => exact List.Sublist.slnil
  | left _ ih => exact ih.cons_cons _
  | right _ ih => exact ih.cons _

end Interleaved

/-- Diagnostics are others with mismatches put in, for some of the calls and at most one for
each. -/
def AddsMismatches (calls : List Callee) (diagnostics diagnostics' : List Diagnostic) : Prop :=
  ∃ extra, Interleaved diagnostics extra diagnostics'
    ∧ (∀ d ∈ extra, ∃ mismatch, d.code = .returnTypeMismatch mismatch)
    ∧ (extra.map Diagnostic.span).Sublist (calls.map Callee.span)

namespace AddsMismatches

variable {calls calls' : List Callee} {l l' m m' : List Diagnostic}

theorem refl (calls : List Callee) (l : List Diagnostic) : AddsMismatches calls l l :=
  ⟨[], .nil_right l, fun _ hd => absurd hd List.not_mem_nil, List.nil_sublist _⟩

/-- Mismatches may be put into each of two parts. -/
theorem append (h : AddsMismatches calls l l') (h' : AddsMismatches calls' m m') :
    AddsMismatches (calls ++ calls') (l ++ m) (l' ++ m') := by
  obtain ⟨extra, hl, hcode, hspan⟩ := h
  obtain ⟨extra', hm, hcode', hspan'⟩ := h'
  refine ⟨extra ++ extra', hl.append hm, fun d hd => ?_, ?_⟩
  · rcases List.mem_append.mp hd with hd | hd
    · exact hcode d hd
    · exact hcode' d hd
  · rw [List.map_append, List.map_append]
    exact hspan.append hspan'

theorem append_same (h : AddsMismatches calls l l') (m : List Diagnostic) :
    AddsMismatches calls (l ++ m) (l' ++ m) := by
  have h' := h.append (refl [] m)
  rwa [List.append_nil] at h'

end AddsMismatches

namespace Check

variable {s : Setting}

/-! ## Diagnostics -/

/-- Where nothing is expected, nothing is missed. -/
theorem returnTypeDiagnostics_unknown (declared : ValueType) (span : Span) :
    returnTypeDiagnostics declared .unknown span = [] := by
  cases declared <;> rfl

/-- A mismatch is one diagnostic at the call. -/
theorem addsMismatches_returnType (declared expected : ValueType) (c : Callee) :
    AddsMismatches [c] [] (returnTypeDiagnostics declared expected c.span) := by
  unfold returnTypeDiagnostics
  rcases mismatch? declared expected with _ | mismatch
  · exact .refl _ _
  · refine ⟨[(Problem.returnTypeMismatch mismatch declared expected).at c.span], .right .nil,
      fun d hd => ?_, List.Sublist.refl _⟩
    rw [List.mem_singleton.mp hd]
    exact ⟨mismatch, rfl⟩

/-- The expected type adds at most a mismatch to the checks of a call before its arguments. -/
theorem addsMismatches_checkCall (expected : ValueType) (c : Callee) (arguments : List Expr) :
    AddsMismatches [c] (checkCall s .unknown c arguments).diagnostics
      (checkCall s expected c arguments).diagnostics := by
  unfold checkCall
  rcases resolve s c with _ | signature
  · exact .refl _ _
  dsimp only
  rcases missingCapability? s c signature with _ | capability
  · have hmismatch := addsMismatches_returnType signature.returnType expected c
    rw [returnTypeDiagnostics_unknown]
    -- the mismatch comes first, and the arity does not depend on what is expected
    rcases arityDiagnostics signature c arguments with _ | ⟨d, rest⟩
    · exact hmismatch
    · exact hmismatch.append_same (d :: rest)
  · exact .refl _ _

/-- The expected type of a tree adds nothing but mismatches of the calls on its spine. -/
theorem addsMismatches_diagnosticsAt (expected : ValueType) (depth : Nat) (e : Expr) :
    AddsMismatches e.spineCalls (diagnosticsAt s .unknown depth e)
      (diagnosticsAt s expected depth e) := by
  induction depth, e using Check.induction with
  | deep depth e hdeep =>
    rw [diagnosticsAt_of_lt hdeep, diagnosticsAt_of_lt hdeep]
    exact .refl _ _
  | call depth c arguments hdepth _ =>
    -- the arguments are expected to have the types of their parameters in both walks
    rw [diagnosticsAt_call hdepth, diagnosticsAt_call hdepth]
    exact (addsMismatches_checkCall expected c arguments).append_same _
  | leaf depth e hdepth he =>
    rw [diagnosticsAt_leaf hdepth he, diagnosticsAt_leaf hdepth he]
    exact .refl _ _
  | operator depth op left right span hdepth ihleft ihright =>
    rw [diagnosticsAt_operator hdepth, diagnosticsAt_operator hdepth]
    exact ihleft.append ihright
  | unary depth op operand span hdepth ih =>
    rw [diagnosticsAt_unary hdepth, diagnosticsAt_unary hdepth]
    exact ih
  | sub depth inner span hdepth ih =>
    rw [diagnosticsAt_sub hdepth, diagnosticsAt_sub hdepth]
    exact ih

/-! ## Variables and types -/

/-- The variables of a tree that stands for itself do not depend on its expected type: a bare name
is noted for an object only as an argument of a call. -/
theorem objectVariables_walk_expected (expected : ValueType) (depth : Nat) (e : Expr) :
    (walk s .unknown depth none e).2.objectVariables
      = (walk s expected depth none e).2.objectVariables := by
  induction depth, e using Check.induction with
  | deep depth e hdeep => rw [walk_of_lt hdeep, walk_of_lt hdeep]
  | call depth c arguments hdepth _ =>
    rw [walk_call hdepth, walk_call hdepth, Findings.objectVariables_append,
      Findings.objectVariables_append]
  | leaf depth e hdepth he =>
    cases e with
    | identifier name span =>
      rw [walk_identifier hdepth, walk_identifier hdepth]
      -- a bare name has no owner here, so it is noted for none
      cases expected <;> rfl
    | call | operator | unary | sub => exact absurd he Bool.false_ne_true
    | _ => simp only [walk]
  | operator depth op left right span hdepth ihleft ihright =>
    rw [walk_operator hdepth, walk_operator hdepth, Findings.objectVariables_append,
      Findings.objectVariables_append, ihleft, ihright]
  | unary depth op operand span hdepth ih => rw [walk_unary hdepth, walk_unary hdepth, ih]
  | sub depth inner span hdepth ih => rw [walk_sub hdepth, walk_sub hdepth, ih]

/-- An operator has a type only where its operands agree. -/
theorem eq_of_join_ne_unknown {left right : ValueType} (h : join left right ≠ .unknown) :
    left = right := by
  unfold join at h
  by_cases heq : left = right
  · exact heq
  · exact absurd (if_neg heq) h

/-- A type that is found where nothing is expected is found whatever is expected: only a bare name
takes its type from what is expected, and where nothing is, it has none. -/
theorem typeAt_expected (expected : ValueType) (depth : Nat) (e : Expr)
    (h : typeAt s .unknown depth e ≠ .unknown) :
    typeAt s expected depth e = typeAt s .unknown depth e := by
  induction depth, e using Check.induction with
  | deep depth e hdeep => exact absurd (typeAt_of_lt hdeep e) h
  | call depth c arguments hdepth _ => rw [typeAt_call hdepth, typeAt_call hdepth]
  | leaf depth e hdepth he =>
    cases e with
    | identifier name span =>
      refine absurd ?_ h
      rw [typeAt, walk_identifier hdepth]
      rfl
    | call | operator | unary | sub => exact absurd he Bool.false_ne_true
    | _ => simp only [typeAt, walk]
  | operator depth op left right span hdepth ihleft ihright =>
    rw [typeAt_operator hdepth] at h
    rw [typeAt_operator hdepth, typeAt_operator hdepth]
    -- where nothing is expected the operands agree on a type, so they do so in any case
    have heq := eq_of_join_ne_unknown h
    have hleft : typeAt s .unknown (depth + 1) left ≠ .unknown := by
      rw [← heq, join, if_pos rfl] at h
      exact h
    rw [ihleft hleft, ihright (heq ▸ hleft)]
  | unary depth op operand span hdepth ih =>
    rw [typeAt_unary hdepth] at h
    rw [typeAt_unary hdepth, typeAt_unary hdepth, ih h]
  | sub depth inner span hdepth ih =>
    rw [typeAt_sub hdepth] at h
    rw [typeAt_sub hdepth, typeAt_sub hdepth, ih h]

end Check

/-! ## Order of expectations -/

/-- A type that lets pass whatever another does accepts every tree that the other accepts. -/
theorem Accepted.mono {registry : Registry} {scope : ObjectScope} {expected expected' : ValueType}
    (hle : ∀ declared, Fits declared expected → Fits declared expected') {depth : Nat} {e : Expr}
    (h : Accepted registry scope depth expected e) :
    Accepted registry scope depth expected' e := by
  induction depth, e using Check.induction with
  | deep depth e hdeep => exact absurd h.le_maxDepth (Nat.not_le.mpr hdeep)
  | call depth c arguments hdepth _ =>
    obtain ⟨-, signature, hmeans, hcapable, hfits, hrest⟩ := accepted_call_iff.mp h
    -- the arguments are expected to have the types of their parameters, whatever the call is
    exact accepted_call_iff.mpr
      ⟨hdepth, signature, hmeans, hcapable, hle _ hfits, hrest⟩
  | leaf depth e hdepth he => exact .leaf hdepth he
  | operator depth op left right span hdepth ihleft ihright =>
    obtain ⟨-, hleft, hright⟩ := accepted_operator_iff.mp h
    exact .operator hdepth (ihleft hleft) (ihright hright)
  | unary depth op operand span hdepth ih =>
    exact .unary hdepth (ih (accepted_unary_iff.mp h).2)
  | sub depth inner span hdepth ih =>
    exact .sub hdepth (ih (accepted_sub_iff.mp h).2)

/-- What passes for a number passes for a number or a text. -/
theorem Fits.numberOrString_of_number {declared : ValueType} (h : Fits declared .number) :
    Fits declared .numberOrString := by
  cases h with
  | unknownDeclared => exact .unknownDeclared _
  | same => exact .number

/-- What passes for a text passes for a number or a text. -/
theorem Fits.numberOrString_of_string {declared : ValueType} (h : Fits declared .string) :
    Fits declared .numberOrString := by
  cases h with
  | unknownDeclared => exact .unknownDeclared _
  | same => exact .string

/-- A tree is valid where more passes if it is valid where less does. -/
theorem isValid_mono {registry : Registry} {scope : ObjectScope} {expected expected' : ValueType}
    (hle : ∀ declared, Fits declared expected → Fits declared expected') {e : Expr}
    (h : (validate registry scope expected e).isValid = true) :
    (validate registry scope expected' e).isValid = true :=
  isValid_iff_accepted.mpr ((isValid_iff_accepted.mp h).mono hle)

/-- **`unknown` is expected of nothing, and every other expectation only adds mismatches.** -/
theorem validate_expected_mono (registry : Registry) (scope : ObjectScope) (expected : ValueType)
    (e : Expr) :
    (validate registry scope .unknown e).diagnostics.Sublist
        (validate registry scope expected e).diagnostics
      ∧ (∃ extra,
        Interleaved (validate registry scope .unknown e).diagnostics extra
            (validate registry scope expected e).diagnostics
          ∧ (∀ d ∈ extra, ∃ mismatch, d.code = .returnTypeMismatch mismatch)
          ∧ (extra.map Diagnostic.span).Sublist (e.spineCalls.map Callee.span))
      ∧ (validate registry scope .unknown e).objectVariables
        = (validate registry scope expected e).objectVariables
      ∧ ((validate registry scope .unknown e).inferredType ≠ .unknown →
        (validate registry scope expected e).inferredType
          = (validate registry scope .unknown e).inferredType)
      ∧ ((validate registry scope .number e).isValid = true
          ∨ (validate registry scope .string e).isValid = true →
        (validate registry scope .numberOrString e).isValid = true)
      ∧ ((validate registry scope expected e).isValid = true →
        (validate registry scope .unknown e).isValid = true) := by
  obtain ⟨extra, hinterleaved, hcode, hspan⟩ :=
    Check.addsMismatches_diagnosticsAt (s := Check.setting registry scope) expected 0 e
  refine ⟨hinterleaved.sublist_left, ⟨extra, hinterleaved, hcode, hspan⟩,
    Check.objectVariables_walk_expected expected 0 e, Check.typeAt_expected expected 0 e, ?_,
    isValid_mono fun _ _ => .unknownExpected _⟩
  rintro (h | h)
  · exact isValid_mono (fun _ => Fits.numberOrString_of_number) h
  · exact isValid_mono (fun _ => Fits.numberOrString_of_string) h

end EventSheet
