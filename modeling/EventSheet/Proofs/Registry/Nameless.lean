import EventSheet.Proofs.Check.Acceptance
import EventSheet.Proofs.Registry.Registrations

/-!
Functions without a name.

A function cannot be registered without a name, but a copy of one can: the new name of a copy is not
looked at. So a registry has a nameless function exactly if some registration has copied a function
that was there to the empty name (`nameless_functions`). A call without a name then means that
function, and is reported as unknown where there is none.
-/

set_option autoImplicit false

namespace EventSheet

namespace Check

/-- A call that means no function is reported once, and its arguments are not looked at. -/
theorem walk_call_of_not_means {s : Setting} {callee : Callee}
    (h : ∀ signature, ¬ Means s.registry s.scope callee signature) {depth : Nat}
    (hdepth : depth ≤ maxDepth) (expected : ValueType) (owner : Option String)
    (arguments : List Expr) :
    walk s expected depth owner (.call callee arguments)
      = (.unknown, .ofProblem (.unknownFunction callee.functionName (suggestions s callee))
          callee.span) := by
  have hresolve : resolve s callee = none := resolve_eq_none_iff.mpr h
  have hcheck : checkCall s expected callee arguments
      = ⟨.unknown,
          [(Problem.unknownFunction callee.functionName (suggestions s callee)).at callee.span],
          none⟩ := by
    rw [checkCall, hresolve]
  rw [walk, if_neg (Nat.not_lt.mpr hdepth), hcheck]
  rfl

end Check

namespace Registry

/-- Only a copy puts a function at a key without a name. -/
theorem makes_nameless_iff {r : Registry} {owner : Owner} {kind : Kind} {x : Registration} :
    r.Makes ⟨owner, kind, ""⟩ x ↔ ∃ existing, x = .copy owner kind "" existing
      ∧ r.find? ⟨owner, kind, existing⟩ ≠ none := by
  cases x with
  | object name description capabilities blueprint => simp [Makes]
  | behavior name => simp [Makes]
  | function owner' kind' signature =>
    -- a function without a name is refused, so none is put there this way
    have hrefused : ¬ r.Makes ⟨owner, kind, ""⟩ (.function owner' kind' signature) := by
      rintro ⟨hkey, r', h⟩
      exact (addFunction_eq_ok_iff.mp h).1 (congrArg FunctionKey.name hkey)
    simp [hrefused]
  | copy owner' kind' newName existing =>
    simp only [Makes, FunctionKey.mk.injEq, Registration.copy.injEq]
    constructor
    · rintro ⟨⟨rfl, rfl, rfl⟩, hsource⟩
      exact ⟨existing, ⟨rfl, rfl, rfl, rfl⟩, hsource⟩
    · rintro ⟨existing, ⟨rfl, rfl, rfl, rfl⟩, hsource⟩
      exact ⟨⟨rfl, rfl, rfl⟩, hsource⟩

/-- **Nameless functions.** An owner has a nameless function of a kind exactly if a registration has
copied one of its functions of that kind to the empty name. A call without a name is reported,
once and at its span, if neither its receiver nor the base of the receiver's sort has a nameless
expression. Otherwise it means one. -/
theorem nameless_functions (platform : String) (registrations : List Registration) :
    let r := run platform registrations
    (∀ owner kind, r.find? ⟨owner, kind, ""⟩ ≠ none ↔
        ∃ before existing after, registrations = before ++ .copy owner kind "" existing :: after
          ∧ (run platform before).find? ⟨owner, kind, existing⟩ ≠ none)
      ∧ ∀ scope callee receiver, callee.functionName = "" → Receiver scope callee receiver →
        ((∃ signature, Means r scope callee signature) ↔
            r.find? ⟨receiver, .expression, ""⟩ ≠ none
              ∨ r.find? ⟨receiver.base, .expression, ""⟩ ≠ none)
          ∧ (r.find? ⟨receiver, .expression, ""⟩ = none →
            r.find? ⟨receiver.base, .expression, ""⟩ = none →
            ∀ expected depth owner arguments, depth ≤ maxDepth →
              let s := Check.setting r scope
              Check.walk s expected depth owner (.call callee arguments)
                = (.unknown, .ofProblem (.unknownFunction "" (Check.suggestions s callee))
                    callee.span)) := by
  intro r
  constructor
  · intro owner kind
    rw [find?_run_ne_none_iff]
    simp only [makes_nameless_iff]
    constructor
    · rintro ⟨before, x, after, hsplit, existing, rfl, hsource⟩
      exact ⟨before, existing, after, hsplit, hsource⟩
    · rintro ⟨before, existing, after, hsplit, hsource⟩
      exact ⟨before, _, after, hsplit, existing, rfl, hsource⟩
  · intro scope callee receiver hname hreceiver
    have hmeans : (∃ signature, Means r scope callee signature)
        ↔ r.find? ⟨receiver, .expression, callee.functionName⟩ ≠ none
          ∨ r.find? ⟨receiver.base, .expression, callee.functionName⟩ ≠ none :=
      hreceiver.exists_means_iff
    rw [hname] at hmeans
    refine ⟨hmeans, fun hown hbase expected depth owner arguments hdepth => ?_⟩
    -- neither table that a look-up goes through has a nameless function
    have hnone : ∀ signature, ¬ Means r scope callee signature := by
      intro signature hsome
      rcases hmeans.mp ⟨signature, hsome⟩ with hfound | hfound
      · exact hfound hown
      · exact hfound hbase
    have hwalk := Check.walk_call_of_not_means (s := Check.setting r scope) hnone hdepth expected
      owner arguments
    rw [hname] at hwalk
    exact hwalk

/-- A function is refused without a name, and copied to the empty name. The copy is listed, and a
call without a name is in order. -/
theorem nameless_copy_callable :
    let score : Signature := ⟨"GetScore", "number", [], none, .global, ""⟩
    let r := run "game" [.function .global .expression score,
      .copy .global .expression "" "GetScore"]
    (empty "game").addFunction .global .expression { score with name := "" }
        = .error (.emptyFunctionName .global)
      ∧ r.functionsIn .expression .global = [{ score with name := "" }, score]
      ∧ validate r ProjectScope.empty.toScope .number (.call (.free "" ⟨0, 2⟩) [])
        = ⟨[], .number, []⟩ :=
  ⟨rfl, rfl, rfl⟩

end Registry

end EventSheet
