import EventSheet.Proofs.Check.Depth
import EventSheet.Proofs.Check.Variables

/-!
Where a check points.

A tree comes with its spans, and nothing forces these to fit together (`Expr.SpansNest` says that
they do). Most of what a walk says points at a node of the tree, but two checks of a call do not:
a capability is missing at the name of the object, and too many arguments are marked from the first
that is left over to the end of the call (`Check.checkCall_span`). Where the spans of a tree nest,
none of these points outside (`validate_spans_within`).
-/

set_option autoImplicit false

namespace EventSheet

/-! ## Stretches inside others -/

namespace Span

/-- The span runs forwards. -/
def Forward (a : Span) : Prop := a.start ≤ a.stop

instance (a : Span) : Decidable a.Forward := inferInstanceAs (Decidable (a.start ≤ a.stop))

/-- A span does not reach out of another. -/
structure Within (a b : Span) : Prop where
  start : b.start ≤ a.start
  stop : a.stop ≤ b.stop

instance (a b : Span) : Decidable (a.Within b) :=
  decidable_of_iff (b.start ≤ a.start ∧ a.stop ≤ b.stop)
    ⟨fun h => ⟨h.1, h.2⟩, fun h => ⟨h.start, h.stop⟩⟩

theorem Within.refl (a : Span) : a.Within a := ⟨UInt64.le_refl _, UInt64.le_refl _⟩

theorem Within.trans {a b c : Span} (hab : a.Within b) (hbc : b.Within c) : a.Within c :=
  ⟨UInt64.le_trans hbc.start hab.start, UInt64.le_trans hab.stop hbc.stop⟩

/-- From the start of a span to the end of the one around it. -/
theorem Within.rest {a b : Span} (h : a.Within b) (ha : a.Forward) :
    Span.Forward ⟨a.start, max b.stop a.stop⟩ ∧ Span.Within ⟨a.start, max b.stop a.stop⟩ b := by
  have hmax : max b.stop a.stop = b.stop := by
    apply ite_eq_right_iff.mpr
    intro hle
    exact UInt64.le_antisymm h.stop hle
  rw [hmax]
  exact ⟨UInt64.le_trans ha h.stop, h.start, UInt64.le_refl _⟩

end Span

/-! ## Trees with spans that fit together -/

/-- All spans of a tree run forwards, and no part reaches out of what it is a part of. The span of
an object's name counts where there is a name. -/
structure Expr.SpansNest (e : Expr) : Prop where
  forward : ∀ x : Expr, x.IsPart e → x.span.Forward
  children : ∀ x : Expr, x.IsPart e → ∀ child ∈ x.children, child.span.Within x.span
  receivers : ∀ c arguments, Expr.IsPart (.call c arguments) e → c.objectName ≠ "" →
    c.objectNameSpan.Forward ∧ c.objectNameSpan.Within c.span

namespace Expr.SpansNest

variable {e x : Expr}

theorem of_isPart (h : e.SpansNest) (hx : x.IsPart e) : x.SpansNest where
  forward y hy := h.forward y (hy.trans hx)
  children y hy := h.children y (hy.trans hx)
  receivers c arguments hc := h.receivers c arguments (hc.trans hx)

/-- A part of a tree does not reach out of the tree. -/
theorem within (h : e.SpansNest) (hx : x.IsPart e) : x.span.Within e.span := by
  -- from the part outwards, one node at a time
  have hstep : ∀ y z : Expr, z.SpansNest → y ∈ z.children → y.IsPart z →
      (y.SpansNest → x.span.Within y.span) → x.span.Within z.span := by
    intro y z hz hy hpart ih
    exact (ih (hz.of_isPart hpart)).trans (hz.children z .self y hy)
  induction hx with
  | self => exact Span.Within.refl _
  | argument ha _ ih => exact hstep _ _ h ha (.argument ha .self) ih
  | left _ ih => exact hstep _ _ h List.mem_cons_self (.left .self) ih
  | right _ ih => exact hstep _ _ h (List.mem_cons_of_mem _ List.mem_cons_self) (.right .self) ih
  | operand _ ih => exact hstep _ _ h List.mem_cons_self (.operand .self) ih
  | inner _ ih => exact hstep _ _ h List.mem_cons_self (.inner .self) ih

theorem part (h : e.SpansNest) (hx : x.IsPart e) : x.span.Forward ∧ x.span.Within e.span :=
  ⟨h.forward x hx, h.within hx⟩

end Expr.SpansNest

/-! ## Where each check points -/

namespace Check

variable {s : Setting}

/-- Only the object of a call can lack something. -/
theorem objectName_ne_of_missingCapability? {c : Callee} {signature : Signature}
    {capability : String} (h : missingCapability? s c signature = some capability) :
    c.objectName ≠ "" := by
  intro hname
  have hcapable : Capable s.registry s.scope c signature := by
    intro required type t _ _ hobject
    exact absurd hname hobject
  rw [(missingCapability?_eq_none_iff s c signature).mpr hcapable] at h
  exact Option.some_ne_none capability h.symm

/-- The checks of a call before its arguments point at the call, at the name of its object, or at
the rest of the call from one of its arguments on. -/
theorem checkCall_span {expected : ValueType} {c : Callee} {arguments : List Expr}
    {d : Diagnostic} (hd : d ∈ (checkCall s expected c arguments).diagnostics) :
    d.span = c.span
      ∨ (c.objectName ≠ "" ∧ d.span = c.objectNameSpan)
      ∨ ∃ excess ∈ arguments,
        d.span = ⟨excess.span.start, max c.span.stop excess.span.stop⟩ := by
  rcases mem_checkCall_cases hd with
    ⟨-, rfl⟩ | ⟨signature, -, ⟨capability, hmissing, rfl⟩ | hd | hd⟩
  · exact Or.inl rfl
  · exact Or.inr (Or.inl ⟨objectName_ne_of_missingCapability? hmissing, rfl⟩)
  · obtain ⟨mismatch, -, rfl⟩ := mem_returnTypeDiagnostics_iff.mp hd
    exact Or.inl rfl
  · rcases mem_arityDiagnostics hd with rfl | ⟨excess, hexcess, rfl⟩
    · exact Or.inl rfl
    · exact Or.inr (Or.inr ⟨excess, List.mem_of_getElem? hexcess, rfl⟩)

/-- What is wrong with a tree whose spans nest lies within the tree. -/
theorem diagnosticsAt_within {e : Expr} (h : e.SpansNest) (expected : ValueType) (depth : Nat) :
    ∀ d ∈ diagnosticsAt s expected depth e, d.span.Forward ∧ d.span.Within e.span := by
  apply forall_diagnosticsAt
  · -- a node that lies too deep
    intro x hx
    exact h.part hx
  · -- a call, before its arguments
    intro expected c arguments hc d hd
    have hcall := (h.part hc).2
    rcases checkCall_span hd with hspan | ⟨hname, hspan⟩ | ⟨excess, hexcess, hspan⟩
    · rw [hspan]
      exact h.part hc
    · rw [hspan]
      obtain ⟨hforward, hwithin⟩ := h.receivers c arguments hc hname
      exact ⟨hforward, hwithin.trans hcall⟩
    · rw [hspan]
      have hchild := h.children _ hc excess hexcess
      obtain ⟨hforward, hwithin⟩ := hchild.rest (h.part (.argument_of_call hc hexcess)).1
      exact ⟨hforward, hwithin.trans hcall⟩
  · -- an argument, left out or in a form that does not suit its parameter
    intro c arguments hc parameters _ p _ a ha
    have hinside := h.part (.argument_of_call hc ha)
    constructor
    · intro d hd
      obtain ⟨-, rfl⟩ := mem_placeholderFindings_iff.mp hd
      exact hinside
    · intro d hd
      rcases mem_categoryFindings_iff.mp hd with ⟨-, rfl⟩ | ⟨-, -, rfl⟩
      · exact hinside
      · exact hinside

/-- The variables noted in a tree whose spans nest lie within the tree. -/
theorem objectVariables_walk_within {e : Expr} (h : e.SpansNest) (expected : ValueType)
    (depth : Nat) : ∀ v ∈ (walk s expected depth none e).2.objectVariables,
      v.span.Forward ∧ v.span.Within e.span := by
  intro v hv
  rw [objectVariables_walk] at hv
  obtain ⟨visit, hvisit, hv⟩ := List.mem_filterMap.mp hv
  obtain ⟨d, arguments, hreached, -, hin⟩ := mem_visits_iff.mp hvisit
  have hinside := h.part (.argument_of_call hreached.isPart hin.argument_mem)
  -- the variable is the argument itself
  rcases Visit.argument_of_noted hv with hname | hname
  · rw [hname] at hinside
    exact hinside
  · rw [hname] at hinside
    exact hinside

end Check

/-- **Nothing points outside.** Where the spans of a tree run forwards and nest, those of all that
is wrong with it and of all variables noted run forwards and lie within the span of the whole. -/
theorem validate_spans_within (registry : Registry) (scope : ObjectScope) (expected : ValueType)
    {e : Expr} (h : e.SpansNest) :
    (∀ d ∈ (validate registry scope expected e).diagnostics,
        d.span.Forward ∧ d.span.Within e.span)
      ∧ ∀ v ∈ (validate registry scope expected e).objectVariables,
        v.span.Forward ∧ v.span.Within e.span :=
  ⟨Check.diagnosticsAt_within h expected 0, Check.objectVariables_walk_within h expected 0⟩

/-- A node without parts is its only part. -/
theorem Expr.IsPart.eq_of_children_eq_nil {x e : Expr} (hx : x.IsPart e) (h : e.children = []) :
    x = e := by
  cases hx with
  | self => rfl
  | argument ha _ =>
    rw [Expr.children] at h
    rw [h] at ha
    exact absurd ha List.not_mem_nil
  | left _ | right _ | operand _ | inner _ => exact absurd h (List.cons_ne_nil _ _)

/-- A call with one argument too many, which is marked from there to the end of the call. -/
theorem validate_spans_within_excess :
    let c : Callee := .free "Pow" ⟨0, 12⟩
    let arguments : List Expr := [.number "2" ⟨4, 5⟩, .number "3" ⟨7, 8⟩, .number "4" ⟨10, 11⟩]
    let outcome := validate Registry.withPower ProjectScope.empty.toScope .number
      (.call c arguments)
    Expr.SpansNest (.call c arguments)
      ∧ outcome.diagnostics = [(Problem.tooManyArguments 2 2).at ⟨10, 12⟩]
      ∧ (∀ d ∈ outcome.diagnostics, d.span.Forward ∧ d.span.Within c.span) := by
  intro c arguments outcome
  have hleaves : ∀ a ∈ arguments, a.children = [] ∧ a.span.Forward ∧ a.span.Within c.span := by
    decide
  have hparts : ∀ x : Expr, x.IsPart (.call c arguments) →
      x = .call c arguments ∨ x ∈ arguments := by
    intro x hx
    cases hx with
    | self => exact Or.inl rfl
    | argument ha hx => exact Or.inr (hx.eq_of_children_eq_nil (hleaves _ ha).1 ▸ ha)
  have h : Expr.SpansNest (.call c arguments) := by
    refine ⟨fun x hx => ?_, fun x hx a ha => ?_, fun c' arguments' hx hname => ?_⟩
    · rcases hparts x hx with rfl | hx
      · decide
      · exact (hleaves x hx).2.1
    · rcases hparts x hx with rfl | hx
      · exact (hleaves a ha).2.2
      · rw [(hleaves x hx).1] at ha
        exact absurd ha List.not_mem_nil
    · rcases hparts _ hx with heq | hx
      · cases heq
        exact absurd rfl hname
      · simp [arguments] at hx
  exact ⟨h, rfl, (validate_spans_within _ _ _ h).1⟩

end EventSheet
