import EventSheet.Proofs.Check.Codes
import EventSheet.Proofs.Check.Context

/-!
What a walk sees of a deep tree.

The walk ends at nodes at depth 65: of such a node it reports the span and nothing else. So the
reports of too much depth are, in order, among the nodes at that depth (`Expr.nodesAt`), and what
fills a hole at that depth shows in nothing that is found, as long as the call around it sees the
same (`Interchangeable`). One thing of the filling does go on: a bare name becomes the object that
was written last, of which a variable in a later argument would be noted. But the later arguments of
that call lie as deep as the name, and are not looked at either (`Check.walkArguments_of_deep`).
-/

set_option autoImplicit false

namespace EventSheet

/-! ## Nodes by depth -/

namespace Expr

/-- The parts right below the root. -/
def children : Expr → List Expr
  | .call _ arguments => arguments
  | .operator _ left right _ => [left, right]
  | .unary _ operand _ => [operand]
  | .sub inner _ => [inner]
  | _ => []

/-- The nodes at a depth below the root, from left to right. -/
def nodesAt : Nat → Expr → List Expr
  | 0, e => [e]
  | n + 1, e => e.children.flatMap fun child => nodesAt n child

theorem nodesAt_zero (e : Expr) : e.nodesAt 0 = [e] := rfl

theorem nodesAt_succ (n : Nat) (e : Expr) :
    e.nodesAt (n + 1) = e.children.flatMap fun child => child.nodesAt n := rfl

theorem mem_nodesAt_succ {n : Nat} {e x : Expr} :
    x ∈ e.nodesAt (n + 1) ↔ ∃ child ∈ e.children, x ∈ child.nodesAt n := by
  rw [nodesAt_succ, List.mem_flatMap]

/-- The nodes at the first depth that is not looked at, by the parts of a tree that is. -/
theorem nodesAt_of_le {depth : Nat} (h : depth ≤ maxDepth) (e : Expr) :
    e.nodesAt (maxDepth + 1 - depth)
      = e.children.flatMap fun child => child.nodesAt (maxDepth + 1 - (depth + 1)) := by
  have hsucc : maxDepth + 1 - depth = maxDepth + 1 - (depth + 1) + 1 := by omega
  rw [hsucc, nodesAt_succ]

end Expr

/-- The depth of the hole. -/
def Context.depth : Context → Nat
  | .hole => 0
  | .argument _ _ inner _ | .leftOperand _ inner _ _ | .rightOperand _ _ inner _
  | .operand _ inner _ | .parentheses inner _ => inner.depth + 1

/-- The nodes of what fills a hole are nodes of the whole, as much deeper as the hole lies. -/
theorem Context.mem_nodesAt_fill_of_mem (k : Context) {x y : Expr} {n : Nat}
    (h : y ∈ x.nodesAt n) : y ∈ (k.fill x).nodesAt (n + k.depth) := by
  induction k with
  | hole => exact h
  | argument c before inner after ih =>
    apply Expr.mem_nodesAt_succ.mpr
    exact ⟨inner.fill x, List.mem_append_right before List.mem_cons_self, ih⟩
  | leftOperand op inner right span ih =>
    apply Expr.mem_nodesAt_succ.mpr
    exact ⟨inner.fill x, List.mem_cons_self, ih⟩
  | rightOperand op left inner span ih =>
    apply Expr.mem_nodesAt_succ.mpr
    exact ⟨inner.fill x, List.mem_cons_of_mem left List.mem_cons_self, ih⟩
  | operand op inner span ih | parentheses inner span ih =>
    apply Expr.mem_nodesAt_succ.mpr
    exact ⟨inner.fill x, List.mem_cons_self, ih⟩

/-- What fills a hole is a node at the depth of the hole. -/
theorem Context.mem_nodesAt_fill (k : Context) (x : Expr) : x ∈ (k.fill x).nodesAt k.depth := by
  have hroot : x ∈ x.nodesAt 0 := List.mem_singleton_self x
  have hfill := k.mem_nodesAt_fill_of_mem hroot
  rwa [Nat.zero_add] at hfill

/-! ## Reports of too much depth -/

/-- The spans of the diagnostics of a code. -/
def spansOf (code : Code) (l : List Diagnostic) : List Span :=
  (l.filter fun d => d.code = code).map Diagnostic.span

section SpansOf

variable {code : Code}

theorem spansOf_append (l m : List Diagnostic) :
    spansOf code (l ++ m) = spansOf code l ++ spansOf code m := by
  unfold spansOf
  rw [List.filter_append, List.map_append]

/-- Where no diagnostic has the code, there are no spans of it. -/
theorem spansOf_eq_nil {l : List Diagnostic} (h : ∀ d ∈ l, d.code ≠ code) :
    spansOf code l = [] := by
  unfold spansOf
  rw [List.map_eq_nil_iff, List.filter_eq_nil_iff]
  intro d hd hcode
  exact h d hd (of_decide_eq_true hcode)

/-- The reports of many walks, one behind the other. -/
theorem spansOf_flatMap {α : Type} (l : List α) (f : α → List Diagnostic) :
    spansOf code (l.flatMap f) = l.flatMap fun a => spansOf code (f a) := by
  induction l with
  | nil => rfl
  | cons a l ih => rw [List.flatMap_cons, List.flatMap_cons, spansOf_append, ih]

theorem mem_spansOf {l : List Diagnostic} {d : Diagnostic} (hd : d ∈ l) (hcode : d.code = code) :
    d.span ∈ spansOf code l :=
  List.mem_map_of_mem (List.mem_filter.mpr ⟨hd, decide_eq_true hcode⟩)

end SpansOf

/-- Where the second of two lists is passed through as far as the first reaches, what is made of
each pair is part of what is made of the second list. -/
theorem flatMap_zip_sublist {α β γ : Type} {f : α × β → List γ} {g : β → List γ} (l : List α)
    (m : List β) (h : ∀ a, ∀ b ∈ m, (f (a, b)).Sublist (g b)) :
    ((l.zip m).flatMap f).Sublist (m.flatMap g) := by
  induction m generalizing l with
  | nil =>
    rw [List.zip_nil_right]
    exact List.Sublist.refl _
  | cons b m ih =>
    cases l with
    | nil => exact List.nil_sublist _
    | cons a l =>
      rw [List.zip_cons_cons, List.flatMap_cons, List.flatMap_cons]
      exact (h a b List.mem_cons_self).append
        (ih l fun a b hb => h a b (List.mem_cons_of_mem _ hb))

namespace Check

variable {s : Setting}

/-- What is said of a call as a whole is never that it lies too deep. -/
theorem spansOf_nestingTooDeep_checkCall (expected : ValueType) (c : Callee)
    (arguments : List Expr) :
    spansOf .nestingTooDeep (checkCall s expected c arguments).diagnostics = [] := by
  refine spansOf_eq_nil fun d hd hcode => ?_
  have hcall := checkCall_isOfCall hd
  rw [hcode] at hcall
  exact Bool.false_ne_true hcall

/-- Of an argument, only the walk through it reports too much depth. -/
theorem spansOf_nestingTooDeep_argument (depth : Nat) (p : Parameter) (a : Expr) :
    (spansOf .nestingTooDeep (argumentDiagnostics s depth p a)).Sublist
      (spansOf .nestingTooDeep (diagnosticsAt s p.type (depth + 1) a)) := by
  rw [argumentDiagnostics]
  -- a placeholder is not walked, so nothing of it can lie too deep
  by_cases hempty : a.isEmptyPlaceholder = true
  · have hnone : spansOf .nestingTooDeep (placeholderFindings p a.span).diagnostics = [] := by
      refine spansOf_eq_nil fun d hd hcode => ?_
      rw [placeholderFindings_code hd] at hcode
      exact Code.noConfusion hcode
    rw [if_pos hempty, hnone]
    exact List.nil_sublist _
  · have hnone : spansOf .nestingTooDeep (categoryFindings p a).diagnostics = [] := by
      refine spansOf_eq_nil fun d hd hcode => ?_
      rcases categoryFindings_code hd with ⟨hother, -⟩ | ⟨hother, -⟩
      · rw [hother] at hcode
        exact Code.noConfusion hcode
      · rw [hother] at hcode
        exact Code.noConfusion hcode
    rw [if_neg hempty, spansOf_append, hnone]
    exact List.append_nil _ ▸ List.Sublist.refl _

/-- The reports of too much depth are, in order, among the nodes at the first depth that is not
looked at. -/
theorem spansOf_nestingTooDeep_sublist (expected : ValueType) (depth : Nat) (e : Expr)
    (h : depth ≤ maxDepth + 1) :
    (spansOf .nestingTooDeep (diagnosticsAt s expected depth e)).Sublist
      ((e.nodesAt (maxDepth + 1 - depth)).map Expr.span) := by
  induction depth, e using Check.induction generalizing expected with
  | deep depth e hlt =>
    have hzero : maxDepth + 1 - depth = 0 := by omega
    -- the node itself is what lies too deep, and its span is the one report
    rw [diagnosticsAt_of_lt hlt, hzero, Expr.nodesAt_zero]
    exact List.Sublist.refl _
  | call depth c arguments hdepth ih =>
    -- only the arguments that are paired with a parameter are walked, but all of them are children
    have hchild : depth + 1 ≤ maxDepth + 1 := Nat.succ_le_succ hdepth
    rw [diagnosticsAt_call hdepth, spansOf_append, spansOf_nestingTooDeep_checkCall,
      List.nil_append, spansOf_flatMap, Expr.nodesAt_of_le hdepth, List.map_flatMap]
    refine flatMap_zip_sublist _ _ fun p a ha => ?_
    exact (spansOf_nestingTooDeep_argument depth p a).trans (ih a ha p.type hchild)
  | leaf depth e hdepth he =>
    rw [diagnosticsAt_leaf hdepth he]
    exact List.nil_sublist _
  | operator depth op left right span hdepth ihleft ihright =>
    have hchild : depth + 1 ≤ maxDepth + 1 := Nat.succ_le_succ hdepth
    rw [diagnosticsAt_operator hdepth, spansOf_append, Expr.nodesAt_of_le hdepth, Expr.children,
      List.flatMap_cons, List.flatMap_singleton, List.map_append]
    exact (ihleft expected hchild).append (ihright expected hchild)
  | unary depth op operand span hdepth ih =>
    have hchild : depth + 1 ≤ maxDepth + 1 := Nat.succ_le_succ hdepth
    rw [diagnosticsAt_unary hdepth, Expr.nodesAt_of_le hdepth, Expr.children,
      List.flatMap_singleton]
    exact ih expected hchild
  | sub depth inner span hdepth ih =>
    have hchild : depth + 1 ≤ maxDepth + 1 := Nat.succ_le_succ hdepth
    rw [diagnosticsAt_sub hdepth, Expr.nodesAt_of_le hdepth, Expr.children,
      List.flatMap_singleton]
    exact ih expected hchild

/-! ## What lies too deep is not seen -/

/-- An argument that is no placeholder: it is walked, judged as a whole, and then the next ones
follow. -/
theorem walkArguments_cons_of_notEmpty (depth : Nat) (lastObject : Option String) (p : Parameter)
    (parameters : List Parameter) {a : Expr} (ha : a.isEmptyPlaceholder = false)
    (arguments : List Expr) :
    walkArguments s depth lastObject (p :: parameters) (a :: arguments)
      = (walk s p.type (depth + 1) (variableOwner p lastObject) a).2 ++ categoryFindings p a
        ++ walkArguments s depth (lastObjectAfter p a lastObject) parameters arguments := by
  rw [walkArguments, if_neg (by rw [ha]; exact Bool.false_ne_true)]

/-- Where the arguments of a call lie too deep, no variable among them is noted, so the object that
was written last does not matter. -/
theorem walkArguments_of_deep {depth : Nat} (h : maxDepth < depth + 1)
    (lastObject lastObject' : Option String) (parameters : List Parameter)
    (arguments : List Expr) :
    walkArguments s depth lastObject parameters arguments
      = walkArguments s depth lastObject' parameters arguments := by
  induction arguments generalizing parameters lastObject lastObject' with
  | nil => cases parameters <;> simp only [walkArguments]
  | cons a arguments ih =>
    cases parameters with
    | nil => rw [walkArguments, walkArguments]
    | cons p parameters =>
      rw [walkArguments, walkArguments]
      by_cases hempty : a.isEmptyPlaceholder = true
      · rw [if_pos hempty, if_pos hempty, ih lastObject lastObject']
      · -- the walk of an argument ends at once, so the owner that it is given is not used
        rw [if_neg hempty, if_neg hempty, walk_of_lt h, walk_of_lt h,
          ih (lastObjectAfter p a lastObject) (lastObjectAfter p a lastObject')]

/-- Paired with a parameter, two arguments show a call the same: what a walk finds in them, what is
said of their form, and the object that they leave behind, unless no later argument is asked for
it. -/
structure PairsAlike (s : Setting) (depth : Nat) (p : Parameter) (a b : Expr) : Prop where
  findings : ∀ lastObject, (walk s p.type (depth + 1) (variableOwner p lastObject) a).2
    = (walk s p.type (depth + 1) (variableOwner p lastObject) b).2
  form : categoryFindings p a = categoryFindings p b
  name : (∀ lastObject, lastObjectAfter p a lastObject = lastObjectAfter p b lastObject)
    ∨ maxDepth < depth + 1

/-- Arguments that a call cannot tell apart from outside show it the same if a walk finds the same
in both, and both or neither leave the same object behind, as far as any is asked for. -/
theorem PairsAlike.of_interchangeable {depth : Nat} {a b : Expr} (hab : Interchangeable a b)
    (p : Parameter)
    (hwalk : ∀ owner, walk s p.type (depth + 1) owner a = walk s p.type (depth + 1) owner b)
    (hname : a.identifier? = b.identifier? ∨ maxDepth < depth + 1) :
    PairsAlike s depth p a b where
  findings lastObject := by rw [hwalk]
  form := hab.categoryFindings_eq p
  name := by
    apply hname.imp_left
    intro hsame lastObject
    rw [lastObjectAfter, lastObjectAfter, hsame]

/-- One argument can take the place of another if the two show the call the same for the parameter
at that place. -/
theorem walkArguments_replace {depth : Nat} {a b : Expr} (ha : a.isEmptyPlaceholder = false)
    (hb : b.isEmptyPlaceholder = false) (lastObject : Option String)
    (parameters : List Parameter) (before after : List Expr)
    (hpairs : ∀ p, parameters[before.length]? = some p → PairsAlike s depth p a b) :
    walkArguments s depth lastObject parameters (before ++ a :: after)
      = walkArguments s depth lastObject parameters (before ++ b :: after) := by
  induction before generalizing parameters lastObject with
  | nil =>
    cases parameters with
    | nil => rw [List.nil_append, List.nil_append, walkArguments, walkArguments]
    | cons p parameters =>
      have halike := hpairs p rfl
      -- the replaced argument reaches those behind it only as the object that was written last
      have hrest : walkArguments s depth (lastObjectAfter p a lastObject) parameters after
          = walkArguments s depth (lastObjectAfter p b lastObject) parameters after := by
        rcases halike.name with hname | hdeep
        · rw [hname]
        · exact walkArguments_of_deep hdeep _ _ parameters after
      rw [List.nil_append, List.nil_append,
        walkArguments_cons_of_notEmpty depth lastObject p parameters ha,
        walkArguments_cons_of_notEmpty depth lastObject p parameters hb, halike.findings,
        halike.form, hrest]
  | cons x before ih =>
    cases parameters with
    | nil => rw [List.cons_append, List.cons_append, walkArguments, walkArguments]
    | cons p parameters =>
      have hrest := fun lastObject => ih lastObject parameters hpairs
      rw [List.cons_append, List.cons_append, walkArguments, walkArguments, hrest, hrest]

/-- A filled context that is more than its hole is no bare name. -/
theorem identifier?_fill {k : Context} (hk : 0 < k.depth) (x : Expr) :
    (k.fill x).identifier? = none := by
  cases k with
  | hole => exact absurd hk (Nat.lt_irrefl 0)
  | _ => rfl

/-- A hole that lies too deep in a context lies too deep in what is right below its root. -/
theorem lt_of_lt_succ {depth n : Nat} (h : maxDepth < depth + (n + 1)) :
    maxDepth < depth + 1 + n := by
  omega

/-- A walk finds the same whatever fills a hole that it does not look at. -/
theorem walk_fill_of_deep {x y : Expr} (h : Interchangeable x y) (k : Context)
    (expected : ValueType) (depth : Nat) (owner : Option String)
    (hdeep : maxDepth < depth + k.depth) :
    walk s expected depth owner (k.fill x) = walk s expected depth owner (k.fill y) := by
  induction depth, k using Context.induction generalizing expected owner with
  | deep depth k hlt => rw [walk_of_lt hlt, walk_of_lt hlt, (h.fill k).span]
  | hole depth hdepth =>
    rw [Context.depth, Nat.add_zero] at hdeep
    exact absurd hdeep (Nat.not_lt.mpr hdepth)
  | argument depth c before inner after hdepth ih =>
    have hinner := lt_of_lt_succ hdeep
    have hname : (inner.fill x).identifier? = (inner.fill y).identifier?
        ∨ maxDepth < depth + 1 := by
      rcases Nat.lt_or_ge maxDepth (depth + 1) with hlt | hge
      · exact Or.inr hlt
      · -- the hole lies deeper than the arguments of this call, so none of them is the hole itself
        have hpos : 0 < inner.depth := by omega
        rw [identifier?_fill hpos, identifier?_fill hpos]
        exact Or.inl rfl
    have hpairs : ∀ p, PairsAlike s depth p (inner.fill x) (inner.fill y) := fun p =>
      .of_interchangeable (h.fill inner) p (fun owner => ih p.type owner hinner) hname
    have harguments : ∀ parameters,
        walkArguments s depth (receiverName c) parameters (before ++ inner.fill x :: after)
          = walkArguments s depth (receiverName c) parameters (before ++ inner.fill y :: after) :=
      fun parameters => walkArguments_replace (h.fill inner).notEmpty (h.fill inner).notEmpty'
        (receiverName c) parameters before after fun p _ => hpairs p
    rw [Context.fill, Context.fill, walk_call hdepth, walk_call hdepth, length_append_cons,
      length_append_cons,
      checkCall_diagnostics_congr s expected c ((h.fill inner).map_span_eq before after)]
    simp only [harguments]
  | leftOperand depth op inner right span hdepth ih =>
    rw [Context.fill, Context.fill, walk_operator hdepth, walk_operator hdepth,
      ih expected none (lt_of_lt_succ hdeep)]
  | rightOperand depth op left inner span hdepth ih =>
    rw [Context.fill, Context.fill, walk_operator hdepth, walk_operator hdepth,
      ih expected none (lt_of_lt_succ hdeep)]
  | operand depth op inner span hdepth ih =>
    rw [Context.fill, Context.fill, walk_unary hdepth, walk_unary hdepth,
      ih expected none (lt_of_lt_succ hdeep)]
  | parentheses depth inner span hdepth ih =>
    rw [Context.fill, Context.fill, walk_sub hdepth, walk_sub hdepth,
      ih expected none (lt_of_lt_succ hdeep)]

end Check

/-- **The depth guard.** Nothing is reported as too deep in a tree whose nodes all lie at depth 64
or above. What is reported lies at depth 65, and there are no more reports than nodes there. And
nothing that stands at depth 65 shows in the outcome, beyond its span and what a call sees of its
form. -/
theorem validate_depth_guard (registry : Registry) (scope : ObjectScope) (expected : ValueType) :
    (∀ e : Expr, (∀ n, ∀ x ∈ e.nodesAt n, n ≤ 64) →
        ∀ d ∈ (validate registry scope expected e).diagnostics, d.code ≠ .nestingTooDeep)
      ∧ (∀ e : Expr,
        (∀ d ∈ (validate registry scope expected e).diagnostics, d.code = .nestingTooDeep →
          ∃ x ∈ e.nodesAt 65, d.span = x.span)
        ∧ ((validate registry scope expected e).diagnostics.filter fun d =>
            d.code = .nestingTooDeep).length ≤ (e.nodesAt 65).length)
      ∧ ∀ (k : Context) (x y : Expr), k.depth = 65 → Interchangeable x y →
        x ∈ (k.fill x).nodesAt 65 ∧ y ∈ (k.fill y).nodesAt 65
          ∧ validate registry scope expected (k.fill x)
            = validate registry scope expected (k.fill y) := by
  -- all three parts rest on this: the reports are a sublist of the spans at depth 65
  have hsublist : ∀ e : Expr,
      (spansOf .nestingTooDeep (validate registry scope expected e).diagnostics).Sublist
        ((e.nodesAt 65).map Expr.span) := fun e =>
    Check.spansOf_nestingTooDeep_sublist (s := Check.setting registry scope) expected 0 e
      (Nat.zero_le _)
  have hplace : ∀ e : Expr, ∀ d ∈ (validate registry scope expected e).diagnostics,
      d.code = .nestingTooDeep → ∃ x ∈ e.nodesAt 65, x.span = d.span := fun e d hd hcode =>
    List.mem_map.mp ((hsublist e).subset (mem_spansOf hd hcode))
  refine ⟨fun e hall d hd hcode => ?_, fun e => ⟨fun d hd hcode => ?_, ?_⟩,
    fun k x y hk hxy => ⟨?_, ?_, ?_⟩⟩
  · -- a report would need a node at depth 65
    obtain ⟨x, hx, -⟩ := hplace e d hd hcode
    have hle := hall 65 x hx
    omega
  · obtain ⟨x, hx, hspan⟩ := hplace e d hd hcode
    exact ⟨x, hx, hspan.symm⟩
  · have hlength := (hsublist e).length_le
    rwa [spansOf, List.length_map, List.length_map] at hlength
  · exact hk ▸ k.mem_nodesAt_fill x
  · exact hk ▸ k.mem_nodesAt_fill y
  · have hdeep : maxDepth < 0 + k.depth := by
      rw [hk]
      decide
    unfold validate Check.validateIn
    rw [Check.walk_fill_of_deep hxy k expected 0 none hdeep]

/-- A hole in parentheses, so many of them. -/
def Context.nested : Nat → Context
  | 0 => .hole
  | n + 1 => .parentheses (nested n) .origin

/-- In parentheses around a node without parts nothing lies deeper than that node. -/
theorem Context.nodesAt_nested {x : Expr} (hx : x.children = []) {m n : Nat} (h : m < n) :
    ((nested m).fill x).nodesAt n = [] := by
  induction m generalizing n with
  | zero =>
    cases n with
    | zero => exact absurd h (Nat.lt_irrefl 0)
    | succ n => rw [nested, fill, Expr.nodesAt_succ, hx, List.flatMap_nil]
  | succ m ih =>
    cases n with
    | zero => exact absurd h (Nat.not_lt_zero _)
    | succ n =>
      rw [nested, fill, Expr.nodesAt_succ, Expr.children, List.flatMap_singleton]
      exact ih (Nat.lt_of_succ_lt_succ h)

/-- A number in 64 pairs of parentheses is looked at. In one more it is reported, and a call of a
function that does not exist is not told apart from it. -/
theorem validate_depth_guard_parentheses :
    let x : Expr := .number "1" ⟨65, 66⟩
    let y : Expr := .call (.free "Missing" ⟨65, 66⟩) []
    let shallow := (Context.nested 64).fill x
    let deep := Context.nested 65
    let outcome := validate (Registry.empty "game") ProjectScope.empty.toScope .number
    (∀ n, ∀ z ∈ shallow.nodesAt n, n ≤ 64)
      ∧ (∀ d ∈ (outcome shallow).diagnostics, d.code ≠ .nestingTooDeep)
      ∧ (outcome (deep.fill x)).diagnostics = [Problem.nestingTooDeep.at ⟨65, 66⟩]
      ∧ (∃ z ∈ (deep.fill x).nodesAt 65, z.span = ⟨65, 66⟩)
      ∧ deep.depth = 65 ∧ Interchangeable x y
      ∧ outcome (deep.fill x) = outcome (deep.fill y) := by
  intro x y shallow deep outcome
  have hnodes : ∀ n, ∀ z ∈ shallow.nodesAt n, n ≤ 64 := by
    intro n z hz
    refine Nat.not_lt.mp fun hlt => ?_
    rw [Context.nodesAt_nested rfl hlt] at hz
    exact List.not_mem_nil hz
  -- both outcomes are closed terms, so the reports are read off by evaluation
  have hdeep : (outcome (deep.fill x)).diagnostics = [Problem.nestingTooDeep.at ⟨65, 66⟩] := rfl
  have hxy : Interchangeable x y := ⟨rfl, rfl, rfl, rfl⟩
  obtain ⟨hfine, hreports, hsame⟩ := validate_depth_guard (Registry.empty "game")
    ProjectScope.empty.toScope .number
  obtain ⟨z, hz, hspan⟩ := (hreports (deep.fill x)).1 (Problem.nestingTooDeep.at ⟨65, 66⟩)
    (by rw [hdeep]; exact List.mem_singleton_self _) rfl
  exact ⟨hnodes, hfine shallow hnodes, hdeep, ⟨z, hz, hspan.symm⟩, rfl, hxy,
    (hsame deep x y rfl hxy).2.2⟩

end EventSheet
