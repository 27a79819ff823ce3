import EventSheet.Proofs.Check.Acceptance
import EventSheet.Proofs.Check.Depth

/-!
Parentheses are transparent.

A walk passes parentheses by without a word, so they can only show in two ways. They lay what is
inside one level deeper; as long as all of it is still looked at, the walk of a tree does not depend
on its depth (`Check.walk_eq_of_fitsAt`). And a call looks at the form of its arguments: it asks
whether one is left out, whether one is the bare name of an object, and whether a variable is an
object's. Where it asks nothing of the kind (`Context.TakesParentheses`), parentheses change no
outcome (`validate_parentheses`).
-/

set_option autoImplicit false

namespace EventSheet

/-! ## Trees that are looked at as a whole -/

/-- Every node of a tree whose root lies at a depth is looked at. -/
def Expr.FitsAt (depth : Nat) (e : Expr) : Prop := ∀ n, ∀ x ∈ e.nodesAt n, depth + n ≤ maxDepth

namespace Expr.FitsAt

variable {depth depth' : Nat} {e : Expr}

theorem le_maxDepth (h : e.FitsAt depth) : depth ≤ maxDepth :=
  h 0 e (List.mem_singleton_self e)

theorem child (h : e.FitsAt depth) {a : Expr} (ha : a ∈ e.children) : a.FitsAt (depth + 1) := by
  intro n x hx
  have hnode : x ∈ e.nodesAt (n + 1) := mem_nodesAt_succ.mpr ⟨a, ha, hx⟩
  have hle := h (n + 1) x hnode
  omega

/-- What is looked at far down is looked at further up. -/
theorem mono (h : e.FitsAt depth) (hle : depth' ≤ depth) : e.FitsAt depth' := by
  intro n x hx
  have hdeep := h n x hx
  omega

/-- What fills a hole lies as deep in a tree as in the part right below the root, a level down. -/
theorem below {n : Nat} (h : e.FitsAt (depth + (n + 1) + 1)) : e.FitsAt (depth + 1 + n + 1) := by
  apply h.mono
  omega

end Expr.FitsAt

namespace Check

variable {s : Setting}

/-- The walk over arguments knows its depth through the walks of the arguments only. -/
theorem walkArguments_eq_of_walk_eq {depth depth' : Nat} {arguments : List Expr}
    (h : ∀ a ∈ arguments, ∀ expected owner,
      walk s expected (depth + 1) owner a = walk s expected (depth' + 1) owner a)
    (lastObject : Option String) (parameters : List Parameter) :
    walkArguments s depth lastObject parameters arguments
      = walkArguments s depth' lastObject parameters arguments := by
  induction arguments generalizing parameters lastObject with
  | nil => cases parameters <;> simp only [walkArguments]
  | cons a arguments ih =>
    have hrest := ih fun b hb => h b (List.mem_cons_of_mem a hb)
    cases parameters with
    | nil => rw [walkArguments, walkArguments]
    | cons p parameters =>
      rw [walkArguments, walkArguments, h a List.mem_cons_self, hrest, hrest]

/-- At whatever depth a tree stands, a walk that looks at all of it finds the same. -/
theorem walk_eq_of_fitsAt {depth depth' : Nat} {e : Expr} (h : e.FitsAt depth)
    (h' : e.FitsAt depth') (expected : ValueType) (owner : Option String) :
    walk s expected depth owner e = walk s expected depth' owner e := by
  induction e using Expr.induction generalizing depth depth' expected owner with
  | call c arguments ih =>
    have harguments : ∀ lastObject parameters,
        walkArguments s depth lastObject parameters arguments
          = walkArguments s depth' lastObject parameters arguments := by
      apply walkArguments_eq_of_walk_eq
      intro a ha
      exact ih a ha (h.child ha) (h'.child ha)
    -- the checks before the arguments do not know the depth
    rw [walk_call h.le_maxDepth, walk_call h'.le_maxDepth]
    simp only [harguments]
  | leaf e he =>
    -- of the depth such a node is only asked whether it is too great
    have hdepth := Nat.not_lt.mpr h.le_maxDepth
    have hdepth' := Nat.not_lt.mpr h'.le_maxDepth
    cases e with
    | call | operator | unary | sub => exact absurd he Bool.false_ne_true
    | _ => simp only [walk, if_neg hdepth, if_neg hdepth']
  | operator op left right span ihleft ihright =>
    have hleft : left ∈ (Expr.operator op left right span).children := List.mem_cons_self
    have hright : right ∈ (Expr.operator op left right span).children :=
      List.mem_cons_of_mem left List.mem_cons_self
    rw [walk_operator h.le_maxDepth, walk_operator h'.le_maxDepth,
      ihleft (h.child hleft) (h'.child hleft), ihright (h.child hright) (h'.child hright)]
  | unary op operand span ih =>
    have hoperand : operand ∈ (Expr.unary op operand span).children := List.mem_cons_self
    rw [walk_unary h.le_maxDepth, walk_unary h'.le_maxDepth,
      ih (h.child hoperand) (h'.child hoperand)]
  | sub inner span ih =>
    have hinner : inner ∈ (Expr.sub inner span).children := List.mem_cons_self
    rw [walk_sub h.le_maxDepth, walk_sub h'.le_maxDepth, ih (h.child hinner) (h'.child hinner)]

end Check

/-! ## Where parentheses may be put -/

/-- The call that the hole is an argument of, with the arguments before the hole and those behind
it. There is none if the hole is the root or an operand. -/
def Context.call? : Context → Option (Callee × List Expr × List Expr)
  | .hole => none
  | .argument c before .hole after => some (c, before, after)
  | .argument _ _ inner _ | .leftOperand _ inner _ _ | .rightOperand _ _ inner _
  | .operand _ inner _ | .parentheses inner _ => inner.call?

/-- A call looks at its arguments, so many of them, and pairs the one at a place with a
parameter. -/
def Callee.Pairs (registry : Registry) (scope : ObjectScope) (c : Callee) (count place : Nat)
    (p : Parameter) : Prop :=
  ∃ signature, Means registry scope c signature ∧ Capable registry scope c signature
    ∧ signature.minArguments c.receiverSlots ≤ count
    ∧ count ≤ signature.maxArguments c.receiverSlots
    ∧ (signature.written c.receiverSlots)[place]? = some p

/-- Nothing around the hole looks at the form of what fills it. The hole is the root or an operand;
or it is an argument, which is given, and if it is paired with a parameter, this stands neither for
an object nor for a variable of one. -/
def Context.TakesParentheses (registry : Registry) (scope : ObjectScope) (k : Context)
    (x : Expr) : Prop :=
  ∀ c before after, k.call? = some (c, before, after) →
    x.isEmptyPlaceholder = false
      ∧ ∀ p, c.Pairs registry scope (before.length + 1 + after.length) before.length p →
        p.category ≠ .object ∧ p.tag ≠ Category.objectVariableTag

/-- Unless the hole is its own argument, a call leaves the question to what is inside. -/
theorem Context.call?_argument (c : Callee) (before : List Expr) {inner : Context}
    (after : List Expr) (h : 0 < inner.depth) :
    (Context.argument c before inner after).call? = inner.call? := by
  cases inner with
  | hole => exact absurd h (Nat.lt_irrefl 0)
  | _ => rfl

/-- What encloses the hole hides what it is filled with. -/
theorem Context.interchangeable_fill {k : Context} (hk : 0 < k.depth) (x y : Expr) :
    Interchangeable (k.fill x) (k.fill y) := by
  cases k with
  | hole => exact absurd hk (Nat.lt_irrefl 0)
  | _ => exact ⟨rfl, rfl, rfl, rfl⟩

/-- Parentheses of the span of a node change no span. -/
theorem Context.span_fill_sub (k : Context) (x : Expr) :
    (k.fill (.sub x x.span)).span = (k.fill x).span := by
  cases k <;> rfl

theorem Context.notEmpty_fill_sub (k : Context) (x : Expr) (span : Span) :
    (k.fill (.sub x span)).isEmptyPlaceholder = false := by
  cases k <;> rfl

namespace Context.TakesParentheses

variable {registry : Registry} {scope : ObjectScope} {c : Callee} {before after : List Expr}
  {inner : Context} {x : Expr}

/-- The next call on the way to the hole is asked only if the hole is not an argument of this
one. -/
theorem inner_of_argument
    (h : (Context.argument c before inner after).TakesParentheses registry scope x)
    (hinner : 0 < inner.depth) : inner.TakesParentheses registry scope x := by
  intro c' before' after' hcall
  apply h c' before' after'
  rw [call?_argument c before after hinner, hcall]

/-- An argument that may be put in parentheses is no placeholder. -/
theorem notEmpty_fill
    (h : (Context.argument c before inner after).TakesParentheses registry scope x) :
    (inner.fill x).isEmptyPlaceholder = false := by
  cases inner with
  | hole => exact (h c before after rfl).1
  | _ => rfl

end Context.TakesParentheses

namespace Check

variable {s : Setting}

/-- What a call pairs an argument with is read off the parameters of its checks. -/
theorem pairs_iff {c : Callee} {count place : Nat} {p : Parameter} :
    c.Pairs s.registry s.scope count place p ↔
      ∃ parameters, argumentParameters? s c count = some parameters
        ∧ parameters[place]? = some p := by
  constructor
  · rintro ⟨signature, hmeans, hcapable, hmin, hmax, hp⟩
    exact ⟨_, argumentParameters?_eq_some hmeans hcapable hmin hmax, hp⟩
  · rintro ⟨parameters, hparameters, hp⟩
    obtain ⟨signature, hmeans, hcapable, hmin, hmax, rfl⟩ :=
      argumentParameters?_eq_some_iff.mp hparameters
    exact ⟨signature, hmeans, hcapable, hmin, hmax, hp⟩

/-- An argument in parentheses shows the call the same, unless its parameter is for objects or their
variables. -/
theorem pairsAlike_sub {depth : Nat} {p : Parameter} {x : Expr} (hx : x.FitsAt (depth + 2))
    (hcategory : p.category ≠ .object) (htag : p.tag ≠ Category.objectVariableTag) :
    PairsAlike s depth p (.sub x x.span) x where
  findings lastObject := by
    -- such a parameter hands no owner down, so the walk inside is the same but for its depth
    have hdepth : depth + 1 ≤ maxDepth := by
      have hle := hx.le_maxDepth
      omega
    have hshift := walk_eq_of_fitsAt (s := s) hx (hx.mono (Nat.le_succ (depth + 1))) p.type none
    rw [variableOwner, if_neg htag, walk_sub hdepth, hshift]
  form := by
    unfold categoryFindings
    cases hp : p.category with
    | object => exact absurd hp hcategory
    | _ => rfl
  name := by
    apply Or.inl
    intro lastObject
    unfold lastObjectAfter
    cases hp : p.category with
    | object => exact absurd hp hcategory
    | _ => rfl

/-- In a place that takes parentheses an argument shows the call the same, wherever in it they are
put. -/
theorem pairsAlike_fill_sub {depth : Nat} {c : Callee} {before after : List Expr} {inner : Context}
    {x : Expr} {parameters : List Parameter} {p : Parameter}
    (hplace : (Context.argument c before inner after).TakesParentheses s.registry s.scope x)
    (hx : x.FitsAt (depth + 1 + inner.depth + 1))
    (hparameters : argumentParameters? s c (before.length + 1 + after.length) = some parameters)
    (hp : parameters[before.length]? = some p)
    (hwalk : 0 < inner.depth → ∀ owner,
      walk s p.type (depth + 1) owner (inner.fill (.sub x x.span))
        = walk s p.type (depth + 1) owner (inner.fill x)) :
    PairsAlike s depth p (inner.fill (.sub x x.span)) (inner.fill x) := by
  by_cases hinner : 0 < inner.depth
  · have hsame : (inner.fill (.sub x x.span)).identifier? = (inner.fill x).identifier? := by
      rw [identifier?_fill hinner, identifier?_fill hinner]
    exact .of_interchangeable (Context.interchangeable_fill hinner _ x) p (hwalk hinner)
      (Or.inl hsame)
  · cases inner with
    | hole =>
      -- the argument itself is put in parentheses, so the call must not look at its form
      have hpairs := pairs_iff.mpr ⟨parameters, hparameters, hp⟩
      obtain ⟨hcategory, htag⟩ := (hplace c before after rfl).2 p hpairs
      exact pairsAlike_sub hx hcategory htag
    | _ => exact absurd (Nat.succ_pos _) hinner

/-- A walk finds the same with parentheses as without them. The owner of a variable goes to the root
alone, and there is none where the root itself is put in parentheses. -/
theorem walk_fill_sub {x : Expr} (k : Context) (depth : Nat)
    (hplace : k.TakesParentheses s.registry s.scope x) (hx : x.FitsAt (depth + k.depth + 1))
    (expected : ValueType) (owner : Option String) (howner : k.depth = 0 → owner = none) :
    walk s expected depth owner (k.fill (.sub x x.span)) = walk s expected depth owner (k.fill x)
    := by
  induction depth, k using Context.induction generalizing expected owner with
  | deep depth k hdeep =>
    have hle := hx.le_maxDepth
    omega
  | hole depth hdepth =>
    have hshift := walk_eq_of_fitsAt (s := s) hx (hx.mono (Nat.le_succ depth)) expected none
    rw [Context.depth, Nat.add_zero] at hshift
    rw [howner rfl, Context.fill, Context.fill, walk_sub hdepth, hshift]
  | argument depth c before inner after hdepth ih =>
    have hspans : (before ++ inner.fill (.sub x x.span) :: after).map Expr.span
        = (before ++ inner.fill x :: after).map Expr.span := by
      rw [List.map_append, List.map_append, List.map_cons, List.map_cons, inner.span_fill_sub]
    rw [Context.fill, Context.fill, walk_call hdepth, walk_call hdepth, length_append_cons,
      length_append_cons, checkCall_diagnostics_congr s expected c hspans]
    rcases hparameters : argumentParameters? s c (before.length + 1 + after.length) with
      _ | parameters
    · -- no argument is looked at
      rfl
    have harguments : walkArguments s depth (receiverName c) parameters
          (before ++ inner.fill (.sub x x.span) :: after)
        = walkArguments s depth (receiverName c) parameters (before ++ inner.fill x :: after) := by
      -- neither argument is a placeholder, and for its parameter both show the call the same
      apply walkArguments_replace (inner.notEmpty_fill_sub x x.span) hplace.notEmpty_fill
      intro p hp
      apply pairsAlike_fill_sub hplace hx.below hparameters hp
      intro hinner owner
      exact ih (hplace.inner_of_argument hinner) hx.below p.type owner fun hzero =>
        absurd hzero (Nat.ne_of_gt hinner)
    rw [Option.elim_some, Option.elim_some, harguments]
  | leftOperand depth op inner right span hdepth ih =>
    rw [Context.fill, Context.fill, walk_operator hdepth, walk_operator hdepth,
      ih hplace hx.below expected none fun _ => rfl]
  | rightOperand depth op left inner span hdepth ih =>
    rw [Context.fill, Context.fill, walk_operator hdepth, walk_operator hdepth,
      ih hplace hx.below expected none fun _ => rfl]
  | operand depth op inner span hdepth ih =>
    rw [Context.fill, Context.fill, walk_unary hdepth, walk_unary hdepth,
      ih hplace hx.below expected none fun _ => rfl]
  | parentheses depth inner span hdepth ih =>
    rw [Context.fill, Context.fill, walk_sub hdepth, walk_sub hdepth,
      ih hplace hx.below expected none fun _ => rfl]

end Check

/-- **Parentheses are transparent.** Whatever node of a tree is put in parentheses of its own span,
the outcome is the same, as long as nothing around it looks at its form and the whole, parentheses
included, is looked at. -/
theorem validate_parentheses (registry : Registry) (scope : ObjectScope) (expected : ValueType)
    {k : Context} {x : Expr} (hplace : k.TakesParentheses registry scope x)
    (hdepth : ∀ n, ∀ y ∈ (k.fill (.sub x x.span)).nodesAt n, n ≤ 64) :
    validate registry scope expected (k.fill (.sub x x.span))
      = validate registry scope expected (k.fill x) := by
  have hfits : x.FitsAt (0 + k.depth + 1) := by
    intro n y hy
    -- inside the parentheses a node lies one level deeper than without them
    have hsub : y ∈ (Expr.sub x x.span).nodesAt (n + 1) :=
      Expr.mem_nodesAt_succ.mpr ⟨x, List.mem_cons_self, hy⟩
    have hle := hdepth (n + 1 + k.depth) y (k.mem_nodesAt_fill_of_mem hsub)
    rw [maxDepth]
    omega
  unfold validate Check.validateIn
  rw [Check.walk_fill_sub k 0 hplace hfits expected none fun _ => rfl]

/-- The second argument of a call, which is paired with a parameter for an expression, in
parentheses. -/
theorem validate_parentheses_argument :
    let c : Callee := .free "Pow" ⟨0, 8⟩
    let k : Context := .argument c [.number "2" ⟨4, 5⟩] .hole []
    let x : Expr := .unary "-" (.identifier "Missing" ⟨7, 8⟩) ⟨6, 8⟩
    let scope := ProjectScope.empty.toScope
    c.Pairs Registry.withPower scope 2 1 (.ofTag "expression")
      ∧ k.TakesParentheses Registry.withPower scope x
      ∧ (∀ n, ∀ y ∈ (k.fill (.sub x x.span)).nodesAt n, n ≤ 64)
      ∧ validate Registry.withPower scope .number (k.fill (.sub x x.span))
        = validate Registry.withPower scope .number (k.fill x) := by
  intro c k x scope
  let s := Check.setting Registry.withPower scope
  have hparameters : Check.argumentParameters? s c 2
      = some [.ofTag "expression", .ofTag "expression"] := rfl
  have hplace : k.TakesParentheses Registry.withPower scope x := by
    rintro _ _ _ ⟨⟩
    refine ⟨rfl, fun p hp => ?_⟩
    obtain ⟨parameters, hsome, hp⟩ := Check.pairs_iff (s := s).mp hp
    obtain rfl : _ = parameters := Option.some.inj (hparameters.symm.trans hsome)
    obtain rfl : .ofTag "expression" = p := Option.some.inj hp
    decide
  have hdepth : ∀ n, ∀ y ∈ (k.fill (.sub x x.span)).nodesAt n, n ≤ 64 := by
    intro n y hy
    match n with
    | 0 | 1 | 2 | 3 => decide
    | n + 4 => exact absurd hy List.not_mem_nil
  exact ⟨Check.pairs_iff (s := s).mpr ⟨_, hparameters, rfl⟩, hplace, hdepth,
    validate_parentheses _ _ _ hplace hdepth⟩

/-- Where an object is to be named, parentheses do matter: around the name they hide it. -/
example :
    let signature : Signature := ⟨"Of", "number", [.ofTag "object"], none, .global, ""⟩
    let registry : Registry :=
      { Registry.empty "game" with free := ByKind.empty.insert .expression "Of" signature }
    let name : Expr := .identifier "Hero" ⟨3, 7⟩
    let outcome (a : Expr) := validate registry ProjectScope.empty.toScope .number
      (.call (.free "Of" ⟨0, 8⟩) [a])
    (outcome name).diagnostics = []
      ∧ (outcome (.sub name ⟨3, 7⟩)).diagnostics = [Problem.malformedObjectParameter.at ⟨3, 7⟩] :=
  ⟨rfl, rfl⟩

end EventSheet
