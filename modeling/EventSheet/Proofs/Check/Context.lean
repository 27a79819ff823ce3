import EventSheet.Proofs.Check.Walk
import EventSheet.Registry.Registration

/-!
What a subtree can change in the diagnostics around it: nothing.

A `Context` is a tree with a hole. Two subtrees are `Interchangeable` if the checks of a call that
look at an argument from outside cannot tell them apart. Put into the same hole, their own
diagnostics stand at the same place, and all others are the same (`validate_fill`): a mistake does
not cause further ones elsewhere. Across the border of a call not even the type changes.

The hole lies at a place that does not depend on what fills it (`Context.place?`), because a call
settles which arguments it looks at by their number.
-/

set_option autoImplicit false

namespace EventSheet

/-! ## Trees with a hole -/

/-- A tree with a hole. -/
inductive Context where
  /-- The hole itself. -/
  | hole
  /-- The hole is in an argument of a call. -/
  | argument (callee : Callee) (before : List Expr) (inner : Context) (after : List Expr)
  /-- The hole is in the left operand. -/
  | leftOperand (op : String) (inner : Context) (right : Expr) (span : Span)
  /-- The hole is in the right operand. -/
  | rightOperand (op : String) (left : Expr) (inner : Context) (span : Span)
  /-- The hole is in the only operand. -/
  | operand (op : String) (inner : Context) (span : Span)
  /-- The hole is in parentheses. -/
  | parentheses (inner : Context) (span : Span)

namespace Context

/-- Puts a tree into the hole. -/
def fill (k : Context) (e : Expr) : Expr :=
  match k with
  | .hole => e
  | .argument c before inner after => .call c (before ++ inner.fill e :: after)
  | .leftOperand op inner right span => .operator op (inner.fill e) right span
  | .rightOperand op left inner span => .operator op left (inner.fill e) span
  | .operand op inner span => .unary op (inner.fill e) span
  | .parentheses inner span => .sub (inner.fill e) span

/-- Whether the hole is in an argument of a call. -/
def isInArgument : Context → Bool
  | .hole => false
  | .argument _ _ _ _ => true
  | .leftOperand _ inner _ _ | .rightOperand _ _ inner _ | .operand _ inner _
  | .parentheses inner _ => inner.isInArgument

/-- The expected type and the depth at which the walk comes to the hole, if it does. An argument is
expected to have the type of its parameter, an operand that of the whole. -/
def place? (s : Setting) (expected : ValueType) (depth : Nat) :
    Context → Option (ValueType × Nat)
  | .hole => some (expected, depth)
  | .argument c before inner after =>
    if maxDepth < depth then none
    else
      (Check.argumentParameters? s c (before.length + 1 + after.length)).bind fun parameters =>
        parameters[before.length]?.bind fun p => inner.place? s p.type (depth + 1)
  | .leftOperand _ inner _ _ | .rightOperand _ _ inner _ | .operand _ inner _
  | .parentheses inner _ =>
    if maxDepth < depth then none else inner.place? s expected (depth + 1)

/-- Induction along the way to the hole, level by level; a context that lies too deep is one
case. -/
@[elab_as_elim]
theorem induction {motive : Nat → Context → Prop}
    (deep : ∀ depth k, maxDepth < depth → motive depth k)
    (hole : ∀ depth, depth ≤ maxDepth → motive depth .hole)
    (argument : ∀ depth c before inner after, depth ≤ maxDepth → motive (depth + 1) inner →
      motive depth (.argument c before inner after))
    (leftOperand : ∀ depth op inner right span, depth ≤ maxDepth → motive (depth + 1) inner →
      motive depth (.leftOperand op inner right span))
    (rightOperand : ∀ depth op left inner span, depth ≤ maxDepth → motive (depth + 1) inner →
      motive depth (.rightOperand op left inner span))
    (operand : ∀ depth op inner span, depth ≤ maxDepth → motive (depth + 1) inner →
      motive depth (.operand op inner span))
    (parentheses : ∀ depth inner span, depth ≤ maxDepth → motive (depth + 1) inner →
      motive depth (.parentheses inner span)) (depth : Nat) (k : Context) : motive depth k := by
  induction k generalizing depth with
  | hole => exact Check.shallow deep (hole depth)
  | argument c before inner after ih =>
    exact Check.shallow deep fun hdepth =>
      argument depth c before inner after hdepth (ih (depth + 1))
  | leftOperand op inner right span ih =>
    exact Check.shallow deep fun hdepth =>
      leftOperand depth op inner right span hdepth (ih (depth + 1))
  | rightOperand op left inner span ih =>
    exact Check.shallow deep fun hdepth =>
      rightOperand depth op left inner span hdepth (ih (depth + 1))
  | operand op inner span ih =>
    exact Check.shallow deep fun hdepth => operand depth op inner span hdepth (ih (depth + 1))
  | parentheses inner span ih =>
    exact Check.shallow deep fun hdepth => parentheses depth inner span hdepth (ih (depth + 1))

end Context

/-! ## Lists that differ in one block -/

/-- Two lists are alike but for one block, which may be another in each. -/
def SameAround {α : Type} (l l' block block' : List α) : Prop :=
  ∃ pre post, l = pre ++ block ++ post ∧ l' = pre ++ block' ++ post

namespace SameAround

variable {α : Type} {l l' block block' : List α}

theorem self (l l' : List α) : SameAround l l' l l' := ⟨[], [], by simp, by simp⟩

theorem of_eq (l : List α) : SameAround l l [] [] := ⟨l, [], by simp, by simp⟩

theorem append_left (h : SameAround l l' block block') (m : List α) :
    SameAround (m ++ l) (m ++ l') block block' := by
  obtain ⟨pre, post, hl, hl'⟩ := h
  exact ⟨m ++ pre, post, by simp [hl], by simp [hl']⟩

theorem append_right (h : SameAround l l' block block') (m : List α) :
    SameAround (l ++ m) (l' ++ m) block block' := by
  obtain ⟨pre, post, hl, hl'⟩ := h
  exact ⟨pre, post ++ m, by simp [hl], by simp [hl']⟩

end SameAround

/-! ## What a call sees of an argument -/

/-- Two trees that a call cannot tell apart from outside: they have one span, neither is a
placeholder, and both or neither are bare names. -/
structure Interchangeable (x y : Expr) : Prop where
  span : x.span = y.span
  notEmpty : x.isEmptyPlaceholder = false
  notEmpty' : y.isEmptyPlaceholder = false
  name : x.identifier?.isSome = y.identifier?.isSome

namespace Interchangeable

variable {x y : Expr}

/-- What encloses the hole hides it: only the bare hole shows what it is filled with. -/
theorem fill (h : Interchangeable x y) (k : Context) :
    Interchangeable (k.fill x) (k.fill y) := by
  cases k with
  | hole => exact h
  | _ => exact ⟨rfl, rfl, rfl, rfl⟩

/-- What is said of the form of an argument is the same. -/
theorem categoryFindings_eq (h : Interchangeable x y) (p : Parameter) :
    Check.categoryFindings p x = Check.categoryFindings p y := by
  unfold Check.categoryFindings
  rw [h.span]
  cases p.category with
  | object =>
    have hname := h.name
    rcases hx : x.identifier? with _ | _ <;> rcases hy : y.identifier? with _ | _ <;>
      simp [hx, hy] at hname ⊢
  | _ => rfl

theorem map_span_eq (h : Interchangeable x y) (before after : List Expr) :
    (before ++ x :: after).map Expr.span = (before ++ y :: after).map Expr.span := by
  rw [List.map_append, List.map_append, List.map_cons, List.map_cons, h.span]

end Interchangeable

namespace Check

/-- What is wrong with the number of arguments depends on the parameters that arguments are written
for, on that number, and on the span of the first argument that is left over. -/
theorem arityDiagnostics_congr_excess {signature signature' : Signature} {c c' : Callee}
    {arguments arguments' : List Expr}
    (hwritten : signature.written c.receiverSlots = signature'.written c'.receiverSlots)
    (hspan : c.span = c'.span) (hlength : arguments.length = arguments'.length)
    (hexcess : arguments[signature'.maxArguments c'.receiverSlots]?.map Expr.span
      = arguments'[signature'.maxArguments c'.receiverSlots]?.map Expr.span) :
    arityDiagnostics signature c arguments = arityDiagnostics signature' c' arguments' := by
  have hmin : signature.minArguments c.receiverSlots
      = signature'.minArguments c'.receiverSlots := by
    rw [Signature.minArguments, Signature.minArguments, hwritten]
  have hmax : signature.maxArguments c.receiverSlots
      = signature'.maxArguments c'.receiverSlots := by
    rw [Signature.maxArguments, Signature.maxArguments, hwritten]
  unfold arityDiagnostics
  rw [hlength, hmin, hmax, hspan]
  rcases hx : arguments[signature'.maxArguments c'.receiverSlots]? with _ | a <;>
    rcases hy : arguments'[signature'.maxArguments c'.receiverSlots]? with _ | b <;>
    simp [hx, hy] at hexcess ⊢
  rw [hexcess]

/-- What is wrong with the number of arguments depends on the parameters that arguments are written
for, and on spans. -/
theorem arityDiagnostics_congr {signature signature' : Signature} {c c' : Callee}
    {arguments arguments' : List Expr}
    (hwritten : signature.written c.receiverSlots = signature'.written c'.receiverSlots)
    (hspan : c.span = c'.span) (hspans : arguments.map Expr.span = arguments'.map Expr.span) :
    arityDiagnostics signature c arguments = arityDiagnostics signature' c' arguments' := by
  apply arityDiagnostics_congr_excess hwritten hspan
  · simpa using congrArg List.length hspans
  · rw [← List.getElem?_map, ← List.getElem?_map, hspans]

/-- Of its arguments, the checks of a call before them see the spans only. -/
theorem checkCall_diagnostics_congr (s : Setting) (expected : ValueType) (c : Callee)
    {arguments arguments' : List Expr}
    (h : arguments.map Expr.span = arguments'.map Expr.span) :
    (checkCall s expected c arguments).diagnostics
      = (checkCall s expected c arguments').diagnostics := by
  have harity : ∀ signature : Signature,
      arityDiagnostics signature c arguments = arityDiagnostics signature c arguments' :=
    fun _ => arityDiagnostics_congr rfl rfl h
  unfold checkCall
  simp only [harity]

/-- As many arguments, whichever stands between those before and behind. -/
theorem length_append_cons (before : List Expr) (a : Expr) (after : List Expr) :
    (before ++ a :: after).length = before.length + 1 + after.length := by
  rw [List.length_append, List.length_cons]
  omega

/-- The pairs of parameters and arguments, with one argument singled out: those before it, its own
if there is a parameter left for it, and those behind it. -/
theorem zip_append_cons (parameters : List Parameter) (before : List Expr) (a : Expr)
    (after : List Expr) :
    parameters.zip (before ++ a :: after)
      = parameters.zip before
        ++ (parameters[before.length]?.elim [] fun p =>
            (p, a) :: (parameters.drop (before.length + 1)).zip after) := by
  -- the induction is on what stands in front, which uses up one parameter each
  induction before generalizing parameters with
  | nil => cases parameters <;> rfl
  | cons b before ih =>
    cases parameters with
    | nil => rfl
    | cons p parameters => simp [ih]

/-! ## The context lemma -/

section Fill

variable {s : Setting} {x y : Expr}

/-- What visiting a tree at a place adds; nothing if there is no place. -/
def blockAt (s : Setting) (place : Option (ValueType × Nat)) (e : Expr) : List Diagnostic :=
  place.elim [] fun at_ => diagnosticsAt s at_.1 at_.2 e

/-- An argument that is no placeholder is walked, and then judged as a whole. -/
theorem argumentDiagnostics_of_notEmpty (depth : Nat) (p : Parameter) {a : Expr}
    (ha : a.isEmptyPlaceholder = false) :
    argumentDiagnostics s depth p a
      = diagnosticsAt s p.type (depth + 1) a ++ (categoryFindings p a).diagnostics := by
  rw [argumentDiagnostics, if_neg (by simp [ha])]

/-- Around the hole the diagnostics are the same, whichever of two interchangeable trees fills
it. -/
theorem sameAround_fill (h : Interchangeable x y) (k : Context) (expected : ValueType)
    (depth : Nat) :
    SameAround (diagnosticsAt s expected depth (k.fill x))
      (diagnosticsAt s expected depth (k.fill y))
      (blockAt s (k.place? s expected depth) x) (blockAt s (k.place? s expected depth) y) := by
  induction depth, k using Context.induction generalizing expected with
  | deep depth k hdeep =>
    cases k with
    | hole => exact .self _ _
    | _ =>
      -- one diagnostic at the root, and the walk does not come to the hole
      rw [diagnosticsAt_of_lt hdeep, diagnosticsAt_of_lt hdeep, (h.fill _).span, Context.place?,
        if_pos hdeep]
      exact .of_eq _
  | hole depth _ => exact .self _ _
  | argument depth c before inner after hdepth ih =>
    -- the argument with the hole shows neither by its form nor by its span what fills it, and
    -- there are as many arguments either way: so the call is checked, and paired, alike
    have hinner := h.fill inner
    simp only [Context.fill, Context.place?, if_neg (Nat.not_lt.mpr hdepth),
      diagnosticsAt_call hdepth, length_append_cons, zip_append_cons, List.flatMap_append,
      checkCall_diagnostics_congr s expected c (hinner.map_span_eq before after)]
    refine .append_left ?_ _
    rcases argumentParameters? s c (before.length + 1 + after.length) with _ | parameters
    · exact .of_eq _
    dsimp only [Option.getD_some, Option.bind_some]
    refine .append_left ?_ _
    rcases parameters[before.length]? with _ | p
    · exact .of_eq _
    -- the argument with the hole: its diagnostics, then the judgement of the whole
    simp only [Option.elim_some, Option.bind_some, List.flatMap_cons,
      argumentDiagnostics_of_notEmpty depth p hinner.notEmpty,
      argumentDiagnostics_of_notEmpty depth p hinner.notEmpty', hinner.categoryFindings_eq p]
    exact ((ih p.type).append_right _).append_right _
  | leftOperand depth op inner right span hdepth ih =>
    simp only [Context.fill, Context.place?, if_neg (Nat.not_lt.mpr hdepth),
      diagnosticsAt_operator hdepth]
    exact (ih expected).append_right _
  | rightOperand depth op left inner span hdepth ih =>
    simp only [Context.fill, Context.place?, if_neg (Nat.not_lt.mpr hdepth),
      diagnosticsAt_operator hdepth]
    exact (ih expected).append_left _
  | operand depth op inner span hdepth ih =>
    simp only [Context.fill, Context.place?, if_neg (Nat.not_lt.mpr hdepth),
      diagnosticsAt_unary hdepth]
    exact ih expected
  | parentheses depth inner span hdepth ih =>
    simp only [Context.fill, Context.place?, if_neg (Nat.not_lt.mpr hdepth),
      diagnosticsAt_sub hdepth]
    exact ih expected

/-- The type of a call is declared, so nothing inside its arguments shows in the type of the
whole. -/
theorem typeAt_fill_of_isInArgument {k : Context} (hk : k.isInArgument = true)
    (expected : ValueType) (depth : Nat) :
    typeAt s expected depth (k.fill x) = typeAt s expected depth (k.fill y) := by
  induction depth, k using Context.induction with
  | deep depth k hdeep => rw [typeAt_of_lt hdeep, typeAt_of_lt hdeep]
  | hole depth _ => exact absurd hk Bool.false_ne_true
  | argument depth c before inner after hdepth _ =>
    rw [Context.fill, Context.fill, typeAt_call hdepth, typeAt_call hdepth]
  | leftOperand depth op inner right span hdepth ih =>
    rw [Context.fill, Context.fill, typeAt_operator hdepth, typeAt_operator hdepth, ih hk]
  | rightOperand depth op left inner span hdepth ih =>
    rw [Context.fill, Context.fill, typeAt_operator hdepth, typeAt_operator hdepth, ih hk]
  | operand depth op inner span hdepth ih =>
    rw [Context.fill, Context.fill, typeAt_unary hdepth, typeAt_unary hdepth, ih hk]
  | parentheses depth inner span hdepth ih =>
    rw [Context.fill, Context.fill, typeAt_sub hdepth, typeAt_sub hdepth, ih hk]

end Fill

end Check

/-- **No mistake causes others elsewhere.** Whichever of two interchangeable trees fills a hole,
the diagnostics before and behind those of the filling are the same; the filling's own are what
walking it gives where the hole is, whatever object a variable there belongs to, and there are none
if the walk does not come to the hole. If the hole is in an argument of a call, the type of the
whole is the same too. -/
theorem validate_fill (registry : Registry) (scope : ObjectScope) (expected : ValueType)
    (k : Context) {x y : Expr} (h : Interchangeable x y) :
    (∃ pre post block block',
      (validate registry scope expected (k.fill x)).diagnostics = pre ++ block ++ post
        ∧ (validate registry scope expected (k.fill y)).diagnostics = pre ++ block' ++ post
        ∧ match k.place? (Check.setting registry scope) expected 0 with
          | some (type, depth) => ∀ owner,
            block = (Check.walk (Check.setting registry scope) type depth owner x).2.diagnostics
              ∧ block'
                = (Check.walk (Check.setting registry scope) type depth owner y).2.diagnostics
          | none => block = [] ∧ block' = [])
      ∧ (k.isInArgument = true →
        (validate registry scope expected (k.fill x)).inferredType
          = (validate registry scope expected (k.fill y)).inferredType) := by
  refine ⟨?_, fun hk => Check.typeAt_fill_of_isInArgument hk expected 0⟩
  obtain ⟨pre, post, hx, hy⟩ :=
    Check.sameAround_fill (s := Check.setting registry scope) h k expected 0
  refine ⟨pre, post, _, _, hx, hy, ?_⟩
  -- whether the walk comes to the hole is a matter of what is around it
  rcases k.place? (Check.setting registry scope) expected 0 with _ | ⟨type, depth⟩
  · exact ⟨rfl, rfl⟩
  · intro owner
    rw [Check.walk_diagnostics, Check.walk_diagnostics]
    exact ⟨rfl, rfl⟩

/-- A registry with one function, of two numbers. -/
def Registry.withPower : Registry :=
  let power : Signature :=
    ⟨"Pow", "number", [.ofTag "expression", .ofTag "expression"], none, .global, ""⟩
  { Registry.empty "game" with free := ByKind.empty.insert .expression "Pow" power }

/-- A number, and a call that lacks its arguments, as an operand in the second argument of a call.
The call adds one diagnostic. -/
theorem validate_fill_power :
    let k : Context := .argument (.free "Pow" ⟨0, 13⟩) [.number "2" ⟨4, 5⟩]
      (.leftOperand "+" .hole (.number "1" ⟨11, 12⟩) ⟨7, 12⟩) []
    let x : Expr := .number "3" ⟨7, 8⟩
    let y : Expr := .call (.free "Pow" ⟨7, 8⟩) []
    let outcome := validate Registry.withPower ProjectScope.empty.toScope .number
    Interchangeable x y
      ∧ (∃ pre post, (outcome (k.fill x)).diagnostics = pre ++ [] ++ post
        ∧ (outcome (k.fill y)).diagnostics
          = pre ++ [(Problem.tooFewArguments 2 2).at ⟨7, 8⟩] ++ post)
      ∧ (outcome (k.fill x)).inferredType = (outcome (k.fill y)).inferredType := by
  intro k x y outcome
  have h : Interchangeable x y := ⟨rfl, rfl, rfl, rfl⟩
  obtain ⟨⟨pre, post, block, block', hx, hy, hblocks⟩, htype⟩ :=
    validate_fill Registry.withPower ProjectScope.empty.toScope .number k h
  obtain ⟨hblock, hblock'⟩ := hblocks none
  have hfine : block = [] := hblock.trans rfl
  have hwrong : block' = [(Problem.tooFewArguments 2 2).at ⟨7, 8⟩] := hblock'.trans rfl
  rw [hfine] at hx
  rw [hwrong] at hy
  exact ⟨h, ⟨pre, post, hx, hy⟩, htype rfl⟩

end EventSheet
