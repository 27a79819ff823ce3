import EventSheet.Proofs.Check.Codes

/-!
Which variables a check notes, and for which objects.

The walk hands the object that was written last from argument to argument. Said without a walk: an
argument is a variable of the last object that the arguments before it in the same call name, or
else of the receiver of the call (`Visit.owner?`). Such an owner is looked up in the call alone, so
nothing inside an argument can change it. `Check.visits` lists the arguments that the walk comes to,
each with what stands before it in its call, and the variables noted are those of these arguments,
one by one and in that order (`objectVariables_validate`).
-/

set_option autoImplicit false

namespace EventSheet

/-! ## One argument -/

/-- An argument that a walk comes to. -/
structure Visit where
  /-- The call that it belongs to. -/
  callee : Callee
  /-- The arguments before it in that call, each with its parameter. -/
  before : List (Parameter × Expr)
  /-- Its parameter. -/
  parameter : Parameter
  /-- The argument. -/
  argument : Expr
  /-- The depth of the argument. -/
  depth : Nat

/-- The name of a variable or a bare name. -/
def Expr.variableName? : Expr → Option String
  | .identifier name _ | .variable name _ => some name
  | _ => none

/-- The object that an argument names for its parameter. -/
def namedObject? (pair : Parameter × Expr) : Option String :=
  if pair.1.category = .object then pair.2.identifier? else none

/-- The last object that some arguments of a call name, or else the receiver of the call. -/
def lastNamed? (c : Callee) (before : List (Parameter × Expr)) : Option String :=
  (before.filterMap namedObject?).getLast?.or (Check.receiverName c)

namespace Visit

/-- The object that a variable at an argument belongs to. -/
def owner? (v : Visit) : Option String := lastNamed? v.callee v.before

end Visit

/-- An argument names an object if its parameter is one for objects and it is a bare name. -/
theorem namedObject?_eq_some_iff {pair : Parameter × Expr} {name : String} :
    namedObject? pair = some name ↔
      pair.1.category = .object ∧ ∃ span, pair.2 = .identifier name span := by
  obtain ⟨p, a⟩ := pair
  unfold namedObject?
  by_cases hobject : p.category = .object
  · rw [if_pos hobject]
    cases a <;> simp [Expr.identifier?, hobject]
  · simp [hobject]

/-- The receiver of a call is the object that is written in front of it. -/
theorem Check.receiverName_eq_some_iff {c : Callee} {name : String} :
    receiverName c = some name ↔ c.objectName = name ∧ name ≠ "" := by
  unfold receiverName
  by_cases hnone : c.objectName = ""
  · rw [if_pos hnone, hnone]
    simp [eq_comm]
  · rw [if_neg hnone, Option.some.injEq]
    constructor
    · rintro rfl
      exact ⟨rfl, hnone⟩
    · exact And.left

/-- Whose variable an argument is: the object that an argument before it names and none between them
does. If no argument before it names one, it is the object in front of the call. -/
theorem Visit.owner?_eq_some_iff {v : Visit} {name : String} :
    v.owner? = some name ↔
      (∃ earlier p span between, v.before = earlier ++ (p, .identifier name span) :: between
        ∧ p.category = .object ∧ ∀ pair ∈ between, namedObject? pair = none)
      ∨ (∀ pair ∈ v.before, namedObject? pair = none)
        ∧ v.callee.objectName = name ∧ name ≠ "" := by
  rw [owner?, lastNamed?, List.getLast?_filterMap, Option.or_eq_some_iff,
    List.findSome?_eq_none_iff, Check.receiverName_eq_some_iff]
  simp only [List.mem_reverse]
  refine or_congr_left ?_
  -- what is nearest to the argument comes first in the reversed list
  rw [List.findSome?_eq_some_iff]
  constructor
  · rintro ⟨between, ⟨p, a⟩, earlier, hsplit, hnamed, hbetween⟩
    obtain ⟨hobject, span, rfl⟩ := namedObject?_eq_some_iff.mp hnamed
    refine ⟨earlier.reverse, p, span, between.reverse, ?_, hobject, by simpa using hbetween⟩
    simpa using congrArg List.reverse hsplit
  · rintro ⟨earlier, p, span, between, hsplit, hobject, hbetween⟩
    refine ⟨between.reverse, (p, .identifier name span), earlier.reverse, ?_,
      namedObject?_eq_some_iff.mpr ⟨hobject, span, rfl⟩, by simpa using hbetween⟩
    simp [hsplit]

namespace Visit

/-- What is noted of an argument: the variable that it is, with the object it belongs to. -/
def noted? (v : Visit) : Option ObjectVariable :=
  if v.parameter.tag = Category.objectVariableTag ∧ v.depth ≤ maxDepth then
    v.argument.variableName?.bind fun name =>
      v.owner?.map fun owner => ⟨owner, name, v.argument.span⟩
  else none

/-- An argument stands in a call at a depth. The call means a function, its object is capable of it,
the number of arguments is in range, and the argument is paired with a parameter that arguments are
written for. -/
def IsIn (registry : Registry) (scope : ObjectScope) (depth : Nat) (arguments : List Expr)
    (v : Visit) : Prop :=
  ∃ signature, Means registry scope v.callee signature
    ∧ Capable registry scope v.callee signature
    ∧ signature.minArguments v.callee.receiverSlots ≤ arguments.length
    ∧ arguments.length ≤ signature.maxArguments v.callee.receiverSlots
    ∧ v.depth = depth + 1
    ∧ ∃ i, ((signature.written v.callee.receiverSlots).zip arguments)[i]?
          = some (v.parameter, v.argument)
        ∧ v.before = ((signature.written v.callee.receiverSlots).zip arguments).take i

/-- The argument of a visit is one of the call. -/
theorem IsIn.argument_mem {registry : Registry} {scope : ObjectScope} {depth : Nat} {v : Visit}
    {arguments : List Expr} (h : v.IsIn registry scope depth arguments) :
    v.argument ∈ arguments := by
  obtain ⟨signature, -, -, -, -, -, i, hi, -⟩ := h
  exact (List.of_mem_zip (List.mem_of_getElem? hi)).2

end Visit

/-! ## All arguments -/

/-- The walk of a tree at a depth comes to a node at another depth. -/
inductive Reached (registry : Registry) (scope : ObjectScope) (d : Nat) (x : Expr) :
    Nat → Expr → Prop where
  | self : Reached registry scope d x d x
  | argument {depth v arguments} : depth ≤ maxDepth →
      Visit.IsIn registry scope depth arguments v →
      Reached registry scope d x (depth + 1) v.argument →
      Reached registry scope d x depth (.call v.callee arguments)
  | left {depth op left right span} : depth ≤ maxDepth →
      Reached registry scope d x (depth + 1) left →
      Reached registry scope d x depth (.operator op left right span)
  | right {depth op left right span} : depth ≤ maxDepth →
      Reached registry scope d x (depth + 1) right →
      Reached registry scope d x depth (.operator op left right span)
  | operand {depth op operand span} : depth ≤ maxDepth →
      Reached registry scope d x (depth + 1) operand →
      Reached registry scope d x depth (.unary op operand span)
  | inner {depth inner span} : depth ≤ maxDepth →
      Reached registry scope d x (depth + 1) inner →
      Reached registry scope d x depth (.sub inner span)

namespace Check

/-- The arguments that the walk of a tree at a depth comes to, from left to right, each before those
inside it. -/
def visits (s : Setting) (depth : Nat) (e : Expr) : List Visit :=
  if maxDepth < depth then []
  else
    match e with
    | .call c arguments =>
      let pairs := ((argumentParameters? s c arguments.length).getD []).zip arguments
      pairs.zipIdx.flatMap fun x =>
        ⟨c, pairs.take x.2, x.1.1, x.1.2, depth + 1⟩ :: visits s (depth + 1) x.1.2
    | .operator _ left right _ => visits s (depth + 1) left ++ visits s (depth + 1) right
    | .unary _ operand _ => visits s (depth + 1) operand
    | .sub inner _ => visits s (depth + 1) inner
    | _ => []
termination_by maxDepth + 1 - depth

section Nodes

variable {s : Setting} {depth : Nat}

theorem visits_of_lt (h : maxDepth < depth) (e : Expr) : visits s depth e = [] := by
  unfold visits
  rw [if_pos h]

theorem visits_leaf {e : Expr} (he : e.isLeaf = true) : visits s depth e = [] := by
  unfold visits
  cases e with
  | call | operator | unary | sub => exact absurd he Bool.false_ne_true
  | _ => exact ite_self []

theorem visits_operator (h : depth ≤ maxDepth) (op : String) (left right : Expr) (span : Span) :
    visits s depth (.operator op left right span)
      = visits s (depth + 1) left ++ visits s (depth + 1) right := by
  rw [visits, if_neg (Nat.not_lt.mpr h)]

theorem visits_unary (h : depth ≤ maxDepth) (op : String) (operand : Expr) (span : Span) :
    visits s depth (.unary op operand span) = visits s (depth + 1) operand := by
  rw [visits, if_neg (Nat.not_lt.mpr h)]

theorem visits_sub (h : depth ≤ maxDepth) (inner : Expr) (span : Span) :
    visits s depth (.sub inner span) = visits s (depth + 1) inner := by
  rw [visits, if_neg (Nat.not_lt.mpr h)]

/-- The arguments of a call, each followed by those inside it. -/
theorem visits_call (h : depth ≤ maxDepth) {c : Callee} {arguments : List Expr}
    {parameters : List Parameter}
    (hparameters : argumentParameters? s c arguments.length = some parameters) :
    visits s depth (.call c arguments)
      = (parameters.zip arguments).zipIdx.flatMap fun x =>
          ⟨c, (parameters.zip arguments).take x.2, x.1.1, x.1.2, depth + 1⟩
            :: visits s (depth + 1) x.1.2 := by
  rw [visits, if_neg (Nat.not_lt.mpr h)]
  simp only [hparameters, Option.getD_some]

/-- A call that does not look at its arguments visits none. -/
theorem visits_call_of_none {c : Callee} {arguments : List Expr}
    (hparameters : argumentParameters? s c arguments.length = none) :
    visits s depth (.call c arguments) = [] := by
  rw [visits]
  simp only [hparameters, Option.getD_none, List.zip_nil_left, List.zipIdx_nil, List.flatMap_nil,
    ite_self]

end Nodes

/-! ## The walk over the arguments of a call -/

section Arguments

variable {s : Setting} {depth : Nat}

/-- The object written last, once an argument is behind. -/
theorem lastNamed?_concat (c : Callee) (before : List (Parameter × Expr)) (p : Parameter)
    (a : Expr) :
    lastNamed? c (before ++ [(p, a)]) = lastObjectAfter p a (lastNamed? c before) := by
  unfold lastNamed? lastObjectAfter
  rw [List.filterMap_append, List.filterMap_cons, List.filterMap_nil, namedObject?]
  cases hcategory : p.category with
  | object =>
    rcases a.identifier? with _ | name
    · simp
    · simp
  | _ => simp

/-- A placeholder names no object. -/
theorem lastObjectAfter_placeholder {a : Expr} (ha : a.isEmptyPlaceholder = true) (p : Parameter)
    (lastObject : Option String) : lastObjectAfter p a lastObject = lastObject := by
  obtain ⟨span, rfl⟩ := Expr.isEmptyPlaceholder_iff.mp ha
  unfold lastObjectAfter
  cases p.category <;> rfl

/-- Only a variable of an object is expected to be one, and only such a variable has an owner. -/
theorem type_of_objectVariableTag {p : Parameter} (h : p.tag = Category.objectVariableTag) :
    p.type = .variable := by
  rw [Parameter.type, h]
  rfl

/-- What is noted of an argument: itself, if it is a variable with an owner, and then what would be
noted without the owner. -/
theorem objectVariables_walk_argument (c : Callee) (before : List (Parameter × Expr))
    (p : Parameter) (depth : Nat) (a : Expr) :
    (walk s p.type depth (variableOwner p (lastNamed? c before)) a).2.objectVariables
      = (Visit.noted? ⟨c, before, p, a, depth⟩).toList
        ++ (walk s p.type depth none a).2.objectVariables := by
  unfold Visit.noted? variableOwner
  by_cases htag : p.tag = Category.objectVariableTag
  · rcases Nat.lt_or_ge maxDepth depth with hdeep | hdepth
    · rw [walk_of_lt hdeep, walk_of_lt hdeep, if_neg fun h => Nat.not_le.mpr hdeep h.2]
      rfl
    · rw [if_pos htag, if_pos ⟨htag, hdepth⟩, type_of_objectVariableTag htag]
      -- the owner goes to the root alone, so only a root that is a name makes a difference
      cases a with
      | identifier name span =>
        rw [walk_identifier hdepth, walk_identifier hdepth, Visit.owner?]
        rcases lastNamed? c before with _ | owner <;> rfl
      | «variable» name span =>
        rw [walk_variable hdepth, walk_variable hdepth, Visit.owner?]
        rcases lastNamed? c before with _ | owner <;> rfl
      | _ => simp only [walk, Expr.variableName?, Option.bind_none, Option.toList_none,
          List.nil_append]
  · rw [if_neg htag, if_neg (fun h => htag h.1), Option.toList_none, List.nil_append]

/-- The walk over the arguments that are left notes what the visits of them say, once those inside
every argument are known to. What is in front of them settles the object written last. -/
theorem objectVariables_walkArguments (c : Callee) (before : List (Parameter × Expr))
    (parameters : List Parameter) (arguments : List Expr)
    (ih : ∀ a ∈ arguments, ∀ expected, (walk s expected (depth + 1) none a).2.objectVariables
      = (visits s (depth + 1) a).filterMap Visit.noted?) :
    (walkArguments s depth (lastNamed? c before) parameters arguments).objectVariables
      = (((parameters.zip arguments).zipIdx before.length).flatMap fun x =>
          (⟨c, (before ++ parameters.zip arguments).take x.2, x.1.1, x.1.2, depth + 1⟩ : Visit)
            :: visits s (depth + 1) x.1.2).filterMap Visit.noted? := by
  induction arguments generalizing before parameters with
  | nil => cases parameters <;> rfl
  | cons a arguments iharguments =>
    cases parameters with
    | nil => rfl
    | cons p parameters =>
      -- the arguments behind this one have it in front of them
      have hrest := iharguments (before ++ [(p, a)]) parameters
        fun b hb => ih b (List.mem_cons_of_mem a hb)
      rw [List.append_assoc, List.length_append, List.length_singleton, List.singleton_append]
        at hrest
      rw [List.zip_cons_cons, List.zipIdx_cons, List.flatMap_cons, List.filterMap_append, ← hrest,
        lastNamed?_concat, List.take_left, List.filterMap_cons, walkArguments]
      have hinside := ih a List.mem_cons_self p.type
      have hnote := objectVariables_walk_argument (s := s) c before p (depth + 1) a
      rw [hinside] at hnote
      by_cases hempty : a.isEmptyPlaceholder = true
      · -- a placeholder is no variable and has nothing inside
        obtain ⟨span, rfl⟩ := Expr.isEmptyPlaceholder_iff.mp hempty
        rw [if_pos hempty, Findings.objectVariables_append, objectVariables_placeholderFindings,
          lastObjectAfter_placeholder hempty, visits_leaf rfl]
        simp [Visit.noted?, Expr.variableName?]
      · rw [if_neg hempty, Findings.objectVariables_append, Findings.objectVariables_append,
          objectVariables_categoryFindings, List.append_nil, hnote]
        rcases Visit.noted? ⟨c, before, p, a, depth + 1⟩ with _ | noted <;> rfl

end Arguments

/-! ## The walk over a tree -/

/-- The walk of a tree that stands for itself notes what its visits say. -/
theorem objectVariables_walk {s : Setting} (expected : ValueType) (depth : Nat) (e : Expr) :
    (walk s expected depth none e).2.objectVariables
      = (visits s depth e).filterMap Visit.noted? := by
  induction depth, e using Check.induction generalizing expected with
  | deep depth e hdeep =>
    rw [walk_of_lt hdeep, visits_of_lt hdeep]
    rfl
  | call depth c arguments hdepth ih =>
    rw [walk_call hdepth, Findings.objectVariables_append]
    rcases hparameters : argumentParameters? s c arguments.length with _ | parameters
    · rw [visits_call_of_none hparameters]
      rfl
    · rw [visits_call hdepth hparameters, Option.elim_some]
      exact objectVariables_walkArguments c [] parameters arguments ih
  | leaf depth e hdepth he =>
    rw [visits_leaf he]
    cases e with
    | identifier name span =>
      rw [walk_identifier hdepth]
      cases expected <;> rfl
    | «variable» name span =>
      rw [walk_variable hdepth]
      rfl
    | call | operator | unary | sub => exact absurd he Bool.false_ne_true
    | _ =>
      simp only [walk, if_neg (Nat.not_lt.mpr hdepth)]
      rfl
  | operator depth op left right span hdepth ihleft ihright =>
    rw [walk_operator hdepth, visits_operator hdepth, Findings.objectVariables_append,
      List.filterMap_append, ihleft, ihright]
  | unary depth op operand span hdepth ih =>
    rw [walk_unary hdepth, visits_unary hdepth, ih]
  | sub depth inner span hdepth ih => rw [walk_sub hdepth, visits_sub hdepth, ih]

/-! ## Which arguments are visited -/

/-- The visits in a call are its arguments, if it passes its checks, and those inside them. -/
theorem mem_visits_call_iff {s : Setting} {depth : Nat} (hdepth : depth ≤ maxDepth) {c : Callee}
    {arguments : List Expr} {v : Visit} :
    v ∈ visits s depth (.call c arguments) ↔ ∃ u : Visit, u.callee = c
      ∧ u.IsIn s.registry s.scope depth arguments
      ∧ (v = u ∨ v ∈ visits s (depth + 1) u.argument) := by
  constructor
  · intro h
    rcases hparameters : argumentParameters? s c arguments.length with _ | parameters
    · rw [visits_call_of_none hparameters] at h
      exact absurd h List.not_mem_nil
    rw [visits_call hdepth hparameters] at h
    obtain ⟨⟨⟨p, a⟩, i⟩, hpair, h⟩ := List.mem_flatMap.mp h
    have hi := List.mem_zipIdx_iff_getElem?.mp hpair
    obtain ⟨signature, hmeans, hcapable, hmin, hmax, rfl⟩ :=
      argumentParameters?_eq_some_iff.mp hparameters
    exact ⟨_, rfl, ⟨signature, hmeans, hcapable, hmin, hmax, rfl, i, hi, rfl⟩, List.mem_cons.mp h⟩
  · rintro ⟨⟨_, before, p, a, d⟩, rfl, hin, hv⟩
    obtain ⟨signature, hmeans, hcapable, hmin, hmax, hd, i, hi, hbefore⟩ := hin
    dsimp only at hd hbefore
    subst hd hbefore
    rw [visits_call hdepth (argumentParameters?_eq_some hmeans hcapable hmin hmax)]
    exact List.mem_flatMap.mpr
      ⟨((p, a), i), List.mem_zipIdx_iff_getElem?.mpr hi, List.mem_cons.mpr hv⟩

/-- A visit belongs to a call that the walk comes to. -/
theorem exists_reached_of_mem_visits {s : Setting} {depth : Nat} {e : Expr} {v : Visit}
    (h : v ∈ visits s depth e) : ∃ d arguments,
      Reached s.registry s.scope d (.call v.callee arguments) depth e ∧ d ≤ maxDepth
        ∧ v.IsIn s.registry s.scope d arguments := by
  induction depth, e using Check.induction with
  | deep depth e hdeep =>
    rw [visits_of_lt hdeep] at h
    exact absurd h List.not_mem_nil
  | call depth c arguments hdepth ih =>
    -- the argument that is visited here, or one inside it
    obtain ⟨u, rfl, hin, rfl | hv⟩ := (mem_visits_call_iff hdepth).mp h
    · exact ⟨depth, arguments, .self, hdepth, hin⟩
    · obtain ⟨d, others, hreached, hd⟩ := ih u.argument hin.argument_mem hv
      exact ⟨d, others, .argument hdepth hin hreached, hd⟩
  | leaf depth e _ he =>
    rw [visits_leaf he] at h
    exact absurd h List.not_mem_nil
  | operator depth op left right span hdepth ihleft ihright =>
    rw [visits_operator hdepth] at h
    rcases List.mem_append.mp h with h | h
    · obtain ⟨d, arguments, hreached, hd⟩ := ihleft h
      exact ⟨d, arguments, .left hdepth hreached, hd⟩
    · obtain ⟨d, arguments, hreached, hd⟩ := ihright h
      exact ⟨d, arguments, .right hdepth hreached, hd⟩
  | unary depth op operand span hdepth ih =>
    rw [visits_unary hdepth] at h
    obtain ⟨d, arguments, hreached, hd⟩ := ih h
    exact ⟨d, arguments, .operand hdepth hreached, hd⟩
  | sub depth inner span hdepth ih =>
    rw [visits_sub hdepth] at h
    obtain ⟨d, arguments, hreached, hd⟩ := ih h
    exact ⟨d, arguments, .inner hdepth hreached, hd⟩

/-- What is visited within a node that the walk comes to is visited. -/
theorem mem_visits_of_reached {s : Setting} {d depth : Nat} {x e : Expr}
    (hreached : Reached s.registry s.scope d x depth e) {v : Visit} (hv : v ∈ visits s d x) :
    v ∈ visits s depth e := by
  induction hreached with
  | self => exact hv
  | @argument _ u _ hdepth hin _ ih =>
    exact (mem_visits_call_iff hdepth).mpr ⟨u, rfl, hin, .inr ih⟩
  | left hdepth _ ih =>
    rw [visits_operator hdepth]
    exact List.mem_append_left _ ih
  | right hdepth _ ih =>
    rw [visits_operator hdepth]
    exact List.mem_append_right _ ih
  | operand hdepth _ ih =>
    rw [visits_unary hdepth]
    exact ih
  | inner hdepth _ ih =>
    rw [visits_sub hdepth]
    exact ih

/-- The visits are the arguments of the calls that the walk comes to and that pass their checks. -/
theorem mem_visits_iff {s : Setting} {depth : Nat} {e : Expr} {v : Visit} :
    v ∈ visits s depth e ↔ ∃ d arguments,
      Reached s.registry s.scope d (.call v.callee arguments) depth e ∧ d ≤ maxDepth
        ∧ v.IsIn s.registry s.scope d arguments := by
  refine ⟨exists_reached_of_mem_visits, ?_⟩
  rintro ⟨d, arguments, hreached, hd, hin⟩
  exact mem_visits_of_reached hreached ((mem_visits_call_iff hd).mpr ⟨v, rfl, hin, .inl rfl⟩)

end Check

section Reading

variable {registry : Registry} {scope : ObjectScope} {depth : Nat} {v : Visit}

/-- No argument is written for a parameter that generated code supplies. -/
theorem Visit.IsIn.isCodeOnly {arguments : List Expr}
    (h : v.IsIn registry scope depth arguments) : v.parameter.isCodeOnly = false := by
  obtain ⟨signature, -, -, -, -, -, i, hi, -⟩ := h
  have hwritten := (List.of_mem_zip (List.mem_of_getElem? hi)).1
  simpa using (List.mem_filter.mp hwritten).2

/-- What a walk comes to is a part of the tree. -/
theorem Reached.isPart {d : Nat} {x e : Expr} (h : Reached registry scope d x depth e) :
    x.IsPart e := by
  induction h with
  | self => exact .self
  | argument _ hvisit _ ih => exact .argument hvisit.argument_mem ih
  | left _ _ ih => exact .left ih
  | right _ _ ih => exact .right ih
  | operand _ _ ih => exact .operand ih
  | inner _ _ ih => exact .inner ih

/-- The last object that arguments name does not depend on what is written inside them: of each
argument its parameter counts, and its name if it is a bare one. -/
theorem lastNamed?_congr {c : Callee} {before before' : List (Parameter × Expr)}
    (h : before.map (fun pair => (pair.1, pair.2.identifier?))
      = before'.map fun pair => (pair.1, pair.2.identifier?)) :
    lastNamed? c before = lastNamed? c before' := by
  have hnamed : ∀ l : List (Parameter × Expr), l.filterMap namedObject?
      = (l.map fun pair => (pair.1, pair.2.identifier?)).filterMap fun named =>
          if named.1.category = .object then named.2 else none := by
    intro l
    rw [List.filterMap_map]
    rfl
  rw [lastNamed?, lastNamed?, hnamed, h, ← hnamed]

/-- What is noted is written as an argument itself. -/
theorem Visit.argument_of_noted {x : ObjectVariable} (h : v.noted? = some x) :
    v.argument = .identifier x.variableName x.span
      ∨ v.argument = .variable x.variableName x.span := by
  obtain ⟨c, before, p, a, depth⟩ := v
  unfold Visit.noted? at h
  split at h
  · obtain ⟨name, hname, hx⟩ := Option.bind_eq_some_iff.mp h
    obtain ⟨owner, -, rfl⟩ := Option.map_eq_some_iff.mp hx
    cases a with
    | identifier other span =>
      obtain rfl : other = name := Option.some.inj hname
      exact Or.inl rfl
    | «variable» other span =>
      obtain rfl : other = name := Option.some.inj hname
      exact Or.inr rfl
    | _ => cases hname
  · cases h

end Reading

/-- **The variables that a check notes.** They are those of the visited arguments, in the order of
the visits. Visited are the arguments, each with its parameter, of the calls that the walk comes to
and that pass their checks before the arguments. Whose variable an argument is does not depend on
what is written inside other arguments. And every variable noted is an argument itself: none stands
in an operand or in parentheses. -/
theorem objectVariables_validate (registry : Registry) (scope : ObjectScope)
    (expected : ValueType) (e : Expr) :
    let visits := Check.visits (Check.setting registry scope) 0 e
    let noted := (validate registry scope expected e).objectVariables
    noted = visits.filterMap Visit.noted?
      ∧ (∀ v, v ∈ visits ↔ ∃ depth arguments,
        Reached registry scope depth (.call v.callee arguments) 0 e ∧ depth ≤ maxDepth
          ∧ v.IsIn registry scope depth arguments)
      ∧ (∀ v ∈ visits, v.parameter.isCodeOnly = false)
      ∧ (∀ v w : Visit, v.callee = w.callee →
        v.before.map (fun pair => (pair.1, pair.2.identifier?))
          = w.before.map (fun pair => (pair.1, pair.2.identifier?)) →
        v.owner? = w.owner?)
      ∧ ∀ x ∈ noted, ∃ c arguments a, Expr.IsPart (.call c arguments) e ∧ a ∈ arguments
        ∧ (a = .identifier x.variableName x.span ∨ a = .variable x.variableName x.span) := by
  intro visits noted
  have hnoted : noted = visits.filterMap Visit.noted? := Check.objectVariables_walk expected 0 e
  refine ⟨hnoted, fun v => Check.mem_visits_iff, fun v hv => ?_, fun v w hcallee hbefore => ?_,
    fun x hx => ?_⟩
  · obtain ⟨depth, arguments, -, -, hin⟩ := Check.mem_visits_iff.mp hv
    exact hin.isCodeOnly
  · rw [Visit.owner?, Visit.owner?, hcallee]
    exact lastNamed?_congr hbefore
  · rw [hnoted] at hx
    obtain ⟨v, hv, hx⟩ := List.mem_filterMap.mp hx
    obtain ⟨depth, arguments, hreached, -, hin⟩ := Check.mem_visits_iff.mp hv
    exact ⟨v.callee, arguments, v.argument, hreached.isPart, hin.argument_mem,
      Visit.argument_of_noted hx⟩

/-- `Of(Hero, Of(Villain, 1, Lives), Score)`: the inner call comes first, and its object stays
inside. -/
example :
    let tags := ["object", "expression", Category.objectVariableTag]
    let signature : Signature := ⟨"Of", "number", tags.map .ofTag, none, .global, ""⟩
    let registry : Registry :=
      { Registry.empty "game" with free := ByKind.empty.insert .expression "Of" signature }
    let inner : Expr := .call (.free "Of" ⟨9, 30⟩)
      [.identifier "Villain" ⟨12, 19⟩, .number "1" ⟨21, 22⟩, .identifier "Lives" ⟨24, 29⟩]
    (validate registry ProjectScope.empty.toScope .number (.call (.free "Of" ⟨0, 38⟩)
        [.identifier "Hero" ⟨3, 7⟩, inner, .variable "Score" ⟨32, 37⟩])).objectVariables
      = [⟨"Villain", "Lives", ⟨24, 29⟩⟩, ⟨"Hero", "Score", ⟨32, 37⟩⟩] := rfl

end EventSheet
