import EventSheet.Proofs.Check.Context
import Mathlib.Data.List.Forall2

/-!
Two walks in lockstep.

A tree is walked in one setting, and the same tree with its objects under other names in another.
The walks take the same steps if at every call of the tree the two settings answer alike: the call
has functions in both that treat its arguments alike, or in neither, and its object lacks the same
capabilities (`Check.InStep`). What is found on the way is then related item by item
(`Check.walk_inStep`).

The items need not be equal. A call of an unknown function shows its surroundings in what it
suggests, and a noted variable shows names. So they are related by two relations `R` and `V` of
which no more is asked than what those places need.
-/

set_option autoImplicit false

namespace EventSheet

/-! ## Renaming the objects of a tree -/

/-- The call with its object under another name. -/
def Callee.rename (f : String → String) (c : Callee) : Callee :=
  { c with objectName := f c.objectName }

mutual

/-- The tree with every bare name, and every object of a call, under another name. -/
def Expr.rename (f : String → String) : Expr → Expr
  | .call c arguments => .call (c.rename f) (Expr.renameAll f arguments)
  | .identifier name span => .identifier (f name) span
  | .empty span => .empty span
  | .number value span => .number value span
  | .text value span => .text value span
  | .variable name span => .variable name span
  | .operator op left right span => .operator op (left.rename f) (right.rename f) span
  | .unary op operand span => .unary op (operand.rename f) span
  | .sub inner span => .sub (inner.rename f) span

/-- Each tree of a list with its names replaced. -/
def Expr.renameAll (f : String → String) : List Expr → List Expr
  | [] => []
  | a :: arguments => a.rename f :: Expr.renameAll f arguments

end

/-- What is written in front of a call fills as many parameters under another name. -/
theorem Callee.receiverSlots_rename {f : String → String}
    (hempty : ∀ name, f name = "" ↔ name = "") (c : Callee) :
    (c.rename f).receiverSlots = c.receiverSlots := by
  simp only [receiverSlots, rename, ne_eq, hempty]

namespace Expr

variable (f : String → String)

/-- The trees of a list are renamed one by one. -/
theorem renameAll_eq_map (arguments : List Expr) :
    renameAll f arguments = arguments.map (rename f) := by
  induction arguments with
  | nil => rw [renameAll, List.map_nil]
  | cons a arguments ih => rw [renameAll, List.map_cons, ih]

@[simp] theorem span_rename (e : Expr) : (e.rename f).span = e.span := by
  cases e <;> rw [rename] <;> rfl

/-- A placeholder has no name, so it stays one, and nothing else becomes one. -/
@[simp] theorem isEmptyPlaceholder_rename (e : Expr) :
    (e.rename f).isEmptyPlaceholder = e.isEmptyPlaceholder := by
  cases e <;> rw [rename] <;> rfl

@[simp] theorem identifier?_rename (e : Expr) :
    (e.rename f).identifier? = e.identifier?.map f := by
  cases e <;> rw [rename] <;> rfl

theorem map_span_renameAll (arguments : List Expr) :
    (renameAll f arguments).map span = arguments.map span := by
  rw [renameAll_eq_map, List.map_map]
  exact List.map_congr_left fun a _ => a.span_rename f

/-- Where every name stays, the tree does. -/
theorem rename_id (e : Expr) : e.rename id = e := by
  -- on the tree: the arguments of a call are renamed one by one
  induction e using Expr.induction with
  | call c arguments ih =>
    rw [rename, renameAll_eq_map, List.map_congr_left ih, List.map_id']
    rfl
  | leaf e he =>
    cases e with
    | call | operator | unary | sub => exact absurd he Bool.false_ne_true
    | _ => rw [rename] <;> rfl
  | operator op left right span ihleft ihright => rw [rename, ihleft, ihright]
  | unary op operand span ih => rw [rename, ih]
  | sub inner span ih => rw [rename, ih]

end Expr

/-! ## Settings that answer alike -/

/-- The two scopes say the same of every object, which goes by another name in the second. -/
structure ObjectScope.Renamed (f : String → String) (scope scope' : ObjectScope) : Prop where
  /-- An object is written in both or in neither. -/
  empty_iff : ∀ name, f name = "" ↔ name = ""
  /-- The object is of the same type. -/
  objectType : ∀ name, scope'.objectType? (f name) = scope.objectType? name
  /-- A behavior written on it is of the same type. -/
  behaviorType : ∀ name behavior,
    scope'.behaviorType? (f name) behavior = scope.behaviorType? name behavior

/-- A scope is itself with every object under its own name. -/
theorem ObjectScope.Renamed.id (scope : ObjectScope) : scope.Renamed id scope :=
  ⟨fun _ => Iff.rfl, fun _ => rfl, fun _ _ => rfl⟩

/-- Two functions treat a call alike whose receivers fill some of their parameters: the types, the
capability and the parameters that arguments are written for are the same. -/
structure Signature.CalledAlike (receiverSlots : Nat) (a b : Signature) : Prop where
  returnType : a.returnType = b.returnType
  capability : a.capability? = b.capability?
  written : a.written receiverSlots = b.written receiverSlots

/-- What is found alike treats calls alike. -/
theorem Signature.CalledAlike.rel_of_eq (receiverSlots : Nat) {found found' : Option Signature}
    (h : found = found') : Option.Rel (CalledAlike receiverSlots) found found' := by
  subst h
  cases found with
  | none => exact .none
  | some a => exact .some ⟨rfl, rfl, rfl⟩

/-- What is found on two walks is related, item by item. -/
structure Findings.Alike (R : Diagnostic → Diagnostic → Prop)
    (V : ObjectVariable → ObjectVariable → Prop) (a b : Findings) : Prop where
  diagnostics : List.Forall₂ R a.diagnostics b.diagnostics
  objectVariables : List.Forall₂ V a.objectVariables b.objectVariables

namespace Findings.Alike

variable {R : Diagnostic → Diagnostic → Prop} {V : ObjectVariable → ObjectVariable → Prop}

theorem none : Findings.none.Alike R V Findings.none := ⟨.nil, .nil⟩

theorem append {a b a' b' : Findings} (h : a.Alike R V b) (h' : a'.Alike R V b') :
    (a ++ a').Alike R V (b ++ b') :=
  ⟨List.rel_append h.diagnostics h'.diagnostics,
    List.rel_append h.objectVariables h'.objectVariables⟩

/-- Findings without variables are related to themselves. -/
theorem same (hrefl : ∀ d, R d d) {a : Findings} (h : a.objectVariables = []) : a.Alike R V a where
  diagnostics := List.forall₂_same.mpr fun d _ => hrefl d
  objectVariables := by
    rw [h]
    exact .nil

/-- A variable that is noted for an object is noted for the renamed one. -/
theorem ofVariable {f : String → String} {name name' : String} {span : Span}
    (h : ∀ owner, V ⟨owner, name, span⟩ ⟨f owner, name', span⟩) (owner : Option String) :
    (Findings.ofVariable owner name span).Alike R V (.ofVariable (owner.map f) name' span) := by
  cases owner with
  | none => exact .none
  | some owner => exact ⟨.nil, .cons (h owner) .nil⟩

end Findings.Alike

namespace Check

/-- Two settings in which a tree, its objects renamed in the second, can be walked in lockstep. -/
structure InStep (s s' : Setting) (f : String → String) (R : Diagnostic → Diagnostic → Prop)
    (V : ObjectVariable → ObjectVariable → Prop) (root : Expr) : Prop where
  /-- The scopes say the same of every object. -/
  scope : s.scope.Renamed f s'.scope
  /-- The objects of a type have the same capabilities. -/
  capabilities : ∀ type, (s.registry.object? type).map ObjectType.capabilities
    = (s'.registry.object? type).map ObjectType.capabilities
  /-- Every call of the tree is of functions that treat it alike, or of none. -/
  functions : ∀ c arguments, Expr.IsPart (.call c arguments) root →
    Option.Rel (Signature.CalledAlike c.receiverSlots) (resolve s c) (resolve s' (c.rename f))
  /-- What is said of a call of no function is related. -/
  unknown : ∀ c arguments, Expr.IsPart (.call c arguments) root →
    R ((Problem.unknownFunction c.functionName (suggestions s c)).at c.span)
      ((Problem.unknownFunction c.functionName (suggestions s' (c.rename f))).at c.span)
  /-- Nothing else that is said may differ. -/
  refl : ∀ d, R d d
  /-- What is noted of a bare name is related. -/
  ofIdentifier : ∀ owner name span, Expr.IsPart (.identifier name span) root →
    V ⟨owner, name, span⟩ ⟨f owner, f name, span⟩
  /-- What is noted of an access to a variable is related. -/
  ofVariable : ∀ owner name span, Expr.IsPart (.variable name span) root →
    V ⟨owner, name, span⟩ ⟨f owner, name, span⟩

namespace InStep

variable {s s' : Setting} {f : String → String} {R : Diagnostic → Diagnostic → Prop}
  {V : ObjectVariable → ObjectVariable → Prop} {root : Expr}

/-! ## The receiver of a call and its checks -/

section Scope

variable (h : s.scope.Renamed f s'.scope)

include h

/-- A renamed object is of the same type. -/
theorem objectType?_rename (c : Callee) : objectType? s' (c.rename f) = objectType? s c := by
  have htype := h.objectType c.objectName
  unfold objectType?
  simp only [Callee.rename, h.empty_iff, htype]

/-- A renamed receiver has the same functions. -/
theorem owner_rename (c : Callee) : owner s' (c.rename f) = owner s c := by
  have htype := h.behaviorType c.objectName c.behaviorName
  have hbehavior : behaviorType? s' (c.rename f) = behaviorType? s c := by
    unfold behaviorType?
    simp only [Callee.rename, htype]
  rw [owner, owner, objectType?_rename h, hbehavior]

/-- A renamed call starts with the renamed object. -/
theorem receiverName_rename (c : Callee) : receiverName (c.rename f) = (receiverName c).map f := by
  simp only [receiverName, Callee.rename, h.empty_iff]
  by_cases hname : c.objectName = ""
  · rw [if_pos hname, if_pos hname, Option.map_none]
  · rw [if_neg hname, if_neg hname, Option.map_some]

end Scope

/-- A renamed object lacks what the object lacks. -/
theorem missingCapability?_eq (h : InStep s s' f R V root) (c : Callee)
    {signature signature' : Signature}
    (hcapability : signature.capability? = signature'.capability?) :
    missingCapability? s c signature = missingCapability? s' (c.rename f) signature' := by
  have hlacks : ∀ type capability,
      ((s.registry.object? type).bind fun t =>
          if t.supports capability then none else some capability)
        = (s'.registry.object? type).bind fun t =>
            if t.supports capability then none else some capability := by
    intro type capability
    -- what is asked of the type is asked of its capabilities
    have hset := congrArg (fun set? : Option NameSet => set?.bind fun set =>
      if set.contains capability then none else some capability) (h.capabilities type)
    rw [Option.bind_map, Option.bind_map] at hset
    exact hset
  unfold missingCapability?
  rw [objectType?_rename h.scope, hcapability]
  simp only [bind, hlacks]

section Call

variable (h : InStep s s' f R V root) {c : Callee} {arguments : List Expr}
  (hpart : Expr.IsPart (.call c arguments) root)

include h hpart

/-- A call has the same type under another name. -/
theorem callType_rename : callType s c = callType s' (c.rename f) := by
  have hfunctions := h.functions c arguments hpart
  unfold callType
  generalize resolve s c = found, resolve s' (c.rename f) = found' at hfunctions ⊢
  cases hfunctions with
  | none => rfl
  | some halike => exact halike.returnType

/-- The same number of arguments is looked at, with the same parameters. -/
theorem argumentParameters?_rename (count : Nat) :
    argumentParameters? s c count = argumentParameters? s' (c.rename f) count := by
  have hslots := Callee.receiverSlots_rename h.scope.empty_iff c
  have hfunctions := h.functions c arguments hpart
  unfold argumentParameters?
  generalize resolve s c = found, resolve s' (c.rename f) = found' at hfunctions ⊢
  cases hfunctions with
  | none => rfl
  | some halike =>
    dsimp only
    rw [← h.missingCapability?_eq c halike.capability, hslots, Signature.minArguments,
      Signature.maxArguments, Signature.minArguments, Signature.maxArguments, halike.written]

/-- The checks of a call before its arguments find the same, unless its function is unknown. -/
theorem checkCall_diagnostics_alike (expected : ValueType) :
    List.Forall₂ R (checkCall s expected c arguments).diagnostics
      (checkCall s' expected (c.rename f) (Expr.renameAll f arguments)).diagnostics := by
  have hsame : ∀ l : List Diagnostic, List.Forall₂ R l l := fun l =>
    List.forall₂_same.mpr fun d _ => h.refl d
  have hslots := Callee.receiverSlots_rename h.scope.empty_iff c
  have hfunctions := h.functions c arguments hpart
  unfold checkCall
  generalize resolve s c = found, resolve s' (c.rename f) = found' at hfunctions ⊢
  cases hfunctions with
  | none =>
    -- only here do the settings show, in what is suggested
    exact .cons (h.unknown c arguments hpart) .nil
  | @some signature signature' halike =>
    have hwritten : signature.written c.receiverSlots
        = signature'.written (c.rename f).receiverSlots := by
      rw [hslots, halike.written]
    -- arguments that are left over are marked by spans, which a renaming keeps
    have harity : arityDiagnostics signature c arguments
        = arityDiagnostics signature' (c.rename f) (Expr.renameAll f arguments) :=
      arityDiagnostics_congr hwritten rfl (Expr.map_span_renameAll f arguments).symm
    dsimp only
    rw [← h.missingCapability?_eq c halike.capability, ← harity, ← hwritten, halike.returnType]
    exact hsame _

end Call

/-! ## The walk -/

/-- A category asks whether an argument is a name, not which. -/
theorem categoryFindings_rename (p : Parameter) (a : Expr) :
    categoryFindings p (a.rename f) = categoryFindings p a := by
  unfold categoryFindings
  rw [Expr.span_rename, Expr.identifier?_rename]
  rcases a.identifier? with _ | name <;> rfl

/-- The object that is named last goes by its other name. -/
theorem lastObjectAfter_rename (p : Parameter) (a : Expr) (lastObject : Option String) :
    lastObjectAfter p (a.rename f) (lastObject.map f) = (lastObjectAfter p a lastObject).map f := by
  unfold lastObjectAfter
  rw [Expr.identifier?_rename]
  cases p.category with
  | object => exact Option.map_or.symm
  | _ => rfl

theorem variableOwner_map (p : Parameter) (lastObject : Option String) :
    variableOwner p (lastObject.map f) = (variableOwner p lastObject).map f := by
  unfold variableOwner
  split <;> rfl

/-- The arguments of a call, each with its parameter. The object that was written last goes by its
other name in the second walk. -/
theorem walkArguments_inStep (hrefl : ∀ d, R d d) {depth : Nat} {arguments : List Expr}
    (ih : ∀ a ∈ arguments, ∀ expected owner,
      (walk s expected (depth + 1) owner a).2.Alike R V
        (walk s' expected (depth + 1) (owner.map f) (a.rename f)).2)
    (lastObject : Option String) (parameters : List Parameter) :
    (walkArguments s depth lastObject parameters arguments).Alike R V
      (walkArguments s' depth (lastObject.map f) parameters (Expr.renameAll f arguments)) := by
  -- on the arguments: the object named last changes with each of them, so it may be any
  induction arguments generalizing parameters lastObject with
  | nil =>
    cases parameters <;> simp only [Expr.renameAll, walkArguments] <;> exact .none
  | cons a arguments ihrest =>
    cases parameters with
    | nil =>
      rw [Expr.renameAll, walkArguments, walkArguments]
      exact .none
    | cons p parameters =>
      have hrest := ihrest fun b hb => ih b (List.mem_cons_of_mem a hb)
      rw [Expr.renameAll, walkArguments, walkArguments, Expr.isEmptyPlaceholder_rename,
        Expr.span_rename]
      by_cases hempty : a.isEmptyPlaceholder = true
      · -- a placeholder is not walked, and names no object
        rw [if_pos hempty, if_pos hempty]
        have hplaceholder := objectVariables_placeholderFindings p a.span
        exact (Findings.Alike.same hrefl hplaceholder).append (hrest lastObject parameters)
      · rw [if_neg hempty, if_neg hempty, variableOwner_map, categoryFindings_rename,
          lastObjectAfter_rename]
        have hargument := ih a List.mem_cons_self p.type (variableOwner p lastObject)
        have hcategory := Findings.Alike.same (V := V) hrefl (objectVariables_categoryFindings p a)
        exact (hargument.append hcategory).append (hrest _ parameters)

/-- **The walks go in lockstep.** At every node of the tree they give the same type, and what they
find below it is related item by item. -/
theorem walk_inStep (h : InStep s s' f R V root) (depth : Nat) {e : Expr} (hpart : e.IsPart root)
    (expected : ValueType) (owner : Option String) :
    (walk s expected depth owner e).1 = (walk s' expected depth (owner.map f) (e.rename f)).1
      ∧ (walk s expected depth owner e).2.Alike R V
        (walk s' expected depth (owner.map f) (e.rename f)).2 := by
  -- along the first walk; the second one comes to the same places
  induction depth, e using Check.induction generalizing expected owner with
  | deep depth e hdeep =>
    rw [walk_of_lt hdeep, walk_of_lt hdeep, Expr.span_rename]
    exact ⟨rfl, .same h.refl rfl⟩
  | call depth c arguments hdepth ih =>
    have hlength : (Expr.renameAll f arguments).length = arguments.length := by
      rw [Expr.renameAll_eq_map, List.length_map]
    have harguments : ∀ lastObject parameters,
        (walkArguments s depth lastObject parameters arguments).Alike R V
          (walkArguments s' depth (lastObject.map f) parameters (Expr.renameAll f arguments)) :=
      walkArguments_inStep h.refl fun a ha expected owner =>
        (ih a ha (.argument_of_call hpart ha) expected owner).2
    rw [Expr.rename, walk_call hdepth, walk_call hdepth, hlength, receiverName_rename h.scope,
      ← h.argumentParameters?_rename hpart]
    refine ⟨h.callType_rename hpart,
      .append ⟨h.checkCall_diagnostics_alike hpart expected, .nil⟩ ?_⟩
    -- the arguments are looked at on both walks or on neither
    rcases argumentParameters? s c arguments.length with _ | parameters
    · exact .none
    · exact harguments (receiverName c) parameters
  | leaf depth e hdepth he =>
    cases e with
    | identifier name span =>
      rw [Expr.rename, walk_identifier hdepth, walk_identifier hdepth]
      refine ⟨rfl, ?_⟩
      unfold identifierFindings
      split
      · exact .ofVariable (fun owner => h.ofIdentifier owner name span hpart) owner
      · exact .none
    | «variable» name span =>
      rw [Expr.rename, walk_variable hdepth, walk_variable hdepth]
      exact ⟨rfl, .ofVariable (fun owner => h.ofVariable owner name span hpart) owner⟩
    | call | operator | unary | sub => exact absurd he Bool.false_ne_true
    | _ =>
      simp only [Expr.rename, walk, if_neg (Nat.not_lt.mpr hdepth)]
      exact ⟨trivial, .none⟩
  | operator depth op left right span hdepth ihleft ihright =>
    obtain ⟨hleft, hfoundLeft⟩ := ihleft ((Expr.IsPart.left .self).trans hpart) expected none
    obtain ⟨hright, hfoundRight⟩ := ihright ((Expr.IsPart.right .self).trans hpart) expected none
    rw [Expr.rename, walk_operator hdepth, walk_operator hdepth]
    exact ⟨congrArg₂ join hleft hright, hfoundLeft.append hfoundRight⟩
  | unary depth op operand span hdepth ih =>
    rw [Expr.rename, walk_unary hdepth, walk_unary hdepth]
    exact ih ((Expr.IsPart.operand .self).trans hpart) expected none
  | sub depth inner span hdepth ih =>
    rw [Expr.rename, walk_sub hdepth, walk_sub hdepth]
    exact ih ((Expr.IsPart.inner .self).trans hpart) expected none

/-- What is said of two trees that are walked in lockstep. -/
theorem validateIn_inStep (h : InStep s s' f R V root) (expected : ValueType) :
    let outcome := validateIn s expected root
    let outcome' := validateIn s' expected (root.rename f)
    List.Forall₂ R outcome.diagnostics outcome'.diagnostics
      ∧ outcome.inferredType = outcome'.inferredType
      ∧ List.Forall₂ V outcome.objectVariables outcome'.objectVariables := by
  obtain ⟨htype, hfound⟩ := h.walk_inStep 0 .self expected none
  exact ⟨hfound.diagnostics, htype, hfound.objectVariables⟩

end InStep

end Check

end EventSheet
