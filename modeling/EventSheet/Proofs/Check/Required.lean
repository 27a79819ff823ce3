import EventSheet.Proofs.Check.Acceptance
import EventSheet.Registry.Registration

/-!
Which required parameters of a call are left without an argument although nothing is reported.

The checks of a call count: there are at least as many arguments as required parameters. Arguments
are paired by position: they fill the parameters from the first on, and a parameter behind the last
argument gets none. The two agree exactly if no required parameter stands behind an optional one
(`OptionalLast`). Then a call without diagnostics fills them all; otherwise there is one that does
not (`valid_fills_required`).
-/

set_option autoImplicit false

namespace EventSheet

/-! ## Parts of a tree -/

/-- Accepted arguments, one by one: a placeholder stands for an optional parameter, and anything
else is accepted itself, for a parameter of a known category. -/
theorem ArgumentsAccepted.getElem? {registry : Registry} {scope : ObjectScope} {depth : Nat}
    {parameters : List Parameter} {arguments : List Expr}
    (h : ArgumentsAccepted registry scope depth parameters arguments) {i : Nat} {p : Parameter}
    {a : Expr} (hp : parameters[i]? = some p) (ha : arguments[i]? = some a) :
    a.isEmptyPlaceholder = true ∧ p.isOptional = true
      ∨ a.isEmptyPlaceholder = false ∧ Accepted registry scope (depth + 1) p.type a
        ∧ p.category ≠ .unrecognized := by
  induction arguments generalizing parameters i with
  | nil => simp at ha
  | cons b arguments ih =>
    cases i with
    | zero =>
      obtain rfl : b = a := by simpa using ha
      cases h with
      | omitted hoptional _ =>
        rw [List.getElem?_cons_zero, Option.some.injEq] at hp
        subst hp
        exact Or.inl ⟨rfl, hoptional⟩
      | written hempty haccepted hknown _ _ =>
        rw [List.getElem?_cons_zero, Option.some.injEq] at hp
        subst hp
        exact Or.inr ⟨hempty, haccepted, hknown⟩
    | succ i =>
      cases h with
      | omitted _ hrest | written _ _ _ _ hrest =>
        exact ih hrest (by simpa using hp) (by simpa using ha)

/-- Every part of an accepted tree is accepted at its own place, placeholders apart. -/
theorem Accepted.isPart {registry : Registry} {scope : ObjectScope} {depth : Nat}
    {expected : ValueType} {e x : Expr} (h : Accepted registry scope depth expected e)
    (hx : x.IsPart e) (hempty : x.isEmptyPlaceholder = false) :
    ∃ depth expected, Accepted registry scope depth expected x := by
  induction hx generalizing depth expected with
  | self => exact ⟨depth, expected, h⟩
  | @argument c arguments a ha hpart ih =>
    obtain ⟨-, signature, -, -, -, -, hmax, harguments⟩ := accepted_call_iff.mp h
    obtain ⟨i, hi⟩ := List.mem_iff_getElem?.mp ha
    obtain ⟨hlt, -⟩ := List.getElem?_eq_some_iff.mp hi
    -- there are no more arguments than parameters, so this one has its own
    have hp := List.getElem?_eq_getElem (Nat.lt_of_lt_of_le hlt hmax)
    rcases harguments.getElem? hp hi with ⟨hplaceholder, -⟩ | ⟨-, haccepted, -⟩
    · -- a placeholder has no parts but itself
      obtain ⟨span, rfl⟩ := Expr.isEmptyPlaceholder_iff.mp hplaceholder
      cases hpart with
      | self => exact absurd hempty (by simp [hplaceholder])
    · exact ih haccepted
  | left _ ih => exact ih (accepted_operator_iff.mp h).2.1
  | right _ ih => exact ih (accepted_operator_iff.mp h).2.2
  | operand _ ih => exact ih (accepted_unary_iff.mp h).2
  | inner _ ih => exact ih (accepted_sub_iff.mp h).2

/-! ## Positions -/

section Positions

variable {α : Type} {l : List α} {f : α → Bool}

/-- An element that is kept stands behind those that are kept before it. -/
theorem getElem?_filter_of_getElem? {j : Nat} {a : α} (h : l[j]? = some a) (hf : f a = true) :
    (l.filter f)[((l.take j).filter f).length]? = some a := by
  induction l generalizing j with
  | nil => simp at h
  | cons b l ih =>
    cases j with
    | zero =>
      obtain rfl : b = a := by simpa using h
      simp [hf]
    | succ j =>
      have hrest := ih (by simpa using h)
      by_cases hb : f b = true
      · simpa [hb] using hrest
      · simpa [hb] using hrest

/-- Every element that is kept stands somewhere in the list, behind those that are kept before
it. -/
theorem exists_getElem?_of_getElem?_filter {i : Nat} {a : α} (h : (l.filter f)[i]? = some a) :
    ∃ j : Nat, l[j]? = some a ∧ f a = true ∧ ((l.take j).filter f).length = i := by
  induction l generalizing i with
  | nil => simp at h
  | cons b l ih =>
    by_cases hb : f b = true
    · rw [List.filter_cons_of_pos hb] at h
      cases i with
      | zero =>
        obtain rfl : b = a := by simpa using h
        exact ⟨0, by simp, hb, by simp⟩
      | succ i =>
        obtain ⟨j, hj, hf, hi⟩ := ih (by simpa using h)
        exact ⟨j + 1, by simpa using hj, hf, by simp [hb, hi]⟩
    · rw [List.filter_cons_of_neg hb] at h
      obtain ⟨j, hj, hf, hi⟩ := ih h
      exact ⟨j + 1, by simpa using hj, hf, by simp [hb, hi]⟩

/-- If what is kept stands among the first `n`, no more than `n` are kept. -/
theorem length_filter_le_of_lt {n : Nat} (h : ∀ i a, l[i]? = some a → f a = true → i < n) :
    (l.filter f).length ≤ n := by
  -- nothing behind the first `n` is kept
  have hdrop : (l.drop n).filter f = [] := by
    rw [List.filter_eq_nil_iff]
    intro a ha hf
    obtain ⟨i, hi⟩ := List.mem_iff_getElem?.mp ha
    rw [List.getElem?_drop] at hi
    have hlt := h _ a hi hf
    omega
  calc (l.filter f).length
      = ((l.take n ++ l.drop n).filter f).length := by rw [List.take_append_drop]
    _ = ((l.take n).filter f).length := by rw [List.filter_append, hdrop, List.append_nil]
    _ ≤ (l.take n).length := List.length_filter_le _ _
    _ ≤ n := List.length_take_le _ _

end Positions

/-! ## Parameters and the arguments they are paired with -/

namespace Signature

/-- The position, among the parameters that arguments are written for, of the parameter at a
position. -/
def argumentIndex (signature : Signature) (receiverSlots i : Nat) : Nat :=
  (((signature.parameters.take i).drop receiverSlots).filter fun p => !p.isCodeOnly).length

/-- The parameter at a position is one that needs an argument: it stands behind those of the
receivers, generated code does not supply it, and it may not be left out. -/
structure RequiredAt (signature : Signature) (receiverSlots i : Nat) (p : Parameter) : Prop where
  behind : receiverSlots ≤ i
  declared : signature.parameters[i]? = some p
  notCodeOnly : p.isCodeOnly = false
  notOptional : p.isOptional = false

/-- The parameter at a position is paired with an argument that is no placeholder. The pairs are
those that the walk over the arguments goes through (`Check.walkArguments_diagnostics`). -/
def FilledAt (signature : Signature) (receiverSlots i : Nat) (p : Parameter)
    (arguments : List Expr) : Prop :=
  ∃ a, ((signature.written receiverSlots).zip arguments)[signature.argumentIndex receiverSlots i]?
      = some (p, a)
    ∧ a.isEmptyPlaceholder = false

variable {signature : Signature} {receiverSlots i : Nat} {p : Parameter}

theorem RequiredAt.written (h : signature.RequiredAt receiverSlots i p) :
    (signature.written receiverSlots)[signature.argumentIndex receiverSlots i]? = some p := by
  have hdrop : (signature.parameters.drop receiverSlots)[i - receiverSlots]? = some p := by
    rw [List.getElem?_drop, Nat.add_sub_cancel' h.behind, h.declared]
  have hkept := getElem?_filter_of_getElem? (f := fun p => !p.isCodeOnly) hdrop
    (by simp [h.notCodeOnly])
  rwa [List.take_drop, Nat.add_sub_cancel' h.behind] at hkept

/-- Every required parameter among those that arguments are written for is declared somewhere. -/
theorem exists_requiredAt {k : Nat} (h : (signature.written receiverSlots)[k]? = some p)
    (hp : p.isOptional = false) :
    ∃ i, signature.RequiredAt receiverSlots i p
      ∧ signature.argumentIndex receiverSlots i = k := by
  obtain ⟨j, hj, hkept, hk⟩ := exists_getElem?_of_getElem?_filter h
  refine ⟨receiverSlots + j, ⟨Nat.le_add_right _ _, ?_, by simpa using hkept, hp⟩, ?_⟩
  · rwa [List.getElem?_drop] at hj
  · rw [argumentIndex, ← List.take_drop, hk]

end Signature

/-- No required parameter stands behind an optional one. -/
def OptionalLast (parameters : List Parameter) : Prop :=
  parameters.Pairwise fun p q => p.isOptional = true → q.isOptional = true

/-- If the first parameter is optional and counting the required ones still reaches behind the last
of them, there are none. -/
theorem isOptional_of_reached {q : Parameter} {parameters : List Parameter}
    (hq : q.isOptional = true)
    (h : ∀ i p, (q :: parameters)[i]? = some p → p.isOptional = false →
      i < ((q :: parameters).filter fun p => !p.isOptional).length) :
    ∀ p ∈ parameters, p.isOptional = true := by
  -- behind the first one they all have to stand before the last of the places that they take
  have hlt : ∀ (i : Nat) (p : Parameter), parameters[i]? = some p → (!p.isOptional) = true →
      i < (parameters.filter fun p => !p.isOptional).length - 1 := by
    intro i p hp hrequired
    have hi := h (i + 1) p (by simpa using hp) (by simpa using hrequired)
    rw [List.filter_cons_of_neg (by simp [hq])] at hi
    omega
  have hle := length_filter_le_of_lt hlt
  intro p hp
  cases hrequired : p.isOptional with
  | true => rfl
  | false =>
    obtain ⟨i, hi⟩ := List.mem_iff_getElem?.mp hp
    have := hlt i p hi (by simp [hrequired])
    omega

/-- Optional parameters come last exactly if counting the required parameters reaches behind the
last of them. -/
theorem optionalLast_iff (parameters : List Parameter) :
    OptionalLast parameters ↔ ∀ i p, parameters[i]? = some p → p.isOptional = false →
      i < (parameters.filter fun p => !p.isOptional).length := by
  induction parameters with
  | nil => simp [OptionalLast]
  | cons q parameters ih =>
    rw [OptionalLast, List.pairwise_cons, ← OptionalLast, ih]
    constructor
    · rintro ⟨hq, hrest⟩ i p hp hrequired
      cases i with
      | zero =>
        obtain rfl : q = p := by simpa using hp
        simp [hrequired]
      | succ i =>
        have hp' : parameters[i]? = some p := by simpa using hp
        -- an optional parameter in front of a required one is ruled out
        have hqrequired : q.isOptional = false := by
          cases hqoptional : q.isOptional with
          | false => rfl
          | true =>
            have hpoptional := hq p (List.mem_of_getElem? hp') hqoptional
            rw [hrequired] at hpoptional
            exact absurd hpoptional Bool.false_ne_true
        have hi := hrest i p hp' hrequired
        rw [List.filter_cons_of_pos (by simp [hqrequired]), List.length_cons]
        omega
    · intro h
      cases hqoptional : q.isOptional with
      | false =>
        refine ⟨fun p _ hcontra => absurd hcontra Bool.false_ne_true, fun i p hp hrequired => ?_⟩
        have hi := h (i + 1) p (by simpa using hp) hrequired
        rw [List.filter_cons_of_pos (by simp [hqoptional]), List.length_cons] at hi
        omega
      | true =>
        have hall := isOptional_of_reached hqoptional h
        refine ⟨fun p hp _ => hall p hp, fun i p hp hrequired => ?_⟩
        rw [hall p (List.mem_of_getElem? hp)] at hrequired
        exact absurd hrequired.symm Bool.false_ne_true

/-! ## Calls -/

section Calls

variable {registry : Registry} {scope : ObjectScope} {signature : Signature}

/-- Among accepted arguments a required parameter is filled exactly if there are arguments up to
it. -/
theorem ArgumentsAccepted.filledAt_iff {depth receiverSlots i : Nat} {p : Parameter}
    {arguments : List Expr}
    (h : ArgumentsAccepted registry scope depth (signature.written receiverSlots) arguments)
    (hp : signature.RequiredAt receiverSlots i p) :
    signature.FilledAt receiverSlots i p arguments ↔
      signature.argumentIndex receiverSlots i < arguments.length := by
  constructor
  · rintro ⟨a, ha, -⟩
    exact (List.getElem?_eq_some_iff.mp (List.getElem?_zip_eq_some.mp ha).2).1
  · intro hlt
    have ha := List.getElem?_eq_getElem hlt
    refine ⟨_, List.getElem?_zip_eq_some.mpr ⟨hp.written, ha⟩, ?_⟩
    rcases h.getElem? hp.written ha with ⟨-, hoptional⟩ | ⟨hempty, -⟩
    · rw [hp.notOptional] at hoptional
      exact absurd hoptional Bool.false_ne_true
    · exact hempty

/-- The least that can be written for a parameter: nothing if it is optional, else a name. -/
def Parameter.leastArgument (p : Parameter) : Expr :=
  if p.isOptional then .empty .origin else .identifier "x" .origin

/-- A name suits every required parameter of a known category, so the least arguments are accepted
for as many parameters as one likes. -/
theorem argumentsAccepted_leastArgument {depth : Nat} (hdepth : depth + 1 ≤ maxDepth) (n : Nat)
    (parameters : List Parameter)
    (hknown : ∀ p ∈ parameters.take n, p.isOptional = false → p.category ≠ .unrecognized) :
    ArgumentsAccepted registry scope depth parameters
      ((parameters.take n).map Parameter.leastArgument) := by
  induction parameters generalizing n with
  | nil =>
    rw [List.take_nil]
    exact .nil
  | cons p parameters ih =>
    cases n with
    | zero => exact .nil
    | succ n =>
      rw [List.take_succ_cons] at hknown ⊢
      have hrest := ih n fun q hq => hknown q (List.mem_cons_of_mem p hq)
      rw [List.map_cons, Parameter.leastArgument]
      cases hoptional : p.isOptional with
      | true => exact .omitted hoptional hrest
      | false =>
        exact .written rfl (.leaf hdepth rfl) (hknown p List.mem_cons_self hoptional)
          (fun _ => ⟨"x", .origin, rfl⟩) hrest

/-- As many arguments as there are required parameters reach all of these, if the optional ones come
last. -/
theorem ArgumentsAccepted.filledAt_of_optionalLast {depth receiverSlots i : Nat} {p : Parameter}
    {arguments : List Expr}
    (h : ArgumentsAccepted registry scope depth (signature.written receiverSlots) arguments)
    (hmin : signature.minArguments receiverSlots ≤ arguments.length)
    (hlast : OptionalLast (signature.written receiverSlots))
    (hp : signature.RequiredAt receiverSlots i p) :
    signature.FilledAt receiverSlots i p arguments := by
  have hlt := (optionalLast_iff _).mp hlast _ _ hp.written hp.notOptional
  exact (h.filledAt_iff hp).mpr (Nat.lt_of_lt_of_le hlt hmin)

/-- If the optional parameters do not come last, some required one is out of reach of the least
number of arguments. -/
theorem Signature.exists_requiredAt_of_not_optionalLast {receiverSlots : Nat}
    (h : ¬ OptionalLast (signature.written receiverSlots)) :
    ∃ i p, signature.RequiredAt receiverSlots i p
      ∧ signature.minArguments receiverSlots ≤ signature.argumentIndex receiverSlots i := by
  rw [optionalLast_iff] at h
  obtain ⟨k, hk⟩ := Classical.not_forall.mp h
  obtain ⟨p, hp⟩ := Classical.not_forall.mp hk
  obtain ⟨hdeclared, hp⟩ := Classical.not_imp.mp hp
  obtain ⟨hrequired, hout⟩ := Classical.not_imp.mp hp
  obtain ⟨i, hi, rfl⟩ := Signature.exists_requiredAt hdeclared hrequired
  exact ⟨i, p, hi, Nat.not_lt.mp hout⟩

/-- The least call of a function is accepted, if every required parameter that it reaches is of a
known category. -/
theorem accepted_least {c : Callee} (hmeans : Means registry scope c signature)
    (hcapable : Capable registry scope c signature)
    (hknown : ∀ p ∈ (signature.written c.receiverSlots).take
        (signature.minArguments c.receiverSlots),
      p.isOptional = false → p.category ≠ .unrecognized) :
    Accepted registry scope 0 .unknown (.call c
      (((signature.written c.receiverSlots).take
        (signature.minArguments c.receiverSlots)).map Parameter.leastArgument)) := by
  have hle : signature.minArguments c.receiverSlots ≤ (signature.written c.receiverSlots).length :=
    List.length_filter_le _ _
  refine .call (Nat.zero_le _) hmeans hcapable (.unknownExpected _) ?_ ?_
    (argumentsAccepted_leastArgument (by decide) _ _ hknown)
  · rw [List.length_map, List.length_take, Nat.min_eq_left hle]
    exact Nat.le_refl _
  · rw [List.length_map, List.length_take]
    exact Nat.min_le_right _ _

/-- No call of a function is accepted, if a required parameter that every call reaches is of no
known category. -/
theorem not_accepted_of_unrecognized {depth : Nat} {expected : ValueType} {c : Callee}
    {arguments : List Expr} (hmeans : Means registry scope c signature) {p : Parameter}
    (hp : p ∈ (signature.written c.receiverSlots).take (signature.minArguments c.receiverSlots))
    (hrequired : p.isOptional = false) (hunknown : p.category = .unrecognized) :
    ¬ Accepted registry scope depth expected (.call c arguments) := by
  intro h
  obtain ⟨-, signature', hmeans', -, -, hmin, -, harguments⟩ := accepted_call_iff.mp h
  obtain rfl := hmeans.unique hmeans'
  obtain ⟨i, hi⟩ := List.mem_iff_getElem?.mp hp
  have hreached : i < signature.minArguments c.receiverSlots := by
    have hlt := (List.getElem?_eq_some_iff.mp hi).1
    rw [List.length_take] at hlt
    omega
  rw [List.getElem?_take_of_lt hreached] at hi
  have ha := List.getElem?_eq_getElem (Nat.lt_of_lt_of_le hreached hmin)
  rcases harguments.getElem? hi ha with ⟨-, hoptional⟩ | ⟨-, -, hknown⟩
  · simp [hrequired] at hoptional
  · exact hknown hunknown

end Calls

/-- **When valid calls fill their required parameters.** In a tree without diagnostics, a required
parameter of a call is filled exactly if there are arguments up to it, and all of them are if the
optional ones come last. Of a function whose optional parameters do not, some call without
diagnostics leaves a required parameter unfilled, unless no call of it is without diagnostics,
because a required parameter that every call reaches is of no known category. -/
theorem valid_fills_required (registry : Registry) (scope : ObjectScope) :
    (∀ expected e c arguments, (validate registry scope expected e).isValid = true →
      Expr.IsPart (.call c arguments) e →
      ∃ signature, Means registry scope c signature
        ∧ (∀ i p, signature.RequiredAt c.receiverSlots i p →
          (signature.FilledAt c.receiverSlots i p arguments ↔
            signature.argumentIndex c.receiverSlots i < arguments.length))
        ∧ (OptionalLast (signature.written c.receiverSlots) →
          ∀ i p, signature.RequiredAt c.receiverSlots i p →
            signature.FilledAt c.receiverSlots i p arguments))
      ∧ (∀ c signature, Means registry scope c signature → Capable registry scope c signature →
        ((∀ expected arguments,
            (validate registry scope expected (.call c arguments)).isValid = true →
            ∀ i p, signature.RequiredAt c.receiverSlots i p →
              signature.FilledAt c.receiverSlots i p arguments) ↔
          OptionalLast (signature.written c.receiverSlots)
            ∨ ∃ p ∈ (signature.written c.receiverSlots).take
                (signature.minArguments c.receiverSlots),
              p.isOptional = false ∧ p.category = .unrecognized)) := by
  constructor
  · intro expected e c arguments hvalid hpart
    obtain ⟨depth, expected', haccepted⟩ := (isValid_iff_accepted.mp hvalid).isPart hpart rfl
    obtain ⟨-, signature, hmeans, -, -, hmin, -, harguments⟩ := accepted_call_iff.mp haccepted
    exact ⟨signature, hmeans, fun i p hp => harguments.filledAt_iff hp,
      fun hlast i p hp => harguments.filledAt_of_optionalLast hmin hlast hp⟩
  · intro c signature hmeans hcapable
    constructor
    · intro hfills
      -- otherwise the least call is valid, and it does not reach the required parameter
      refine Classical.byContradiction fun hcontra => ?_
      obtain ⟨hlast, hunknown⟩ := not_or.mp hcontra
      have hleast := accepted_least hmeans hcapable fun p hp hrequired hcategory =>
        hunknown ⟨p, hp, hrequired, hcategory⟩
      obtain ⟨i, p, hp, hout⟩ := Signature.exists_requiredAt_of_not_optionalLast hlast
      obtain ⟨a, ha, -⟩ := hfills _ _ (isValid_iff_accepted.mpr hleast) i p hp
      have hin := (List.getElem?_eq_some_iff.mp (List.getElem?_zip_eq_some.mp ha).2).1
      rw [List.length_map, List.length_take] at hin
      omega
    · rintro (hlast | ⟨p, hp, hrequired, hunknown⟩) expected arguments hvalid
      · intro i p hp
        obtain ⟨-, signature', hmeans', -, -, hmin, -, harguments⟩ :=
          accepted_call_iff.mp (isValid_iff_accepted.mp hvalid)
        obtain rfl := hmeans.unique hmeans'
        exact harguments.filledAt_of_optionalLast hmin hlast hp
      · exact absurd (isValid_iff_accepted.mp hvalid)
          (not_accepted_of_unrecognized hmeans hp hrequired hunknown)

/-- A function whose optional parameter comes first. -/
def Signature.pick : Signature :=
  ⟨"Pick", "number", [⟨"expression", "", "", true, false⟩, .ofTag "expression"], none, .global, ""⟩

/-- A registry with that function. -/
def Registry.withPick : Registry :=
  { Registry.empty "game" with free := ByKind.empty.insert .expression "Pick" .pick }

theorem Registry.withPick_eq :
    (Registry.empty "game").addFunction .global .expression .pick = .ok Registry.withPick := rfl

theorem means_pick (span : Span) :
    Means Registry.withPick ProjectScope.empty.toScope (.free "Pick" span) .pick :=
  .own (.global rfl rfl) rfl

theorem Signature.pick_requiredAt : Signature.pick.RequiredAt 0 1 (.ofTag "expression") :=
  ⟨Nat.zero_le 1, rfl, rfl, rfl⟩

/-- With a placeholder for the optional parameter the required one is filled, here in an operand. -/
theorem valid_fills_required_pick :
    let call : Expr := .call (.free "Pick" ⟨1, 9⟩) [.empty ⟨6, 6⟩, .number "1" ⟨7, 8⟩]
    let outcome := validate Registry.withPick ProjectScope.empty.toScope .number
      (.unary "-" call ⟨0, 9⟩)
    outcome.isValid = true
      ∧ Signature.pick.FilledAt 0 1 (.ofTag "expression") [.empty ⟨6, 6⟩, .number "1" ⟨7, 8⟩] := by
  intro call outcome
  have hvalid : outcome.isValid = true := rfl
  obtain ⟨signature, hmeans, hfilled, -⟩ :=
    (valid_fills_required Registry.withPick ProjectScope.empty.toScope).1 .number
      (.unary "-" call ⟨0, 9⟩) _ _ hvalid (.operand .self)
  obtain rfl := (means_pick ⟨1, 9⟩).unique hmeans
  exact ⟨hvalid, (hfilled 1 _ Signature.pick_requiredAt).mpr (by decide)⟩

/-- One argument is enough by count. It fills the optional parameter, and nothing is reported of the
required one behind it. -/
theorem pick_leaves_required :
    let c := Callee.free "Pick" ⟨0, 7⟩
    let arguments := [Expr.number "1" ⟨5, 6⟩]
    (Registry.empty "game").addFunction .global .expression .pick = .ok Registry.withPick
      ∧ (validate Registry.withPick ProjectScope.empty.toScope .number
          (.call c arguments)).isValid = true
      ∧ Means Registry.withPick ProjectScope.empty.toScope c .pick
      ∧ Signature.pick.RequiredAt c.receiverSlots 1 (.ofTag "expression")
      ∧ ¬ Signature.pick.FilledAt c.receiverSlots 1 (.ofTag "expression") arguments := by
  intro c arguments
  refine ⟨Registry.withPick_eq, rfl, means_pick ⟨0, 7⟩, Signature.pick_requiredAt, ?_⟩
  rintro ⟨a, ha, -⟩
  have hnone : (Signature.pick.written c.receiverSlots).zip arguments
      = [(⟨"expression", "", "", true, false⟩, .number "1" ⟨5, 6⟩)] := rfl
  rw [hnone] at ha
  exact absurd ha (by simp [Signature.argumentIndex, Signature.pick, Parameter.ofTag, c,
    Callee.receiverSlots, Callee.free])

end EventSheet
