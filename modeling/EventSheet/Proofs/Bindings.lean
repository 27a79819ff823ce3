import Mathlib.Data.List.Nodup

/-!
Chains of steps that may fail.

Registering is such a chain. Each step binds some keys to values and fails if one of them is bound
already. `Adds` says exactly when a step succeeds and what can be looked up after it. A chain of
such steps is one again, with the bindings of all of them in order (`Adds.foldlM`): so it succeeds
exactly if no key is bound before and none is bound twice, and afterwards all of them are bound. If
it fails it does so at the first key that is (`Blames.foldlM`).
-/

set_option autoImplicit false

namespace EventSheet

variable {σ α κ ν ε : Type}

/-! ## Chains in general -/

/-- Two steps succeed exactly if the first one does and the second one does on its result. -/
theorem bind_eq_ok_iff {β : Type} {x : Except ε α} {f : α → Except ε β} {b : β} :
    x >>= f = .ok b ↔ ∃ a, x = .ok a ∧ f a = .ok b := by
  constructor
  · intro h
    cases x with
    | error e => cases h
    | ok a => exact ⟨a, rfl, h⟩
  · rintro ⟨a, rfl, h⟩
    exact h

/-- Two steps fail exactly if the first one does, or the second one on the first one's result. -/
theorem bind_eq_error_iff {β : Type} {x : Except ε α} {f : α → Except ε β} {e : ε} :
    x >>= f = .error e ↔ x = .error e ∨ ∃ a, x = .ok a ∧ f a = .error e := by
  constructor
  · intro h
    cases x with
    | error e' => exact Or.inl (congrArg Except.error (Except.error.inj h))
    | ok a => exact Or.inr ⟨a, rfl, h⟩
  · rintro (rfl | ⟨a, rfl, h⟩)
    · rfl
    · exact h

/-- Another wording of its errors does not make a step succeed or fail. -/
theorem mapError_eq_ok_iff {ε' : Type} {x : Except ε α} {f : ε → ε'} {a : α} :
    x.mapError f = .ok a ↔ x = .ok a := by
  cases x with
  | error e => exact iff_of_false (fun h => by cases h) (fun h => by cases h)
  | ok b => exact ⟨fun h => congrArg _ (Except.ok.inj h), fun h => congrArg _ (Except.ok.inj h)⟩

/-- What every step keeps is kept by the chain. -/
theorem foldlM_keeps {P : σ → Prop} {step : σ → α → Except ε σ} {l : List α}
    (hstep : ∀ a ∈ l, ∀ s s', P s → step s a = .ok s' → P s') {s s' : σ} (hs : P s)
    (h : l.foldlM step s = .ok s') : P s' := by
  -- on the chain: the state between two steps is one that the invariant holds in
  induction l generalizing s with
  | nil =>
    rw [List.foldlM_nil] at h
    exact Except.ok.inj h ▸ hs
  | cons a l ih =>
    rw [List.foldlM_cons] at h
    obtain ⟨middle, hfirst, hrest⟩ := bind_eq_ok_iff.mp h
    exact ih (fun b hb => hstep b (List.mem_cons_of_mem a hb))
      (hstep a List.mem_cons_self s middle hs hfirst) hrest

/-- What a step makes true if it was not so before, and leaves alone otherwise, is made true by a
chain exactly if one of its steps does. -/
theorem foldlM_iff {P : σ → Prop} {C : α → Prop} {step : σ → α → Except ε σ} {l : List α}
    (hstep : ∀ a ∈ l, ∀ s s', step s a = .ok s' → (P s' ↔ P s ∨ C a)) {s s' : σ}
    (h : l.foldlM step s = .ok s') : P s' ↔ P s ∨ ∃ a ∈ l, C a := by
  -- on the chain: what is true behind its first step was true, or that step made it so
  induction l generalizing s with
  | nil =>
    rw [List.foldlM_nil] at h
    obtain rfl := Except.ok.inj h
    exact ⟨Or.inl, fun h => h.elim id fun ⟨a, ha, _⟩ => absurd ha List.not_mem_nil⟩
  | cons a l ih =>
    rw [List.foldlM_cons] at h
    obtain ⟨middle, hfirst, hrest⟩ := bind_eq_ok_iff.mp h
    rw [ih (fun b hb => hstep b (List.mem_cons_of_mem a hb)) hrest,
      hstep a List.mem_cons_self s middle hfirst, or_assoc]
    simp only [List.mem_cons, exists_eq_or_imp]

/-- What a step makes true or leaves alone is true after steps exactly if it was so before, or one
of them makes it true where it stands. -/
theorem foldl_iff {P : σ → Prop} {C : σ → α → Prop} {step : σ → α → σ}
    (hstep : ∀ s a, P (step s a) ↔ P s ∨ C s a) (s : σ) (l : List α) :
    P (l.foldl step s) ↔
      P s ∨ ∃ before a after, l = before ++ a :: after ∧ C (before.foldl step s) a := by
  induction l generalizing s with
  | nil => simp
  | cons a l ih =>
    rw [List.foldl_cons, ih, hstep, or_assoc]
    refine or_congr_right ⟨?_, ?_⟩
    · -- the first step makes it true, or a later one behind it
      rintro (h | ⟨before, b, after, rfl, h⟩)
      · exact ⟨[], a, l, rfl, h⟩
      · exact ⟨a :: before, b, after, rfl, h⟩
    · rintro ⟨before, b, after, hsplit, h⟩
      -- nothing stands before the step, or the first one does
      cases before with
      | nil =>
        obtain ⟨rfl, rfl⟩ := List.cons.inj hsplit
        exact Or.inl h
      | cons _ before =>
        obtain ⟨rfl, rfl⟩ := List.cons.inj hsplit
        exact Or.inr ⟨before, b, after, rfl, h⟩

/-! ## Steps that add bindings -/

/-- A step adds bindings to what can be looked up in a state, where an invariant holds. It succeeds
exactly if the bindings are admissible, no key occurs twice among them and none is bound before.
Then what is bound is what was bound before and the new bindings. -/
structure Adds (inv : σ → Prop) (look : σ → κ → Option ν) (step : σ → Except ε σ)
    (bindings : List (κ × ν)) (admissible : Prop) : Prop where
  succeeds_iff : ∀ s, inv s → ((∃ s', step s = .ok s') ↔
    admissible ∧ (bindings.map Prod.fst).Nodup ∧ ∀ k ∈ bindings.map Prod.fst, look s k = none)
  look_iff : ∀ s s', inv s → step s = .ok s' → ∀ k v,
    look s' k = some v ↔ look s k = some v ∨ (k, v) ∈ bindings
  keeps : ∀ s s', inv s → step s = .ok s' → inv s'

namespace Adds

variable {inv : σ → Prop} {look : σ → κ → Option ν} {f g : σ → Except ε σ} {l m : List (κ × ν)}
  {p q : Prop}

/-- A key is unbound after a step exactly if it was so before and the step does not bind it. -/
theorem look_eq_none_iff (h : Adds inv look f l p) {s s' : σ} (hs : inv s) (hstep : f s = .ok s')
    (k : κ) : look s' k = none ↔ look s k = none ∧ k ∉ l.map Prod.fst := by
  constructor
  · intro hnone
    constructor
    · refine Option.eq_none_iff_forall_ne_some.mpr fun v hv => ?_
      have hafter := (h.look_iff s s' hs hstep k v).mpr (Or.inl hv)
      rw [hnone] at hafter
      exact Option.some_ne_none v hafter.symm
    · intro hk
      obtain ⟨⟨k', v⟩, hmem, rfl⟩ := List.mem_map.mp hk
      have hafter := (h.look_iff s s' hs hstep k' v).mpr (Or.inr hmem)
      rw [hnone] at hafter
      exact Option.some_ne_none v hafter.symm
  · rintro ⟨hnone, hk⟩
    refine Option.eq_none_iff_forall_ne_some.mpr fun v hv => ?_
    rcases (h.look_iff s s' hs hstep k v).mp hv with hbefore | hmem
    · rw [hnone] at hbefore
      exact Option.some_ne_none v hbefore.symm
    · exact hk (List.mem_map_of_mem hmem)

/-- A step that cannot fail and changes no binding. -/
theorem pure {change : σ → σ} (hlook : ∀ s k, look (change s) k = look s k)
    (hinv : ∀ s, inv s → inv (change s)) :
    Adds inv look (fun s => (Except.ok (change s) : Except ε σ)) [] True where
  succeeds_iff s _ :=
    ⟨fun _ => ⟨trivial, List.nodup_nil, fun _ hk => absurd hk List.not_mem_nil⟩,
      fun _ => ⟨change s, rfl⟩⟩
  look_iff s s' _ hstep k v := by
    rw [← Except.ok.inj hstep, hlook]
    exact ⟨Or.inl, fun h => h.elim id fun hmem => absurd hmem List.not_mem_nil⟩
  keeps s s' hs hstep := Except.ok.inj hstep ▸ hinv s hs

/-- One step after another. -/
theorem bind (hf : Adds inv look f l p) (hg : Adds inv look g m q) :
    Adds inv look (fun s => f s >>= g) (l ++ m) (p ∧ q) where
  succeeds_iff s hs := by
    rw [List.map_append, List.nodup_append]
    constructor
    · rintro ⟨s', h⟩
      obtain ⟨middle, hfirst, hsecond⟩ := bind_eq_ok_iff.mp h
      obtain ⟨hp, hl, hlfree⟩ := (hf.succeeds_iff s hs).mp ⟨middle, hfirst⟩
      have hmiddle := hf.keeps s middle hs hfirst
      obtain ⟨hq, hm, hmfree⟩ := (hg.succeeds_iff middle hmiddle).mp ⟨s', hsecond⟩
      -- a key of the second step is free behind the first: so it was free, and is not the first's
      have hboth : ∀ k ∈ m.map Prod.fst, look s k = none ∧ k ∉ l.map Prod.fst := fun k hk =>
        (hf.look_eq_none_iff hs hfirst k).mp (hmfree k hk)
      refine ⟨⟨hp, hq⟩, ⟨hl, hm, ?_⟩, ?_⟩
      · rintro a ha b hb rfl
        exact (hboth a hb).2 ha
      · intro k hk
        rcases List.mem_append.mp hk with hk | hk
        · exact hlfree k hk
        · exact (hboth k hk).1
    · rintro ⟨⟨hp, hq⟩, ⟨hl, hm, hdisjoint⟩, hfree⟩
      obtain ⟨middle, hfirst⟩ := (hf.succeeds_iff s hs).mpr
        ⟨hp, hl, fun k hk => hfree k (List.mem_append_left _ hk)⟩
      have hmiddle := hf.keeps s middle hs hfirst
      obtain ⟨s', hsecond⟩ := (hg.succeeds_iff middle hmiddle).mpr
        ⟨hq, hm, fun k hk => (hf.look_eq_none_iff hs hfirst k).mpr
          ⟨hfree k (List.mem_append_right _ hk), fun hk' => hdisjoint k hk' k hk rfl⟩⟩
      exact ⟨s', bind_eq_ok_iff.mpr ⟨middle, hfirst, hsecond⟩⟩
  look_iff s s' hs h k v := by
    obtain ⟨middle, hfirst, hsecond⟩ := bind_eq_ok_iff.mp h
    rw [hg.look_iff middle s' (hf.keeps s middle hs hfirst) hsecond, hf.look_iff s middle hs hfirst,
      or_assoc, List.mem_append]
  keeps s s' hs h := by
    obtain ⟨middle, hfirst, hsecond⟩ := bind_eq_ok_iff.mp h
    exact hg.keeps middle s' (hf.keeps s middle hs hfirst) hsecond

/-- Another way to say what is admissible. -/
theorem of_iff (h : Adds inv look f l p) (hpq : p ↔ q) : Adds inv look f l q :=
  propext hpq ▸ h

/-- If everything is admissible, no key is refused. -/
theorem unrefused (h : Adds inv look f l True) : Adds inv look f l (∀ b ∈ l, ¬ False) :=
  h.of_iff ⟨fun _ _ _ hrefused => hrefused, fun _ => trivial⟩

/-- A chain of steps. -/
theorem foldlM {step : σ → α → Except ε σ} {bindings : α → List (κ × ν)} {admissible : α → Prop}
    {as : List α}
    (h : ∀ a ∈ as, Adds inv look (fun s => step s a) (bindings a) (admissible a)) :
    Adds inv look (fun s => as.foldlM step s) (as.flatMap bindings) (∀ a ∈ as, admissible a) := by
  -- on the chain: one step, then the chain of the others
  induction as with
  | nil =>
    have hnil : Adds inv look (fun s => (Except.ok s : Except ε σ)) ([] : List (κ × ν)) True :=
      Adds.pure (fun _ _ => rfl) (fun _ hs => hs)
    exact hnil.of_iff ⟨fun _ a ha => absurd ha List.not_mem_nil, fun _ => trivial⟩
  | cons a as ih =>
    have hrest := ih fun b hb => h b (List.mem_cons_of_mem a hb)
    exact ((h a List.mem_cons_self).bind hrest).of_iff List.forall_mem_cons.symm

end Adds

/-! ## Steps that fail -/

/-- A step fails at the first key that cannot be bound, because it is refused, or bound before the
step, or bound by the step itself already. The error tells the key. -/
def Blames (inv : σ → Prop) (look : σ → κ → Option ν) (step : σ → Except ε σ) (keys : List κ)
    (refused : κ → Prop) (blame : κ → ε) : Prop :=
  ∀ s e, inv s → step s = .error e → ∃ before k after, keys = before ++ k :: after
    ∧ before.Nodup ∧ (∀ k' ∈ before, ¬ refused k' ∧ look s k' = none)
    ∧ (refused k ∨ look s k ≠ none ∨ k ∈ before) ∧ e = blame k

namespace Blames

variable {inv : σ → Prop} {look : σ → κ → Option ν} {f g : σ → Except ε σ} {l m : List (κ × ν)}
  {refused : κ → Prop} {blame : κ → ε}

/-- A step that binds one key. -/
theorem single {k : κ}
    (h : ∀ s e, inv s → f s = .error e → (refused k ∨ look s k ≠ none) ∧ e = blame k) :
    Blames inv look f [k] refused blame := by
  intro s e hs hstep
  obtain ⟨hfault, hblame⟩ := h s e hs hstep
  exact ⟨[], k, [], rfl, List.nodup_nil, fun _ hk' => absurd hk' List.not_mem_nil,
    hfault.imp_right Or.inl, hblame⟩

/-- A step that cannot fail. -/
theorem pure (change : σ → σ) (keys : List κ) :
    Blames inv look (fun s => (Except.ok (change s) : Except ε σ)) keys refused blame :=
  fun _ _ _ h => nomatch h

/-- One step after another. -/
theorem bind (hf : Adds inv look f l (∀ b ∈ l, ¬ refused b.1))
    (hfb : Blames inv look f (l.map Prod.fst) refused blame)
    (hgb : Blames inv look g (m.map Prod.fst) refused blame) :
    Blames inv look (fun s => f s >>= g) ((l ++ m).map Prod.fst) refused blame := by
  intro s e hs h
  dsimp only at h
  rw [List.map_append]
  rcases hfirst : f s with e₁ | middle
  · -- the first step fails, and the chain with it
    rw [hfirst] at h
    obtain rfl : e₁ = e := Except.error.inj h
    obtain ⟨before, k, after, hsplit, hnodup, hfine, hfault, hblame⟩ := hfb s e₁ hs hfirst
    refine ⟨before, k, after ++ m.map Prod.fst, ?_, hnodup, hfine, hfault, hblame⟩
    rw [hsplit, List.append_assoc, List.cons_append]
  · -- the second step fails behind the first, whose keys were all fine
    rw [hfirst] at h
    have hmiddle : inv middle := hf.keeps s middle hs hfirst
    obtain ⟨before, k, after, hsplit, hnodup, hfine, hfault, hblame⟩ := hgb middle e hmiddle h
    obtain ⟨hadmitted, hl, hlfree⟩ := (hf.succeeds_iff s hs).mp ⟨middle, hfirst⟩
    have hlfine : ∀ k' ∈ l.map Prod.fst, ¬ refused k' := by
      rw [List.forall_mem_map]
      exact hadmitted
    have hnew : ∀ k' ∈ before, look s k' = none ∧ k' ∉ l.map Prod.fst := fun k' hk' =>
      (hf.look_eq_none_iff hs hfirst k').mp (hfine k' hk').2
    refine ⟨l.map Prod.fst ++ before, k, after, ?_, ?_, ?_, ?_, hblame⟩
    · rw [hsplit, List.append_assoc]
    · rw [List.nodup_append]
      refine ⟨hl, hnodup, ?_⟩
      rintro a ha b hb rfl
      exact (hnew a hb).2 ha
    · intro k' hk'
      rcases List.mem_append.mp hk' with hk' | hk'
      · exact ⟨hlfine k' hk', hlfree k' hk'⟩
      · exact ⟨(hfine k' hk').1, (hnew k' hk').1⟩
    · rcases hfault with hrefused | hbound | hmem
      · exact Or.inl hrefused
      · -- what is bound behind the first step was bound before, or the first step binds it
        rcases not_and_or.mp (mt (hf.look_eq_none_iff hs hfirst k).mpr hbound) with hbefore | hmem
        · exact Or.inr (Or.inl hbefore)
        · exact Or.inr (Or.inr (List.mem_append_left _ (not_not.mp hmem)))
      · exact Or.inr (Or.inr (List.mem_append_right _ hmem))

/-- A chain of steps. -/
theorem foldlM {step : σ → α → Except ε σ} {bindings : α → List (κ × ν)} {as : List α}
    (hb : ∀ a ∈ as, Blames inv look (fun s => step s a) ((bindings a).map Prod.fst) refused
      blame)
    (h : ∀ a ∈ as,
      Adds inv look (fun s => step s a) (bindings a) (∀ b ∈ bindings a, ¬ refused b.1)) :
    Blames inv look (fun s => as.foldlM step s) ((as.flatMap bindings).map Prod.fst) refused
      blame := by
  -- on the chain: its first step fails, or one of the others behind it
  induction as with
  | nil => exact Blames.pure id []
  | cons a as ih =>
    obtain ⟨hfirst, hrest⟩ := List.forall_mem_cons.mp h
    obtain ⟨hfirstBlames, hrestBlames⟩ := List.forall_mem_cons.mp hb
    exact Blames.bind hfirst hfirstBlames (ih hrestBlames hrest)

end Blames

end EventSheet
