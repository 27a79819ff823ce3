import EventSheet.Proofs.Check.Codes
import EventSheet.Proofs.Check.Refusal
import EventSheet.Proofs.Registry.Answers
import EventSheet.Proofs.Suggestion.Ranking

/-!
Suggestions for an unknown function.

The names to choose from are gathered table by table, while a function is looked up in one table
after the other. Both come to the same: a name is in view exactly if a call of that name would mean
a function (`Check.exists_means_iff`). So every name that is suggested can be written instead of the
unknown one, and the unknown one is never among them.
-/

set_option autoImplicit false

namespace EventSheet

/-- An owner, or what stands for all of its sort, has an expression of a name. -/
def Registry.IsVisible (r : Registry) (owner : Owner) (name : String) : Prop :=
  r.declared? .expression owner name ≠ none ∨ r.declared? .expression owner.base name ≠ none

namespace Registry

variable {r : Registry} {owner : Owner} {name : String}

theorem mem_namesInScope_iff_isVisible :
    name ∈ r.namesInScope .expression owner ↔ r.IsVisible owner name := by
  rw [mem_namesInScope_iff]
  simp only [mem_lookupOwners_iff, exists_eq_or_imp, exists_eq_left]
  rfl

end Registry

namespace Check

variable {s : Setting} {c : Callee} {owner : Owner}

/-- The names under which a call would mean a function are those in its receiver's view. -/
theorem exists_means_iff (hreceiver : Receiver s.scope c owner) {name : String} :
    (∃ signature, Means s.registry s.scope { c with functionName := name } signature)
      ↔ s.registry.IsVisible owner name := by
  obtain rfl := (receiver_iff s c).mp hreceiver
  exact (receiver_owner s { c with functionName := name }).exists_means_iff

/-- An unknown function is reported by the checks of a call. -/
theorem exists_call_of_unknownFunction {expected : ValueType} {depth : Nat} {e : Expr} :
    ∀ d ∈ diagnosticsAt s expected depth e, d.code = .unknownFunction →
      ∃ c arguments, Expr.IsPart (.call c arguments) e
        ∧ ∃ expectedHere, d ∈ (checkCall s expectedHere c arguments).diagnostics := by
  apply forall_diagnosticsAt
  · intro x _ hcode
    cases hcode
  · intro expectedHere c arguments hpart d hd _
    exact ⟨c, arguments, hpart, expectedHere, hd⟩
  · intro c arguments _ parameters _ p _ a _
    constructor
    · intro d hd hcode
      rw [placeholderFindings_code hd] at hcode
      cases hcode
    · intro d hd hcode
      rcases categoryFindings_code hd with ⟨h, -⟩ | ⟨h, -⟩ <;> rw [h] at hcode <;> cases hcode

/-- What is suggested are the first few names in the receiver's view. -/
theorem exists_suggestions_eq (hreceiver : Receiver s.scope c owner) :
    ∃ names, suggestions s c = names.map (Ranking.suggestion (s.likeness c.functionName))
      ∧ ∀ others, Ranking.AreFirst (s.likeness c.functionName) (s.registry.IsVisible owner) others
        ↔ others = names := by
  obtain rfl := (receiver_iff s c).mp hreceiver
  apply Ranking.exists_suggest_eq s.likeness c.functionName (NameMap.names_nodup _)
  intro name
  exact Registry.mem_namesInScope_iff_isVisible

/-- Any listing of the names in the receiver's view leads to the same suggestions. -/
theorem suggest_listing_eq (hreceiver : Receiver s.scope c owner) {listing : List String}
    (hlisting : ∀ name, name ∈ listing ↔ s.registry.IsVisible owner name) :
    Ranking.suggest s.likeness c.functionName (NameSet.ofNames listing).names
      = suggestions s c := by
  obtain rfl := (receiver_iff s c).mp hreceiver
  have hnames :
      (NameSet.ofNames listing).names = s.registry.namesInScope .expression (owner s c) := by
    apply NameMap.names_eq_of_mem_iff
    intro name
    rw [NameSet.mem_names_ofNames_iff, hlisting]
    exact Registry.mem_namesInScope_iff_isVisible.symm
  rw [suggestions, hnames]

end Check

/-- **Suggestions are the best names in view, and each can be written.** Where a tree reports an
unknown function, one of its calls does. The names it suggests are the first few, by score and then
by name, of those that the receiver of the call has in view and that are near enough, and no other
list of names is. They are distinct, and the written name is not among them. The order in which the
names in view are listed, and how often each is, plays no part. And with any of these names written
instead, the call means a function, and no longer reports that it means none. -/
theorem validateIn_suggestions (s : Setting) (expected : ValueType) (e : Expr) {d : Diagnostic}
    (hd : d ∈ (Check.validateIn s expected e).diagnostics) (hcode : d.code = .unknownFunction) :
    ∃ c arguments owner names,
      Expr.IsPart (.call c arguments) e
      ∧ (∃ expectedHere, d ∈ (Check.checkCall s expectedHere c arguments).diagnostics)
      ∧ Receiver s.scope c owner
      ∧ d = (Problem.unknownFunction c.functionName
          (names.map (Ranking.suggestion (s.likeness c.functionName)))).at c.span
      ∧ (∀ others,
          Ranking.AreFirst (s.likeness c.functionName) (s.registry.IsVisible owner) others
            ↔ others = names)
      ∧ names.Nodup
      ∧ c.functionName ∉ names
      ∧ (∀ listing : List String, (∀ name, name ∈ listing ↔ s.registry.IsVisible owner name) →
          Ranking.suggest s.likeness c.functionName (NameSet.ofNames listing).names
            = names.map (Ranking.suggestion (s.likeness c.functionName)))
      ∧ ∀ name ∈ names,
          (∃ signature, Means s.registry s.scope { c with functionName := name } signature)
          ∧ ∀ expectedHere as, ∀ d ∈
              (Check.checkCall s expectedHere { c with functionName := name } as).diagnostics,
            d.code ≠ .unknownFunction := by
  obtain ⟨c, arguments, hpart, expectedHere, hd⟩ := Check.exists_call_of_unknownFunction d hd hcode
  have hreceiver := Check.receiver_owner s c
  have hresolve := (Check.checkCall_code hd).2.mp hcode
  obtain ⟨names, hnames, hfirst⟩ := Check.exists_suggestions_eq hreceiver
  have hare := (hfirst names).mpr rfl
  refine ⟨c, arguments, _, names, hpart, ⟨expectedHere, hd⟩, hreceiver, ?_, hfirst,
    Ranking.nodup_of_ordered (fun name hname => (hare.near name hname).2) hare.ordered, ?_, ?_, ?_⟩
  · rw [Check.checkCall_of_unknown hresolve, hnames] at hd
    exact List.mem_singleton.mp hd
  · intro hwritten
    -- the written name would be in view, and the call would mean a function
    obtain ⟨signature, hmeans⟩ :=
      (Check.exists_means_iff hreceiver).mpr (hare.near _ hwritten).1
    exact Check.resolve_eq_none_iff.mp hresolve signature hmeans
  · intro listing hlisting
    rw [Check.suggest_listing_eq hreceiver hlisting, hnames]
  · intro name hname
    obtain ⟨signature, hmeans⟩ := (Check.exists_means_iff hreceiver).mpr (hare.near name hname).1
    refine ⟨⟨signature, hmeans⟩, fun expectedHere as d hd hcode => ?_⟩
    rw [(Check.checkCall_code hd).2, (Check.resolve_eq_some_iff _ _ _).mpr hmeans] at hcode
    cases hcode

/-- A platform with ways to round a number, and one function of another name. -/
def Registry.withRounding : Registry :=
  let rounding (name : String) : Signature :=
    ⟨name, "number", [.ofTag "expression"], none, .global, ""⟩
  let names := ["Rand", "RoundUp", "RoundTo", "Round", "Floor"]
  { Registry.empty "game" with
    free := names.foldl (fun table name => table.insert .expression name (rounding name)) .empty }

/-- Two of the names are equally alike to the written one, and are told apart by their order; a
fourth name is near enough as well, and one is not. -/
theorem validateIn_suggestions_rond :
    let s := Check.setting Registry.withRounding ProjectScope.empty.toScope
    let c := Callee.free "Rond" ⟨0, 6⟩
    let names := ["Round", "RoundTo", "RoundUp"]
    ∃ d ∈ (Check.validateIn s .number (.call c [])).diagnostics,
      d.suggestions.map Suggestion.replacement = names
        ∧ Ranking.AreFirst (Likeness.jaroWinkler "Rond") (s.registry.IsVisible .global) names
        ∧ ∀ name ∈ names,
            ∃ signature, Means s.registry s.scope { c with functionName := name } signature := by
  intro s c names
  let d := (Problem.unknownFunction c.functionName (Check.suggestions s c)).at c.span
  have hd : d ∈ (Check.validateIn s .number (.call c [])).diagnostics := List.mem_singleton.mpr rfl
  have hreplacement : d.suggestions.map Suggestion.replacement = names := by decide +kernel
  refine ⟨d, hd, hreplacement, ?_⟩
  obtain ⟨c', arguments, owner, found, hpart, -, hreceiver, hreport, hfirst, -, -, -, hmeans⟩ :=
    validateIn_suggestions s .number (.call c []) hd rfl
  cases hpart with
  | argument ha => exact absurd ha List.not_mem_nil
  | self =>
    have hglobal : owner = .global := (Check.receiver_iff s c).mp hreceiver
    have hfound : found = names := by
      rw [← hreplacement, hreport]
      change found = (found.map _).map Suggestion.replacement
      rw [List.map_map]
      exact (List.map_id found).symm
    rw [← hfound, ← hglobal]
    exact ⟨(hfirst found).mpr rfl, fun name hname => (hmeans name hname).1⟩

end EventSheet
