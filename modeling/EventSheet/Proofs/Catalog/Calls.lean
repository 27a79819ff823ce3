import EventSheet.Proofs.Catalog.Contents
import EventSheet.Proofs.Check.Acceptance

/-!
What calls mean in the registry of a catalog.

A look-up never leaves the sort of owners that is written in front of a call: neither the base type
nor a copy is of another sort. So the function of a call is declared for owners of that sort
(`Means.exists_declared`), and the receivers of the call fill as many parameters as the group takes
them to fill. In the other direction every declared function can be called, unless a copy stands in
its place (`exists_receiver`, `means_declared`).
-/

set_option autoImplicit false

namespace EventSheet

/-! ## Receivers -/

/-- Every owner can receive a call: declare an object of its type, or an object with a behavior of
its type. -/
theorem exists_receiver (o : Owner) (functionName : String) :
    ∃ (scope : ObjectScope) (callee : Callee), callee.functionName = functionName
      ∧ Receiver scope callee o := by
  let objects := ObjectContainer.empty.withObject "o"
  cases o with
  | global => exact ⟨(objects "").toScope, .free functionName .origin, rfl, .global rfl rfl⟩
  | object type =>
    exact ⟨(objects type).toScope, .onObject "o" functionName .origin .origin, rfl,
      .object rfl (show "o" ≠ "" by decide)⟩
  | behavior type =>
    exact ⟨((objects "").withBehavior "o" "b" type).toScope,
      .onBehavior "o" "b" functionName .origin .origin, rfl, .behavior (show "b" ≠ "" by decide)⟩

/-! ## Functions of calls -/

section Built

variable {c : Catalog} {r : Registry} {warnings : List RegistryWarning} {scope : ObjectScope}
  {callee : Callee} {signature : Signature}

/-- The function of a call is found at a key of the call's receivers' sort. -/
theorem Means.exists_find? (h : Means r scope callee signature) :
    ∃ owner : Owner, owner.sort.receiverSlots = callee.receiverSlots
      ∧ r.find? ⟨owner, .expression, callee.functionName⟩ = some signature := by
  cases h with
  | own hreceiver hown => exact ⟨_, hreceiver.receiverSlots, hown⟩
  | @base owner hreceiver _ hbase =>
    exact ⟨owner.base, by rw [Owner.sort_base, hreceiver.receiverSlots], hbase⟩

/-- The function of a call is an expression that a group declares, but for its name. The owner of
the group takes as many receivers as are written. -/
theorem Means.exists_declared (hbuilt : Registry.ofCatalog c = .ok (r, warnings))
    (h : Means r scope callee signature) :
    ∃ g ∈ c.groups, g.owner.sort.receiverSlots = callee.receiverSlots
      ∧ ∃ name f, (name, f) ∈ (g.functions.tables.get .expression).entries
        ∧ signature = { g.signature name f with name := callee.functionName } := by
  obtain ⟨owner, hslots, hfind⟩ := h.exists_find?
  -- a copy gives a function another name, but neither another owner nor other parameters
  obtain ⟨name, declared, hmem, rfl⟩ := Registry.provided_of_ofCatalog hbuilt hfind
  obtain ⟨g, hg, howner, ⟨short, f⟩, he, -, rfl⟩ := Catalog.mem_functionBindings_iff.mp hmem
  exact ⟨g, hg, by rw [howner, hslots], short, f, he, rfl⟩

/-- A declared expression that no copy replaces is what a call of it means. -/
theorem means_declared (hbuilt : Registry.ofCatalog c = .ok (r, warnings)) {g : DeclaredGroup}
    (hg : g ∈ c.groups) {name : String} {f : FunctionDeclaration}
    (hmem : (name, f) ∈ (g.functions.tables.get .expression).entries)
    (hkept : ∀ d ∈ c.copies, d.target ≠ ⟨g.owner, .expression, qualifiedName g.qualifier name⟩)
    (hreceiver : Receiver scope callee g.owner)
    (hname : callee.functionName = qualifiedName g.qualifier name) :
    Means r scope callee (g.signature name f) := by
  have hbinding : (⟨g.owner, .expression, qualifiedName g.qualifier name⟩, g.signature name f)
      ∈ c.functionBindings :=
    Catalog.mem_functionBindings_iff.mpr ⟨g, hg, rfl, (name, f), hmem, rfl, rfl⟩
  refine .own hreceiver ?_
  rw [hname]
  exact Registry.find?_of_ofCatalog hbuilt hbinding hkept

end Built

end EventSheet
