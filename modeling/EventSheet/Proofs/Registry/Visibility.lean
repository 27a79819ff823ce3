import EventSheet.Proofs.Registry.Locality

/-!
What is in scope for a call.

The names in scope are gathered over the tables that a look-up goes through, and a look-up asks one
table after the other. Both depend on the same keys: that of the owner itself and that of what stands
for all of its sort. So a name is listed exactly if it is found, and tables of another sort of owners
have no part in either (`OneSort`).
-/

set_option autoImplicit false

namespace EventSheet

/-- The sort of the owner that receivers select: a behavior comes before an object. -/
theorem Owner.sort_ofReceivers (object behavior : Option String) :
    (Owner.ofReceivers object behavior).sort
      = if behavior.isSome then .behavior else if object.isSome then .object else .global := by
  cases behavior <;> cases object <;> rfl

/-- A look-up stays among owners of one sort. -/
theorem Owner.sort_of_mem_lookupOwners {o owner : Owner} (h : o ∈ Registry.lookupOwners owner) :
    o.sort = owner.sort := by
  rcases Registry.mem_lookupOwners_iff.mp h with rfl | rfl
  · rfl
  · exact owner.sort_base

namespace Registry

variable {r r' : Registry} {kind : Kind} {owner : Owner} {name : String} {signature : Signature}

/-- A look-up finds something exactly if one of the keys that it asks for has a function. -/
theorem exists_lookup_iff :
    (∃ signature, r.lookup kind owner name = some signature)
      ↔ ∃ o ∈ lookupOwners owner, r.find? ⟨o, kind, name⟩ ≠ none := by
  rw [← Option.isSome_iff_exists, lookup_eq, Option.isSome_or, Bool.or_eq_true,
    Option.isSome_iff_ne_none, Option.isSome_iff_ne_none]
  simp only [mem_lookupOwners_iff, exists_eq_or_imp, exists_eq_left]
  rfl

/-- What a look-up finds is registered, for an owner of the same sort. -/
theorem exists_find?_of_lookup (h : r.lookup kind owner name = some signature) :
    ∃ o, o.sort = owner.sort ∧ r.find? ⟨o, kind, name⟩ = some signature := by
  rcases (r.lookup_eq_some_iff kind owner name signature).mp h with hown | ⟨-, hbase⟩
  · exact ⟨owner, rfl, hown⟩
  · exact ⟨owner.base, owner.sort_base, hbase⟩

/-- Two registries have the same tables for all owners of a sort. -/
def OneSort (sort : OwnerSort) (r r' : Registry) : Prop :=
  ∀ o : Owner, o.sort = sort → r.functions? o = r'.functions? o

/-- Only tables of the sort of an owner have a part in what is in its scope. -/
theorem find?_eq_of_oneSort (h : OneSort owner.sort r r') {o : Owner} (ho : o ∈ lookupOwners owner) :
    r.find? ⟨o, kind, name⟩ = r'.find? ⟨o, kind, name⟩ := by
  rw [find?, find?, declared?, declared?, h o (Owner.sort_of_mem_lookupOwners ho)]

/-- **A name is listed exactly if it is found.** Whatever has been registered, and whether or not the
owner that receivers select has: what is found is the owner's own function of that name, or else the
one of what stands for all of its sort. It bears the name it is found by, and tables of another sort
of owners have no part in the answer. The list is ascending. -/
theorem run_inScope (platform : String) (registrations : List Registration) (kind : Kind)
    (object behavior : Option String) :
    let r := run platform registrations
    let owner := Owner.ofReceivers object behavior
    (∀ name, name ∈ r.namesInScope kind owner
        ↔ ∃ signature, r.lookup kind owner name = some signature)
      ∧ (∀ name signature, r.lookup kind owner name = some signature
        ↔ r.find? ⟨owner, kind, name⟩ = some signature
          ∨ r.find? ⟨owner, kind, name⟩ = none
            ∧ r.find? ⟨owner.base, kind, name⟩ = some signature)
      ∧ (∀ name signature, r.lookup kind owner name = some signature →
        signature.name = name ∧ ∃ o, o.sort = owner.sort ∧ signature ∈ r.functionsIn kind o)
      ∧ (∀ r', OneSort owner.sort r r' → r.namesInScope kind owner = r'.namesInScope kind owner
        ∧ ∀ name, r.lookup kind owner name = r'.lookup kind owner name)
      ∧ owner.sort = (if behavior.isSome then .behavior else if object.isSome then .object
        else .global)
      ∧ (r.namesInScope kind owner).Pairwise (· < ·) := by
  intro r owner
  have h : r.WellFormed := (reachable_run platform registrations).wellFormed
  refine ⟨fun name => ?_, r.lookup_eq_some_iff kind owner, fun name signature hlookup => ?_,
    fun r' hsame => ⟨?_, fun name => ?_⟩, Owner.sort_ofReceivers object behavior,
    NameMap.names_ascending _⟩
  · rw [exists_lookup_iff, mem_namesInScope_iff]
  · -- the owner that lists it may be the base, so it is given here
    obtain ⟨o, hsort, hfind⟩ := exists_find?_of_lookup hlookup
    have hname : signature.name = name := h.functionNames _ _ hfind
    refine ⟨hname, o, hsort, ?_⟩
    rw [mem_functionsIn_iff h, hname]
    exact hfind
  · apply namesInScope_congr
    intro o ho name
    rw [find?_eq_of_oneSort hsame ho]
  · apply lookup_congr
    intro o ho
    exact find?_eq_of_oneSort hsame ho

/-- A hero has the score of every object, with one of its own in front of it. What behaviors and free
calls have of that name is not its concern. -/
theorem run_inScope_hero :
    let score (tag : String) : Signature := ⟨"Score", tag, [], none, .object, ""⟩
    let r := run "game" [.object "Hero" "" [] none, .function (.object "") .expression (score "any"),
      .function (.object "Hero") .expression (score "number"),
      .function (.behavior "") .expression (score "string")]
    let others : Registry := { r with free := .empty, behaviors := .empty }
    r.find? ⟨.object "Hero", .expression, "Score"⟩ = some (score "number")
      ∧ r.lookup .expression (.object "Hero") "Score" = some (score "number")
      ∧ "Score" ∈ r.namesInScope .expression (.object "Hero")
      ∧ (∃ o : Owner, o.sort = .object ∧ score "number" ∈ r.functionsIn .expression o)
      ∧ OneSort .object r others
      ∧ r.lookup .expression (.object "Hero") "Score"
        = others.lookup .expression (.object "Hero") "Score" := by
  intro score r others
  obtain ⟨hlisted, hfound, hentry, hothers, -⟩ := run_inScope "game"
    [.object "Hero" "" [] none, .function (.object "") .expression (score "any"),
      .function (.object "Hero") .expression (score "number"),
      .function (.behavior "") .expression (score "string")] .expression (some "Hero") none
  have hown : r.find? ⟨.object "Hero", .expression, "Score"⟩ = some (score "number") := rfl
  have hlookup : r.lookup .expression (.object "Hero") "Score" = some (score "number") :=
    (hfound "Score" (score "number")).mpr (.inl hown)
  have hsame : OneSort .object r others := by
    intro o ho
    cases o with
    | object type => rfl
    | global | behavior => nomatch ho
  exact ⟨hown, hlookup, (hlisted "Score").mpr ⟨_, hlookup⟩, (hentry _ _ hlookup).2, hsame,
    (hothers others hsame).2 "Score"⟩

end Registry

end EventSheet
