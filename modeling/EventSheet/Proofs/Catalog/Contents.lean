import EventSheet.Proofs.Catalog.Building

/-!
Which functions the registry of a catalog has.

Behind the rounds of types and functions it has the declared functions and no others. The copies
come last, one after another: each may put a function in the place of another one, or be the source
of a later copy. What stays through all of them is that every function is a declared one of the same
owner and kind, but for its name (`Registry.provided_of_ofCatalog`). And a declared function stays
as it is unless it is the target of a copy (`Registry.find?_of_ofCatalog`).
-/

set_option autoImplicit false

namespace EventSheet

/-! ## Copies -/

/-- A copy of a function, both names with their qualifier. -/
structure Copy where
  /-- Where the copy is put. -/
  target : FunctionKey
  /-- The name of the function that is copied. It has the owner and the kind of the copy. -/
  source : String
deriving DecidableEq

/-- Where the function is that is copied. -/
def Copy.sourceKey (d : Copy) : FunctionKey := ⟨d.target.owner, d.target.kind, d.source⟩

/-- The copies that a group lists. -/
def DeclaredGroup.copies (g : DeclaredGroup) : List Copy :=
  g.functions.duplicates.map fun d =>
    ⟨⟨g.owner, d.kind, qualifiedName g.qualifier d.name⟩, qualifiedName g.qualifier d.source⟩

/-- The copies that a catalog lists, in the order in which they are made. -/
def Catalog.copies (c : Catalog) : List Copy := c.groups.flatMap DeclaredGroup.copies

/-- The copies that a catalog lists, said without its groups. -/
theorem Catalog.mem_copies_iff {c : Catalog} {d : Copy} :
    d ∈ c.copies ↔
      ∃ x ∈ c.extensions.values, ∃ functions, x.HasFunctions d.target.owner functions
        ∧ ∃ listed ∈ functions.duplicates, listed.kind = d.target.kind
          ∧ qualifiedName x.qualifier listed.name = d.target.name
          ∧ qualifiedName x.qualifier listed.source = d.source := by
  rw [copies, List.mem_flatMap]
  constructor
  · rintro ⟨g, hg, hd⟩
    obtain ⟨listed, hlisted, rfl⟩ := List.mem_map.mp hd
    obtain ⟨x, hx, hqualifier, hfunctions⟩ := exists_group_iff.mp ⟨g, hg, rfl, rfl, rfl⟩
    exact ⟨x, hx, _, hfunctions, listed, hlisted, rfl, by rw [hqualifier], by rw [hqualifier]⟩
  · rintro ⟨x, hx, functions, hfunctions, listed, hlisted, hkind, hname, hsource⟩
    obtain ⟨g, hg, howner, hqualifier, rfl⟩ := exists_group_iff.mpr ⟨x, hx, rfl, hfunctions⟩
    refine ⟨g, hg, List.mem_map.mpr ⟨listed, hlisted, ?_⟩⟩
    rw [howner, hqualifier, hkind, hname, hsource]

namespace Registry

/-- Makes a copy. -/
def copy (r : Registry) (d : Copy) : Registry :=
  (r.duplicateEntry d.target.owner d.target.kind d.target.name d.source).1

/-- Makes a copy, with the warnings so far. -/
def addCopy (acc : Registry × List RegistryWarning) (d : Copy) : Registry × List RegistryWarning :=
  (acc.1.copy d,
    acc.2 ++ (acc.1.duplicateEntry d.target.owner d.target.kind d.target.name d.source).2)

theorem addDuplicates_eq (acc : Registry × List RegistryWarning) (g : DeclaredGroup) :
    addDuplicates acc g = g.copies.foldl addCopy acc := by
  rw [addDuplicates, DeclaredGroup.copies, List.foldl_map]
  rfl

/-- The copies of all groups are made one by one. -/
theorem foldl_addDuplicates (acc : Registry × List RegistryWarning) (groups : List DeclaredGroup) :
    groups.foldl addDuplicates acc = (groups.flatMap DeclaredGroup.copies).foldl addCopy acc := by
  induction groups generalizing acc with
  | nil => rfl
  | cons g groups ih =>
    rw [List.foldl_cons, ih, addDuplicates_eq, List.flatMap_cons, List.foldl_append]

/-- The warnings play no part in what is copied. -/
theorem foldl_addCopy_fst (acc : Registry × List RegistryWarning) (copies : List Copy) :
    (copies.foldl addCopy acc).1 = copies.foldl copy acc.1 := by
  induction copies generalizing acc with
  | nil => rfl
  | cons d copies ih =>
    rw [List.foldl_cons, List.foldl_cons, ih]
    rfl

/-- What is found after a copy. -/
theorem find?_copy (r : Registry) (d : Copy) (key : FunctionKey) :
    (r.copy d).find? key
      = if d.target = key then
          ((r.find? d.sourceKey).map fun s => { s with name := d.target.name }).or (r.find? key)
        else r.find? key :=
  find?_duplicateEntry r d.target.owner d.target.kind d.target.name d.source key

/-- Copies change nothing at a key that none of them is put at. -/
theorem find?_foldl_copy {key : FunctionKey} {copies : List Copy}
    (h : ∀ d ∈ copies, d.target ≠ key) (r : Registry) :
    (copies.foldl copy r).find? key = r.find? key := by
  induction copies generalizing r with
  | nil => rfl
  | cons d copies ih =>
    obtain ⟨hd, hrest⟩ := List.forall_mem_cons.mp h
    rw [List.foldl_cons, ih hrest, find?_copy, if_neg hd]

end Registry

/-! ## The functions of a built registry -/

/-- A signature is that of a declared function of the owner and the kind of a key, under the name of
the key. -/
def Catalog.Provides (c : Catalog) (key : FunctionKey) (s : Signature) : Prop :=
  ∃ name declared, (⟨key.owner, key.kind, name⟩, declared) ∈ c.functionBindings
    ∧ s = { declared with name := key.name }

/-- A declared signature bears the name of its key. -/
theorem Catalog.name_of_mem_functionBindings {c : Catalog} {key : FunctionKey} {s : Signature}
    (h : (key, s) ∈ c.functionBindings) : s.name = key.name := by
  obtain ⟨g, -, -, e, -, hname, rfl⟩ := Catalog.mem_functionBindings_iff.mp h
  exact hname

namespace Registry

variable {c : Catalog} {r : Registry} {warnings : List RegistryWarning}

/-- The rounds of building, the last one copy by copy. -/
theorem exists_rounds (h : ofCatalog c = .ok (r, warnings)) :
    ∃ typed filled, c.extensions.values.foldlM addTypes (empty c.platform) = .ok typed
      ∧ c.groups.foldlM addDeclared typed = .ok filled
      ∧ c.copies.foldl addCopy (filled, []) = (r, warnings) := by
  obtain ⟨typed, filled, htyped, hfilled, hcopies⟩ := ofCatalog_eq_ok_iff.mp h
  rw [foldl_addDuplicates] at hcopies
  exact ⟨typed, filled, htyped, hfilled, hcopies⟩

/-- A built registry is what copies make of the declared functions. -/
theorem eq_foldl_copy {filled : Registry}
    (h : c.copies.foldl addCopy (filled, []) = (r, warnings)) : r = c.copies.foldl copy filled := by
  rw [← foldl_addCopy_fst (filled, []), h]

/-- A built registry comes from one that has exactly the declared functions, by copies. -/
theorem exists_filled (h : ofCatalog c = .ok (r, warnings)) :
    ∃ filled : Registry, (∀ key s, filled.find? key = some s ↔ (key, s) ∈ c.functionBindings)
      ∧ r = c.copies.foldl copy filled := by
  obtain ⟨typed, filled, htyped, hfilled, hcopies⟩ := exists_rounds h
  exact ⟨filled, Catalog.find?_filled htyped hfilled, eq_foldl_copy hcopies⟩

/-- Every function of a built registry is a declared one of its owner and kind, but for the
name. -/
theorem provided_of_ofCatalog (h : ofCatalog c = .ok (r, warnings)) {key : FunctionKey}
    {s : Signature} (hfind : r.find? key = some s) : c.Provides key s := by
  obtain ⟨filled, hdeclared, rfl⟩ := exists_filled h
  -- every copy keeps it: its source is provided for the same owner and kind
  have hall : ∀ key s, (c.copies.foldl copy filled).find? key = some s → c.Provides key s := by
    refine List.foldlRecOn
      (motive := fun r : Registry => ∀ key s, r.find? key = some s → c.Provides key s)
      c.copies copy ?_ ?_
    · intro key s hs
      have hmem := (hdeclared key s).mp hs
      refine ⟨key.name, s, hmem, ?_⟩
      rw [← Catalog.name_of_mem_functionBindings hmem]
    · intro r hr d _ key s hs
      rw [find?_copy] at hs
      -- only at its target a copy may change something, and there its source is provided
      by_cases htarget : d.target = key
      · rw [if_pos htarget, Option.or_eq_some_iff] at hs
        rcases hs with hcopied | ⟨-, hbefore⟩
        · obtain ⟨source, hsource, rfl⟩ := Option.map_eq_some_iff.mp hcopied
          obtain ⟨name, declared, hmem, rfl⟩ := hr d.sourceKey source hsource
          subst htarget
          exact ⟨name, declared, hmem, rfl⟩
        · exact hr key s hbefore
      · rw [if_neg htarget] at hs
        exact hr key s hs
  exact hall key s hfind

/-- A declared function is in a built registry as it is declared, unless a copy is put in its
place. -/
theorem find?_of_ofCatalog (h : ofCatalog c = .ok (r, warnings)) {key : FunctionKey}
    {s : Signature} (hmem : (key, s) ∈ c.functionBindings)
    (hkept : ∀ d ∈ c.copies, d.target ≠ key) : r.find? key = some s := by
  obtain ⟨filled, hdeclared, rfl⟩ := exists_filled h
  rw [find?_foldl_copy hkept]
  exact (hdeclared key s).mpr hmem

end Registry

end EventSheet
