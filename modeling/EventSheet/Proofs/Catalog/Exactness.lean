import EventSheet.Proofs.Catalog.Copies
import EventSheet.Proofs.Registry.Answers
import EventSheet.Proofs.Registry.Representation

/-!
The registry of a catalog has what the catalog declares, and nothing else.

Its functions are the declared ones and the copies that are made; its types of objects are the base
type and the declared ones, each with what is declared about it (`Registry.ofCatalog_exact`). Names
are matched behind their qualifiers only, so it does not matter which extension a declaration stands
in. Functions do not touch what is declared about the types they are registered for: a registered
type without its functions is the declared one through all rounds (`Registry.bareType?`).
-/

set_option autoImplicit false

namespace EventSheet

/-! ## Types of objects -/

namespace Registry

variable {r r' : Registry}

/-- A copy leaves all types as they are. -/
theorem sameTypes_copy (r : Registry) (d : Copy) : r.SameTypes (r.copy d) :=
  r.sameTypes_duplicateEntry d.target.owner d.target.kind d.target.name d.source

/-- Copies leave all types as they are. -/
theorem sameTypes_foldl_copy (r : Registry) (copies : List Copy) :
    r.SameTypes (copies.foldl copy r) :=
  List.foldlRecOn (motive := fun r' => r.SameTypes r') copies copy (.refl r)
    fun r' hr' d _ => hr'.trans (r'.sameTypes_copy d)

/-- The functions of a group leave all types as they are. -/
theorem sameTypes_addDeclared {g : DeclaredGroup} (h : r.addDeclared g = .ok r') :
    r.SameTypes r' :=
  foldlM_keeps (P := fun r₁ => r.SameTypes r₁)
    (fun _ _ _ _ hs hstep => hs.trans (sameTypes_addFunction hstep)) (.refl r) h

/-- Functions do not touch the types that they are registered for. -/
theorem sameTypes_filled {groups : List DeclaredGroup}
    (h : groups.foldlM addDeclared r = .ok r') : r.SameTypes r' :=
  foldlM_keeps (P := fun r₁ => r.SameTypes r₁)
    (fun _ _ _ _ hs hstep => hs.trans (sameTypes_addDeclared hstep)) (.refl r) h

end Registry

namespace Catalog

variable {c : Catalog}

/-- A catalog declares a type of objects if one of its extensions does, under a name that is not
empty. -/
theorem mem_typeBindings_iff {type : String} {t : ObjectType} :
    (type, t) ∈ c.typeBindings ↔
      ∃ x ∈ c.extensions.values, ∃ e ∈ x.objects.entries, qualifiedName x.qualifier e.1 = type
        ∧ type ≠ "" ∧ t = ⟨type, e.2.description, .ofNames e.2.capabilities, .empty,
          some e.2.defaults⟩ := by
  have hone : ∀ (qualifier : String) (e : String × ObjectDeclaration),
      (type, t) ∈ declaredType qualifier e ↔ qualifiedName qualifier e.1 = type ∧ type ≠ ""
        ∧ t = ⟨type, e.2.description, .ofNames e.2.capabilities, .empty, some e.2.defaults⟩ := by
    intro qualifier e
    unfold declaredType
    by_cases hempty : qualifiedName qualifier e.1 = ""
    · simp only [if_pos hempty, List.not_mem_nil, false_iff]
      rintro ⟨rfl, hne, -⟩
      exact hne hempty
    · simp only [if_neg hempty, List.mem_singleton, Prod.mk.injEq]
      constructor
      · rintro ⟨rfl, rfl⟩
        exact ⟨rfl, hempty, rfl⟩
      · rintro ⟨rfl, -, rfl⟩
        exact ⟨rfl, rfl⟩
  simp only [typeBindings, Extension.typeBindings, List.mem_flatMap, hone]

/-- Behind the first round the declared types of objects are registered, beside the base type. -/
theorem bareType?_typed {typed : Registry}
    (h : c.extensions.values.foldlM Registry.addTypes (.empty c.platform) = .ok typed)
    {type : String} (htype : type ≠ "") {t : ObjectType} :
    typed.bareType? type = some t ↔ (type, t) ∈ c.typeBindings := by
  have hstart : (Registry.empty c.platform).objects.get? type = none := by
    rw [Registry.empty, NameMap.get?_insert, if_neg (Ne.symm htype), NameMap.get?_empty]
  have hget : ∀ t, typed.object? type = some t ↔ (type, t) ∈ c.typeBindings := by
    intro t
    have hlook := c.addTypes_adds.look_iff _ _ (Registry.untouched_empty _) h type t
    rw [hstart] at hlook
    exact hlook.trans (or_iff_right fun hnone => Option.some_ne_none t hnone.symm)
  -- the types of this round have no functions
  have hbare : ∀ t, (type, t) ∈ c.typeBindings → t.bare = t := by
    intro t ht
    obtain ⟨x, -, e, -, -, -, rfl⟩ := mem_typeBindings_iff.mp ht
    rfl
  rw [Registry.bareType?, Option.map_eq_some_iff]
  constructor
  · rintro ⟨t₀, ht₀, rfl⟩
    have hmem := (hget t₀).mp ht₀
    rw [hbare t₀ hmem]
    exact hmem
  · exact fun hmem => ⟨t, (hget t).mpr hmem, hbare t hmem⟩

end Catalog

namespace Registry

variable {c : Catalog} {r : Registry} {warnings : List RegistryWarning}

/-- The types of objects of a built registry are the declared ones, beside the base type. -/
theorem bareType?_ofCatalog (h : ofCatalog c = .ok (r, warnings)) {type : String}
    (htype : type ≠ "") {t : ObjectType} :
    r.bareType? type = some t ↔ (type, t) ∈ c.typeBindings := by
  obtain ⟨typed, filled, htyped, hfilled, hcopies⟩ := exists_rounds h
  -- only the first round registers types
  have hsame : typed.SameTypes r := by
    rw [eq_foldl_copy hcopies]
    exact (sameTypes_filled hfilled).trans (filled.sameTypes_foldl_copy c.copies)
  rw [← hsame.objects type]
  exact Catalog.bareType?_typed htyped htype

/-- A declared type of objects is registered, with what is declared about it. -/
theorem exists_object_ofCatalog (h : ofCatalog c = .ok (r, warnings)) {x : Extension}
    (hx : x ∈ c.extensions.values) {e : String × ObjectDeclaration} (he : e ∈ x.objects.entries)
    (hne : qualifiedName x.qualifier e.1 ≠ "") :
    ∃ t, r.object? (qualifiedName x.qualifier e.1) = some t ∧ t.description = e.2.description
      ∧ t.capabilities = .ofNames e.2.capabilities ∧ t.blueprint = some e.2.defaults := by
  have hbare := (bareType?_ofCatalog h hne).mpr
    (Catalog.mem_typeBindings_iff.mpr ⟨x, hx, e, he, rfl, hne, rfl⟩)
  obtain ⟨t, hget, hdeclared⟩ := Option.map_eq_some_iff.mp hbare
  exact ⟨t, hget, congrArg ObjectType.description hdeclared,
    congrArg ObjectType.capabilities hdeclared, congrArg ObjectType.blueprint hdeclared⟩

/-! ## Building by registrations -/

/-- A declared type of objects is registered by a registration, or passed over. -/
theorem Reachable.addDeclaredObject {r' : Registry} (hr : r.Reachable) {qualifier : String}
    {e : String × ObjectDeclaration} (h : r.addDeclaredObject qualifier e = .ok r') :
    r'.Reachable := by
  unfold Registry.addDeclaredObject at h
  by_cases htype : qualifiedName qualifier e.1 = ""
  · simp only [if_pos htype, Except.ok.injEq] at h
    exact h ▸ hr
  · simp only [if_neg htype] at h
    exact hr.addObject h

/-- The types of an extension are registered one by one. -/
theorem Reachable.addTypes {r' : Registry} (hr : r.Reachable) {x : Extension}
    (h : r.addTypes x = .ok r') : r'.Reachable := by
  obtain ⟨middle, hobjects, hbehaviors⟩ := bind_eq_ok_iff.mp h
  have hmiddle : middle.Reachable :=
    foldlM_keeps (P := Reachable) (fun _ _ _ _ hs hstep => hs.addDeclaredObject hstep) hr hobjects
  rw [← Except.ok.inj hbehaviors]
  exact List.foldlRecOn (motive := Reachable) x.behaviors.names _ hmiddle
    fun r₁ hr₁ n _ => hr₁.register (.behavior (qualifiedName x.qualifier n))

/-- The functions of a group are registered one by one. -/
theorem Reachable.addDeclared {r' : Registry} (hr : r.Reachable) {g : DeclaredGroup}
    (h : r.addDeclared g = .ok r') : r'.Reachable :=
  foldlM_keeps (P := Reachable) (fun _ _ _ _ hs hstep => hs.addFunction hstep) hr h

/-- Building is a run of registrations, so it keeps what registrations keep. -/
theorem reachable_ofCatalog (h : ofCatalog c = .ok (r, warnings)) : r.Reachable := by
  obtain ⟨typed, filled, htyped, hfilled, hcopies⟩ := exists_rounds h
  have hreached : typed.Reachable :=
    foldlM_keeps (P := Reachable) (fun _ _ _ _ hs hstep => hs.addTypes hstep)
      (reachable_empty c.platform) htyped
  have hfilled' : filled.Reachable :=
    foldlM_keeps (P := Reachable) (fun _ _ _ _ hs hstep => hs.addDeclared hstep) hreached hfilled
  -- the copies of the last round are registrations as well
  have hr := eq_foldl_copy hcopies
  rw [hr]
  exact List.foldlRecOn (motive := Reachable) c.copies copy hfilled'
    fun r₁ hr₁ d _ => hr₁.register (.copy d.target.owner d.target.kind d.target.name d.source)

/-! ## Functions -/

/-- A built registry has functions at the keys that can be told from the catalog. -/
theorem hasKeys_ofCatalog (h : ofCatalog c = .ok (r, warnings)) :
    r.HasKeys (c.keysAfter c.copies) := by
  obtain ⟨filled, hdeclared, rfl⟩ := exists_filled h
  exact (hasKeys_declaredKeys hdeclared).foldl_copy c.copies

/-- A name is listed for an owner exactly if there is a function at its key. -/
theorem mem_names_functionsIn_iff (h : r.WellFormed) {kind : Kind} {owner : Owner} {name : String} :
    name ∈ (r.functionsIn kind owner).map Signature.name
      ↔ r.find? ⟨owner, kind, name⟩ ≠ none := by
  rw [List.mem_map, Option.ne_none_iff_exists']
  constructor
  · rintro ⟨s, hs, rfl⟩
    exact ⟨s, (mem_functionsIn_iff h).mp hs⟩
  · rintro ⟨s, hfind⟩
    have hname : s.name = name := h.functionNames _ _ hfind
    exact ⟨s, (mem_functionsIn_iff h).mpr (hname ▸ hfind), hname⟩

end Registry

namespace Catalog

variable {c : Catalog}

/-- A key is declared if a group of its owner has a function of its kind and name. -/
theorem mem_declaredKeys_iff {owner : Owner} {kind : Kind} {name : String} :
    ⟨owner, kind, name⟩ ∈ c.declaredKeys ↔
      ∃ g ∈ c.groups, g.owner = owner ∧ ∃ e ∈ (g.functions.tables.get kind).entries,
        qualifiedName g.qualifier e.1 = name := by
  rw [declaredKeys, List.mem_map]
  constructor
  · rintro ⟨⟨key, s⟩, hmem, rfl⟩
    obtain ⟨g, hg, howner, e, he, hname, -⟩ := mem_functionBindings_iff.mp hmem
    exact ⟨g, hg, howner, e, he, hname⟩
  · rintro ⟨g, hg, howner, e, he, hname⟩
    exact ⟨_, mem_functionBindings_iff.mpr ⟨g, hg, howner, e, he, hname, rfl⟩, rfl⟩

/-- There are as many declared keys as the catalog counts functions. -/
theorem length_declaredKeys (c : Catalog) : c.declaredKeys.length = c.functionCount := by
  have hgroup : ∀ g : DeclaredGroup, g.bindings.length = g.functions.tables.size := by
    intro g
    simp [DeclaredGroup.bindings, DeclaredGroup.signatures, ByKind.entries, ByKind.size,
      ByKind.get, NameMap.size, Nat.add_assoc]
  rw [declaredKeys, List.length_map, functionBindings, List.length_flatMap, functionCount]
  simp only [hgroup]
  rfl

end Catalog

namespace Registry

variable {c : Catalog} {r : Registry} {warnings : List RegistryWarning}

/-- The functions of a built registry are as many as the declared ones, and one more for each key
that only copies fill. -/
theorem functionCount_ofCatalog (h : ofCatalog c = .ok (r, warnings)) :
    r.functionCount = c.functionCount
      + ((c.keysAfter c.copies).toFinset \ c.declaredKeys.toFinset).card := by
  have hwellFormed := (reachable_ofCatalog h).wellFormed
  have hbuildable := (ofCatalog_succeeds_iff c).mp ⟨r, warnings, h⟩
  -- no two declared functions have one key, so as many keys are declared as functions
  have hdeclared : c.declaredKeys.toFinset.card = c.functionCount :=
    (List.toFinset_card_of_nodup hbuildable.functions).trans c.length_declaredKeys
  -- copies take no function away, so the declared keys are among those in the end
  have hsubset : c.declaredKeys.toFinset ⊆ (c.keysAfter c.copies).toFinset := by
    intro key hkey
    exact List.mem_toFinset.mpr
      (Catalog.mem_keysAfter_iff.mpr (Or.inl (List.mem_toFinset.mp hkey)))
  have hall : r.functionCount = (c.keysAfter c.copies).toFinset.card :=
    functionCount_eq_card hwellFormed fun key => by
      rw [List.mem_toFinset, hasKeys_ofCatalog h key]
  rw [hall, ← hdeclared, ← Finset.card_sdiff_add_card_eq_card hsubset, Nat.add_comm]

/-- **No loss and no invention.** An owner has a function of a kind and a name exactly if the
catalog declares one, or a copy is put there whose source has a function when its turn comes. A
declared function that no copy is put in the place of is as it is declared. The types of objects are
the declared ones, but for the base type, with their descriptions and capabilities, and with objects
that start from the declared properties. And the functions are as many as the declared ones and the
keys that only copies fill. -/
theorem ofCatalog_exact (h : ofCatalog c = .ok (r, warnings)) :
    (∀ owner kind name, name ∈ (r.functionsIn kind owner).map Signature.name ↔
        (∃ g ∈ c.groups, g.owner = owner ∧ ∃ e ∈ (g.functions.tables.get kind).entries,
          qualifiedName g.qualifier e.1 = name)
        ∨ ∃ before d after, c.copies = before ++ d :: after
          ∧ d.target = ⟨owner, kind, name⟩ ∧ d.sourceKey ∈ c.keysAfter before)
      ∧ (∀ g ∈ c.groups, ∀ kind name f, (name, f) ∈ (g.functions.tables.get kind).entries →
        (∀ d ∈ c.copies, d.target ≠ ⟨g.owner, kind, qualifiedName g.qualifier name⟩) →
        (⟨qualifiedName g.qualifier name, f.returnTag, f.parameters, f.requiredCapability,
          g.owner.sort, f.description⟩ : Signature) ∈ r.functionsIn kind g.owner)
      ∧ (∀ type, type ∈ r.objectTypes.map ObjectType.name ↔ type ≠ ""
        ∧ ∃ x ∈ c.extensions.values, ∃ e ∈ x.objects.entries, qualifiedName x.qualifier e.1 = type)
      ∧ (∀ x ∈ c.extensions.values, ∀ e ∈ x.objects.entries,
        let type := qualifiedName x.qualifier e.1
        type ≠ "" → (∃ t, r.object? type = some t ∧ t.description = e.2.description
            ∧ ∀ capability, t.supports capability = true ↔ capability ∈ e.2.capabilities)
          ∧ ∀ name, r.create? type name = some ⟨name, type, e.2.defaults⟩)
      ∧ r.functionCount = c.functionCount
        + ((c.keysAfter c.copies).toFinset \ c.declaredKeys.toFinset).card := by
  have hwellFormed := (reachable_ofCatalog h).wellFormed
  refine ⟨?_, ?_, ?_, ?_, functionCount_ofCatalog h⟩
  · intro owner kind name
    rw [mem_names_functionsIn_iff hwellFormed, ← hasKeys_ofCatalog h, Catalog.mem_keysAfter_iff,
      Catalog.mem_declaredKeys_iff]
  · intro g hg kind name f hmem hkept
    have hbinding : (⟨g.owner, kind, qualifiedName g.qualifier name⟩, g.signature name f)
        ∈ c.functionBindings :=
      Catalog.mem_functionBindings_iff.mpr ⟨g, hg, rfl, (name, f), hmem, rfl, rfl⟩
    exact (mem_functionsIn_iff hwellFormed).mpr (find?_of_ofCatalog h hbinding hkept)
  · intro type
    simp only [List.mem_map, mem_objectTypes_iff hwellFormed]
    constructor
    · rintro ⟨t, ⟨hget, hne⟩, rfl⟩
      -- functions came to the type since it was declared, so it is compared without them
      have hbare : r.bareType? t.name = some t.bare := by rw [bareType?, hget, Option.map_some]
      obtain ⟨x, hx, e, he, hname, -⟩ :=
        Catalog.mem_typeBindings_iff.mp ((bareType?_ofCatalog h hne).mp hbare)
      exact ⟨hne, x, hx, e, he, hname⟩
    · rintro ⟨hne, x, hx, e, he, rfl⟩
      obtain ⟨t, hget, -⟩ := exists_object_ofCatalog h hx he hne
      have hname := hwellFormed.objectNames _ t hget
      exact ⟨t, ⟨hname.symm ▸ hget, hname.symm ▸ hne⟩, hname⟩
  · intro x hx e he type hne
    obtain ⟨t, hget, hdescription, hcapabilities, hblueprint⟩ :=
      exists_object_ofCatalog h hx he hne
    refine ⟨⟨t, hget, hdescription, fun capability => ?_⟩, fun name => ?_⟩
    · rw [ObjectType.supports, hcapabilities, NameSet.contains_ofNames_iff]
    · rw [create?_eq, hget, Option.bind_some, hblueprint, Option.map_some]

end Registry

/-- A catalog of texts, whose size has two names, one of them by a copy. -/
def Catalog.texts : Catalog :=
  let size : FunctionDeclaration := ⟨"", "number", [.ofTag "object"], none⟩
  let functions : FunctionGroup :=
    ⟨⟨.ofList [("FontSize", size)], .empty, .empty⟩, [⟨.expression, "Size", "FontSize"⟩]⟩
  let text : ObjectDeclaration := ⟨"", ["effect"], .ofList [("size", .ofNat 20)], functions⟩
  let extension : Extension := ⟨"TextObject", "", .empty, .ofList [("Text", text)], .empty⟩
  ⟨"game", Catalog.defaultVersion, .ofList [("TextObject", extension)]⟩

namespace Registry

theorem ofCatalog_exact_texts :
    let owner := Owner.object "TextObject::Text"
    ∃ r, ofCatalog .texts = .ok (r, [])
      ∧ "TextObject::Size" ∈ (r.functionsIn .expression owner).map Signature.name
      ∧ (⟨"TextObject::FontSize", "number", [.ofTag "object"], none, .object, ""⟩ : Signature)
        ∈ r.functionsIn .expression owner
      ∧ (∀ name, r.create? "TextObject::Text" name
        = some ⟨name, "TextObject::Text", .ofList [("size", .ofNat 20)]⟩)
      ∧ r.functionCount = 2 := by
  intro owner
  obtain ⟨r, hr⟩ : ∃ r, ofCatalog .texts = .ok (r, []) := ⟨_, rfl⟩
  obtain ⟨hnames, hkept, -, hobjects, hcount⟩ := ofCatalog_exact hr
  have hcopied := (hnames owner .expression "TextObject::Size").mpr
    (Or.inr ⟨[], _, [], rfl, rfl, List.mem_cons_self⟩)
  have hdeclared := hkept _ (List.mem_cons_of_mem _ List.mem_cons_self) .expression "FontSize" _
    List.mem_cons_self (by decide)
  have hobject := hobjects _ List.mem_cons_self _ List.mem_cons_self (by decide)
  exact ⟨r, hr, hcopied, hdeclared, hobject.2, hcount⟩

end Registry

end EventSheet
