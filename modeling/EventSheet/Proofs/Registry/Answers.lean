import EventSheet.Proofs.NameMap
import EventSheet.Proofs.Registry.Operations

/-!
A registry is what it answers.

It consists of types and of functions. The types show in three answers: the platform, what is
registered about a type of objects beside its functions, and which types of behaviors there are
(`Registry.SameTypes`). A function shows at its key. Registries that answer all of this alike are
equal (`Registry.ext_find?`): a table lists its entries by name, in whatever order they came. And
putting a function somewhere leaves all types as they are.
-/

set_option autoImplicit false

namespace EventSheet

/-- Tables that find the same for every kind and name are equal. -/
theorem ByKind.ext_get? {α : Type} {t t' : ByKind α}
    (h : ∀ kind name, (t.get kind).get? name = (t'.get kind).get? name) : t = t' := by
  have hget : ∀ kind, t.get kind = t'.get kind := fun kind => NameMap.ext_get? (h kind)
  obtain ⟨expressions, actions, conditions⟩ := t
  obtain ⟨expressions', actions', conditions'⟩ := t'
  obtain rfl : expressions = expressions' := hget .expression
  obtain rfl : actions = actions' := hget .action
  obtain rfl : conditions = conditions' := hget .condition
  rfl

/-! ## Types of objects -/

/-- A type of objects without its functions. -/
def ObjectType.bare (t : ObjectType) : ObjectType := { t with functions := .empty }

/-- A type of objects is what it is without functions, and its functions. -/
theorem ObjectType.eq_of_bare_eq {t t' : ObjectType} (hbare : t.bare = t'.bare)
    (hfunctions : t.functions = t'.functions) : t = t' :=
  calc t = { t.bare with functions := t.functions } := rfl
    _ = { t'.bare with functions := t'.functions } := by rw [hbare, hfunctions]
    _ = t' := rfl

namespace Registry

variable {r r' r'' : Registry}

/-- What is registered about a type of objects beside its functions. -/
def bareType? (r : Registry) (type : String) : Option ObjectType :=
  (r.object? type).map ObjectType.bare

/-- Without its functions, no type changes where a table is replaced. -/
theorem bareType?_setFunctions (r : Registry) (owner : Owner) (table : FunctionTable)
    (type : String) : (r.setFunctions owner table).bareType? type = r.bareType? type := by
  have hbare : ∀ t : ObjectType,
      (if owner = .object type then { t with functions := table } else t).bare = t.bare := by
    intro t
    split <;> rfl
  rw [bareType?, object?_setFunctions, Option.map_map]
  exact Option.map_congr fun t _ => hbare t

/-! ## Types -/

/-- Two registries have the same types, whatever functions these have. -/
structure SameTypes (r r' : Registry) : Prop where
  /-- They are for one platform. -/
  platform : r.platform = r'.platform
  /-- The same is registered about every type of objects, beside its functions. -/
  objects : ∀ type, r.bareType? type = r'.bareType? type
  /-- The same types of behaviors are registered. -/
  behaviors : ∀ type, r.hasBehavior type = r'.hasBehavior type

namespace SameTypes

theorem refl (r : Registry) : r.SameTypes r := ⟨rfl, fun _ => rfl, fun _ => rfl⟩

theorem symm (h : r.SameTypes r') : r'.SameTypes r :=
  ⟨h.platform.symm, fun type => (h.objects type).symm, fun type => (h.behaviors type).symm⟩

theorem trans (h : r.SameTypes r') (h' : r'.SameTypes r'') : r.SameTypes r'' :=
  ⟨h.platform.trans h'.platform, fun type => (h.objects type).trans (h'.objects type),
    fun type => (h.behaviors type).trans (h'.behaviors type)⟩

end SameTypes

/-- Replacing a table does not change the platform. -/
theorem platform_setFunctions (r : Registry) (owner : Owner) (table : FunctionTable) :
    (r.setFunctions owner table).platform = r.platform := by
  cases owner with
  | global | behavior type => rfl
  | object type =>
    rw [setFunctions]
    split <;> rfl

/-- Replacing the table of a registered owner adds no type of behaviors, and takes none away. -/
theorem hasBehavior_setFunctions {owner : Owner} (h : r.Registered owner) (table : FunctionTable)
    (type : String) : (r.setFunctions owner table).hasBehavior type = r.hasBehavior type := by
  rw [Bool.eq_iff_iff, hasBehavior_iff, hasBehavior_iff]
  constructor
  · rintro ⟨found, hfound⟩
    rw [functions?_setFunctions h] at hfound
    by_cases howner : owner = .behavior type
    · exact howner ▸ h
    · rw [if_neg howner] at hfound
      exact ⟨found, hfound⟩
  · intro hbefore
    exact registered_setFunctions h hbefore table

/-- Replacing the table of a registered owner leaves all types as they are. -/
theorem sameTypes_setFunctions {owner : Owner} (h : r.Registered owner) (table : FunctionTable) :
    r.SameTypes (r.setFunctions owner table) where
  platform := (r.platform_setFunctions owner table).symm
  objects type := (r.bareType?_setFunctions owner table type).symm
  behaviors type := (hasBehavior_setFunctions h table type).symm

/-- Adding a function leaves all types as they are. -/
theorem sameTypes_addFunction {owner : Owner} {kind : Kind} {signature : Signature}
    (h : r.addFunction owner kind signature = .ok r') : r.SameTypes r' := by
  obtain ⟨-, table, htable, -, rfl⟩ := addFunction_eq_ok_iff.mp h
  exact sameTypes_setFunctions ⟨table, htable⟩ _

/-- A copy leaves all types as they are, whether it is made or not. -/
theorem sameTypes_duplicateEntry (r : Registry) (owner : Owner) (kind : Kind)
    (newName existing : String) :
    r.SameTypes (r.duplicateEntry owner kind newName existing).1 := by
  rcases r.duplicateEntry_cases owner kind newName existing with
    ⟨-, _, hsame, -⟩ | ⟨table, signature, htable, -, hcopied⟩
  · rw [hsame]
    exact .refl r
  · rw [hcopied]
    exact sameTypes_setFunctions ⟨table, htable⟩ _

/-! ## Types and functions make a registry -/

/-- Where registries find the same, a registered owner has the same table in both. -/
theorem table_eq_of_find? (hfind : ∀ key, r.find? key = r'.find? key) (owner : Owner)
    {table table' : FunctionTable} (h : r.functions? owner = some table)
    (h' : r'.functions? owner = some table') : table = table' := by
  refine ByKind.ext_get? fun kind name => ?_
  have hkey := hfind ⟨owner, kind, name⟩
  rw [find?_eq h, find?_eq h'] at hkey
  exact hkey

/-- Two registries that have the same types and the same functions are equal. -/
theorem ext_find? (htypes : r.SameTypes r') (hfind : ∀ key, r.find? key = r'.find? key) :
    r = r' := by
  have hfree : r.free = r'.free := table_eq_of_find? hfind .global rfl rfl
  -- a type of objects is put together from what is said of it and from its functions
  have hobjects : r.objects = r'.objects := by
    refine NameMap.ext_get? fun type => ?_
    have hbare := htypes.objects type
    rw [bareType?, bareType?, object?, object?] at hbare
    rcases ht : r.objects.get? type with _ | t
    · rw [ht, Option.map_none] at hbare
      exact (Option.map_eq_none_iff.mp hbare.symm).symm
    · rw [ht, Option.map_some] at hbare
      obtain ⟨t', ht', hsame⟩ := Option.map_eq_some_iff.mp hbare.symm
      have hfunctions : t'.functions = t.functions :=
        table_eq_of_find? (fun key => (hfind key).symm) (.object type)
          (by rw [functions?, ht', Option.map_some]) (by rw [functions?, ht, Option.map_some])
      rw [ht', ObjectType.eq_of_bare_eq hsame hfunctions]
  -- a type of behaviors is nothing but its functions
  have hbehaviors : r.behaviors = r'.behaviors := by
    refine NameMap.ext_get? fun type => ?_
    have hboth := htypes.behaviors type
    rw [Bool.eq_iff_iff, hasBehavior_iff, hasBehavior_iff] at hboth
    rcases htable : r.behaviors.get? type with _ | table
    · refine (Option.eq_none_iff_forall_ne_some.mpr fun table' htable' => ?_).symm
      obtain ⟨table, h⟩ := hboth.mpr ⟨table', htable'⟩
      rw [functions?, htable] at h
      cases h
    · obtain ⟨table', htable'⟩ := hboth.mp ⟨table, htable⟩
      rw [← table_eq_of_find? hfind (.behavior type) htable htable'] at htable'
      exact htable'.symm
  have hplatform := htypes.platform
  obtain ⟨platform, free, objects, behaviors⟩ := r
  obtain ⟨platform', free', objects', behaviors'⟩ := r'
  dsimp only at hplatform hfree hobjects hbehaviors
  rw [hplatform, hfree, hobjects, hbehaviors]

/-! ## Look-ups and names in scope -/

/-- A function of an owner itself hides whatever its base has. -/
theorem lookup_of_find? {kind : Kind} {owner : Owner} {name : String} {signature : Signature}
    (h : r.find? ⟨owner, kind, name⟩ = some signature) :
    r.lookup kind owner name = some signature :=
  (r.lookup_eq_some_iff kind owner name signature).mpr (Or.inl h)

/-- A name is in an owner's scope exactly if the owner, or its base, has a function of that
name. -/
theorem mem_namesInScope_iff {kind : Kind} {owner : Owner} {name : String} :
    name ∈ r.namesInScope kind owner ↔
      ∃ o ∈ lookupOwners owner, r.find? ⟨o, kind, name⟩ ≠ none := by
  have hset : name ∈ r.namesInScope kind owner ↔
      name ∈ (r.chain owner).flatMap fun table => (table.get kind).names :=
    NameSet.mem_names_ofNames_iff
  simp only [hset, chain, List.mem_flatMap, List.mem_filterMap, NameMap.mem_names_iff]
  -- a table with the name belongs to one of the owners that are asked, and back
  constructor
  · rintro ⟨table, ⟨o, ho, htable⟩, signature, hsignature⟩
    refine ⟨o, ho, ?_⟩
    rw [find?_eq htable, hsignature]
    exact Option.some_ne_none signature
  · rintro ⟨o, ho, hfind⟩
    obtain ⟨signature, hsignature⟩ := Option.ne_none_iff_exists'.mp hfind
    obtain ⟨table, htable, hget⟩ := Option.bind_eq_some_iff.mp hsignature
    exact ⟨table, ⟨o, ho, htable⟩, signature, hget⟩

/-- Which names are in scope depends on the keys that have a function, and not on the functions. -/
theorem namesInScope_congr {kind : Kind} {owner : Owner}
    (h : ∀ o ∈ lookupOwners owner, ∀ name,
      r.find? ⟨o, kind, name⟩ ≠ none ↔ r'.find? ⟨o, kind, name⟩ ≠ none) :
    r.namesInScope kind owner = r'.namesInScope kind owner := by
  refine NameMap.names_eq_of_mem_iff fun name => ?_
  change name ∈ r.namesInScope kind owner ↔ name ∈ r'.namesInScope kind owner
  rw [mem_namesInScope_iff, mem_namesInScope_iff]
  constructor
  · rintro ⟨o, ho, hfind⟩
    exact ⟨o, ho, (h o ho name).mp hfind⟩
  · rintro ⟨o, ho, hfind⟩
    exact ⟨o, ho, (h o ho name).mpr hfind⟩

end Registry

end EventSheet
