import EventSheet.Catalog.Registration
import EventSheet.Proofs.Registry.Operations

/-!
When the registry of a catalog can be built.

Building goes in rounds: first all types, then all functions, then the copies. A round of
registrations succeeds exactly if no two of them have the same key and none has a key that is taken
(`Adds.foldlM`). No key is taken when a round starts: the types of the first round bring no
functions with them, and a declared type of objects without a name is passed over. Every owner of a
declared function is a type of the first round, or one that is there from the start. And copies
never fail. So a catalog can be built exactly if its declarations have different keys and its
functions have names (`Catalog.Buildable`, `Registry.ofCatalog_succeeds_iff`).
-/

set_option autoImplicit false

namespace EventSheet

/-! ## What a catalog declares -/

/-- The type of objects that is declared under a name. Under the empty qualified name it is the base
type, which is not declared anew. -/
def declaredType (qualifier : String) (e : String × ObjectDeclaration) :
    List (String × ObjectType) :=
  let type := qualifiedName qualifier e.1
  if type = "" then []
  else [(type,
    ⟨type, e.2.description, .ofNames e.2.capabilities, .empty, some e.2.defaults⟩)]

/-- The types of objects that an extension declares, by their names. -/
def Extension.typeBindings (x : Extension) : List (String × ObjectType) :=
  x.objects.entries.flatMap (declaredType x.qualifier)

/-- The functions that a group declares, by their keys. -/
def DeclaredGroup.bindings (g : DeclaredGroup) : List (FunctionKey × Signature) :=
  g.signatures.map fun e => (⟨g.owner, e.1, e.2.name⟩, e.2)

namespace Catalog

/-- The types of objects that a catalog declares, by their names. -/
def typeBindings (c : Catalog) : List (String × ObjectType) :=
  c.extensions.values.flatMap Extension.typeBindings

/-- The functions that a catalog declares, by their keys. -/
def functionBindings (c : Catalog) : List (FunctionKey × Signature) :=
  c.groups.flatMap DeclaredGroup.bindings

/-- No two declarations of a catalog have one key, and every function has a name. -/
structure Buildable (c : Catalog) : Prop where
  /-- No type of objects is declared twice. -/
  types : (c.typeBindings.map Prod.fst).Nodup
  /-- No function is without a name. -/
  named : ∀ b ∈ c.functionBindings, b.1.name ≠ ""
  /-- No function of an owner and a kind is declared twice. -/
  functions : (c.functionBindings.map Prod.fst).Nodup

end Catalog

/-! ## Groups -/

namespace Extension

/-- The groups of an extension: its own, and one for each type that it declares. -/
theorem mem_groups_iff {name : String} {x : Extension} {g : DeclaredGroup} :
    g ∈ x.groups name ↔
      g = ⟨name, .global, x.qualifier, x.functions⟩
        ∨ (∃ e ∈ x.objects.entries, ⟨name ++ "." ++ e.1,
          .object (qualifiedName x.qualifier e.1), x.qualifier, e.2.functions⟩ = g)
        ∨ ∃ e ∈ x.behaviors.entries, ⟨name ++ "." ++ e.1,
          .behavior (qualifiedName x.qualifier e.1), x.qualifier, e.2.functions⟩ = g := by
  rw [groups, List.mem_append, List.mem_cons, List.mem_map, List.mem_map, or_assoc]

end Extension

/-- An extension lists functions for an owner: those without a receiver, or those of a type that it
declares, under its qualified name. -/
inductive Extension.HasFunctions (x : Extension) : Owner → FunctionGroup → Prop where
  | free : x.HasFunctions .global x.functions
  | object {name : String} {declared : ObjectDeclaration} : (name, declared) ∈ x.objects.entries →
      x.HasFunctions (.object (qualifiedName x.qualifier name)) declared.functions
  | behavior {name : String} {declared : BehaviorDeclaration} :
      (name, declared) ∈ x.behaviors.entries →
      x.HasFunctions (.behavior (qualifiedName x.qualifier name)) declared.functions

/-- The groups of a catalog are what its extensions list, each with the extension's qualifier. -/
theorem Catalog.exists_group_iff {c : Catalog} {owner : Owner} {qualifier : String}
    {functions : FunctionGroup} :
    (∃ g ∈ c.groups, g.owner = owner ∧ g.qualifier = qualifier ∧ g.functions = functions) ↔
      ∃ x ∈ c.extensions.values, x.qualifier = qualifier ∧ x.HasFunctions owner functions := by
  constructor
  · rintro ⟨g, hg, rfl, rfl, rfl⟩
    obtain ⟨⟨name, x⟩, hx, hg⟩ := List.mem_flatMap.mp hg
    refine ⟨x, List.mem_map_of_mem hx, ?_⟩
    rcases Extension.mem_groups_iff.mp hg with rfl | ⟨e, he, rfl⟩ | ⟨e, he, rfl⟩
    · exact ⟨rfl, .free⟩
    · exact ⟨rfl, .object he⟩
    · exact ⟨rfl, .behavior he⟩
  · rintro ⟨x, hx, rfl, hfunctions⟩
    obtain ⟨⟨name, x⟩, hentry, rfl⟩ := List.mem_map.mp hx
    have hgroup : ∀ g ∈ x.groups name, g ∈ c.groups :=
      fun g hg => List.mem_flatMap.mpr ⟨(name, x), hentry, hg⟩
    cases hfunctions with
    | free => exact ⟨_, hgroup _ (Extension.mem_groups_iff.mpr (.inl rfl)), rfl, rfl, rfl⟩
    | object he =>
      exact ⟨_, hgroup _ (Extension.mem_groups_iff.mpr (.inr (.inl ⟨_, he, rfl⟩))), rfl, rfl, rfl⟩
    | behavior he =>
      exact ⟨_, hgroup _ (Extension.mem_groups_iff.mpr (.inr (.inr ⟨_, he, rfl⟩))), rfl, rfl, rfl⟩

/-- The entries of all kinds are those of each. -/
theorem ByKind.mem_entries_iff {α : Type} {t : ByKind α} {e : Kind × String × α} :
    e ∈ t.entries ↔ e.2 ∈ (t.get e.1).entries := by
  obtain ⟨kind, entry⟩ := e
  simp only [entries, List.mem_flatMap, List.mem_map, Prod.mk.injEq]
  constructor
  · rintro ⟨kind', -, entry', hmem, rfl, rfl⟩
    exact hmem
  · intro hmem
    refine ⟨kind, ?_, entry, hmem, rfl, rfl⟩
    -- each kind is one of those that are gone through
    cases kind <;> simp

/-- A group has a signature for every entry of its tables: what is declared of the function, under
its qualified name. -/
theorem DeclaredGroup.mem_signatures_iff {g : DeclaredGroup} {kind : Kind} {s : Signature} :
    (kind, s) ∈ g.signatures ↔
      ∃ name f, (name, f) ∈ (g.functions.tables.get kind).entries
        ∧ s = ⟨qualifiedName g.qualifier name, f.returnTag, f.parameters, f.requiredCapability,
          g.owner.sort, f.description⟩ := by
  rw [signatures, List.mem_map]
  constructor
  · rintro ⟨⟨kind', name, f⟩, he, heq⟩
    cases heq
    exact ⟨name, f, ByKind.mem_entries_iff.mp he, rfl⟩
  · rintro ⟨name, f, he, rfl⟩
    exact ⟨(kind, name, f), ByKind.mem_entries_iff.mpr he, rfl⟩

namespace Catalog

variable {c : Catalog} {key : FunctionKey} {s : Signature}

/-- A catalog declares a function if one of its groups does. -/
theorem mem_functionBindings_iff :
    (key, s) ∈ c.functionBindings ↔
      ∃ g ∈ c.groups, g.owner = key.owner ∧ ∃ e ∈ (g.functions.tables.get key.kind).entries,
        qualifiedName g.qualifier e.1 = key.name ∧ g.signature e.1 e.2 = s := by
  obtain ⟨owner, kind, name⟩ := key
  simp only [functionBindings, DeclaredGroup.bindings, List.mem_flatMap, List.mem_map]
  constructor
  · rintro ⟨g, hg, ⟨kind', s'⟩, hs, heq⟩
    cases heq
    obtain ⟨n, f, he, rfl⟩ := DeclaredGroup.mem_signatures_iff.mp hs
    exact ⟨g, hg, rfl, (n, f), he, rfl, rfl⟩
  · rintro ⟨g, hg, rfl, ⟨n, f⟩, he, rfl, rfl⟩
    exact ⟨g, hg, (kind, g.signature n f), DeclaredGroup.mem_signatures_iff.mpr ⟨n, f, he, rfl⟩, rfl⟩

/-- The functions that a catalog declares, said without its groups: an extension lists the function
for the owner, and the signature is what is declared of it. -/
theorem mem_functionBindings_iff_hasFunctions :
    (key, s) ∈ c.functionBindings ↔
      ∃ x ∈ c.extensions.values, ∃ functions, x.HasFunctions key.owner functions
        ∧ ∃ name f, (name, f) ∈ (functions.tables.get key.kind).entries
          ∧ qualifiedName x.qualifier name = key.name
          ∧ s = ⟨key.name, f.returnTag, f.parameters, f.requiredCapability, key.owner.sort,
            f.description⟩ := by
  rw [mem_functionBindings_iff]
  constructor
  · rintro ⟨g, hg, howner, ⟨name, f⟩, he, hname, rfl⟩
    obtain ⟨x, hx, hqualifier, hfunctions⟩ := exists_group_iff.mp ⟨g, hg, howner, rfl, rfl⟩
    refine ⟨x, hx, _, hfunctions, name, f, he, hqualifier ▸ hname, ?_⟩
    rw [DeclaredGroup.signature, hname, howner]
  · rintro ⟨x, hx, functions, hfunctions, name, f, he, hname, rfl⟩
    obtain ⟨g, hg, howner, hqualifier, rfl⟩ := exists_group_iff.mpr ⟨x, hx, rfl, hfunctions⟩
    refine ⟨g, hg, howner, (name, f), he, hqualifier ▸ hname, ?_⟩
    rw [DeclaredGroup.signature, hqualifier, hname, howner]

end Catalog

namespace Registry

/-! ## Types -/

/-- No function is registered yet, and the type that stands for all objects is there. -/
structure Untouched (r : Registry) : Prop where
  find? : ∀ key, r.find? key = none
  base : r.Registered (.object "")

theorem untouched_empty (platform : String) : (empty platform).Untouched :=
  ⟨find?_empty platform, ⟨.empty, rfl⟩⟩

/-- Registering a declared type of objects binds its name, if it has one. -/
theorem addDeclaredObject_adds (qualifier : String) (e : String × ObjectDeclaration) :
    Adds Untouched (fun r name => r.objects.get? name) (fun r => r.addDeclaredObject qualifier e)
      (declaredType qualifier e) True := by
  unfold addDeclaredObject declaredType
  by_cases htype : qualifiedName qualifier e.1 = ""
  · simp only [if_pos htype]
    exact Adds.pure (fun _ _ => rfl) fun _ hr => hr
  · simp only [if_neg htype]
    constructor
    · intro r _
      rw [List.map_singleton, List.forall_mem_singleton]
      constructor
      · rintro ⟨r', h⟩
        exact ⟨trivial, List.pairwise_singleton _ _, (addObject_eq_ok_iff.mp h).1⟩
      · rintro ⟨-, -, hnone⟩
        exact ⟨_, addObject_eq_ok_iff.mpr ⟨hnone, rfl⟩⟩
    · -- the type is what is found under its name, and under another name nothing changes
      intro r r' _ h name t
      obtain ⟨hnone, rfl⟩ := addObject_eq_ok_iff.mp h
      rw [withObject, NameMap.get?_insert, List.mem_singleton, Prod.mk.injEq]
      by_cases hname : qualifiedName qualifier e.1 = name
      · subst hname
        rw [if_pos rfl, hnone]
        simp [eq_comm]
      · simp [hname, Ne.symm hname]
    · -- a type of objects without functions leaves the registry untouched
      intro r r' hr h
      obtain ⟨hnone, rfl⟩ := addObject_eq_ok_iff.mp h
      refine ⟨fun key => ?_, registered_withObject_iff.mpr (Or.inl hr.base)⟩
      rw [find?_withObject hnone rfl, hr.find?]

/-- Registers types of behaviors. -/
def addBehaviors (qualifier : String) (names : List String) (r : Registry) : Registry :=
  names.foldl (fun r n => r.addBehavior (qualifiedName qualifier n)) r

/-- Types of behaviors are no types of objects. -/
theorem addBehaviors_objects (qualifier : String) (names : List String) (r : Registry) :
    (r.addBehaviors qualifier names).objects = r.objects :=
  List.foldlRecOn (motive := fun r' => r'.objects = r.objects) names _ rfl
    fun r' hr' n _ => (addBehavior_objects r' (qualifiedName qualifier n)).trans hr'

/-- Types of behaviors bring no functions with them. -/
theorem find?_addBehaviors (qualifier : String) (names : List String) (r : Registry)
    (key : FunctionKey) : (r.addBehaviors qualifier names).find? key = r.find? key :=
  List.foldlRecOn (motive := fun r' => r'.find? key = r.find? key) names _ rfl
    fun r' hr' n _ => (find?_addBehavior r' (qualifiedName qualifier n) key).trans hr'

/-- Registering types of behaviors adds them as owners, and no others. -/
theorem registered_addBehaviors_iff {qualifier : String} {names : List String} {r : Registry}
    {owner : Owner} :
    (r.addBehaviors qualifier names).Registered owner ↔
      r.Registered owner ∨ ∃ n ∈ names, owner = .behavior (qualifiedName qualifier n) := by
  unfold addBehaviors
  induction names generalizing r with
  | nil => simp
  | cons n names ih =>
    rw [List.foldl_cons, ih, registered_addBehavior_iff, or_assoc]
    simp only [List.mem_cons, exists_eq_or_imp]

/-- Registering types of behaviors binds no name of a type of objects. -/
theorem addBehaviors_adds (qualifier : String) (names : List String) :
    Adds Untouched (fun r name => r.objects.get? name)
      (fun r => (Except.ok (r.addBehaviors qualifier names) : Except RegistryError Registry))
      [] True := by
  refine Adds.pure (fun r name => ?_) fun r hr => ⟨fun key => ?_, ?_⟩
  · rw [addBehaviors_objects]
  · rw [find?_addBehaviors, hr.find?]
  · exact registered_addBehaviors_iff.mpr (Or.inl hr.base)

/-- Registering the objects of an extension binds their names. -/
theorem addDeclaredObjects_adds (x : Extension) :
    Adds Untouched (fun r name => r.objects.get? name)
      (fun r => x.objects.entries.foldlM (addDeclaredObject x.qualifier) r) x.typeBindings True :=
  (Adds.foldlM fun e (_ : e ∈ x.objects.entries) => addDeclaredObject_adds x.qualifier e).of_iff
    ⟨fun _ => trivial, fun _ _ _ => trivial⟩

/-- Registering the types of an extension binds the names of its objects. -/
theorem addTypes_adds (x : Extension) :
    Adds Untouched (fun r name => r.objects.get? name) (fun r => r.addTypes x) x.typeBindings
      True := by
  have hboth := (addDeclaredObjects_adds x).bind
    (addBehaviors_adds x.qualifier x.behaviors.names)
  rw [List.append_nil] at hboth
  exact hboth.of_iff and_self_iff

/-- A type of objects leaves the types of behaviors alone. -/
theorem addDeclaredObject_behaviors {qualifier : String} {e : String × ObjectDeclaration}
    {r r' : Registry} (h : r.addDeclaredObject qualifier e = .ok r') :
    r'.behaviors = r.behaviors := by
  unfold addDeclaredObject at h
  by_cases htype : qualifiedName qualifier e.1 = ""
  · simp only [if_pos htype, Except.ok.injEq] at h
    rw [h]
  · simp only [if_neg htype] at h
    rw [(addObject_eq_ok_iff.mp h).2, withObject]

/-- Registering the types of an extension adds its types of behaviors, and no other. -/
theorem registered_behavior_addTypes {x : Extension} {r r' : Registry} (h : r.addTypes x = .ok r')
    (type : String) :
    r'.Registered (.behavior type) ↔
      r.Registered (.behavior type) ∨ type ∈ x.behaviors.names.map (qualifiedName x.qualifier) := by
  obtain ⟨middle, hobjects, hbehaviors⟩ := bind_eq_ok_iff.mp h
  -- the objects come first and leave the behaviors alone
  have hsame : middle.behaviors = r.behaviors :=
    foldlM_keeps (P := fun r' => r'.behaviors = r.behaviors)
      (fun e _ _ _ hs hstep => (addDeclaredObject_behaviors hstep).trans hs) rfl hobjects
  have hmiddle : middle.Registered (.behavior type) ↔ r.Registered (.behavior type) := by
    unfold Registered functions?
    rw [hsame]
  have hadded : r' = middle.addBehaviors x.qualifier x.behaviors.names :=
    (Except.ok.inj hbehaviors).symm
  rw [hadded, registered_addBehaviors_iff, hmiddle, List.mem_map]
  simp only [Owner.behavior.injEq, eq_comm]

/-! ## Functions -/

/-- Registering the functions of a group binds their keys. All owners stay registered, so one group
after another can rely on its own. -/
theorem addDeclared_adds {owners : List Owner} {g : DeclaredGroup} (howner : g.owner ∈ owners) :
    Adds (fun r : Registry => ∀ o ∈ owners, r.Registered o) find? (fun r => r.addDeclared g)
      g.bindings (∀ b ∈ g.bindings, b.1.name ≠ "") := by
  have hsignatures := Adds.foldlM fun e (_ : e ∈ g.signatures) => addFunction_adds howner e.1 e.2
  rw [← List.map_eq_flatMap] at hsignatures
  refine hsignatures.of_iff ?_
  simp only [DeclaredGroup.bindings, List.forall_mem_map]

end Registry

/-! ## The rounds -/

namespace Catalog

variable {c : Catalog}

/-- The first round, for all extensions. -/
theorem addTypes_adds (c : Catalog) :
    Adds Registry.Untouched (fun r name => r.objects.get? name)
      (fun r => c.extensions.values.foldlM Registry.addTypes r) c.typeBindings True :=
  (Adds.foldlM fun x (_ : x ∈ c.extensions.values) => Registry.addTypes_adds x).of_iff
    ⟨fun _ => trivial, fun _ _ _ => trivial⟩

/-- The second round, for all groups, where their owners are registered. -/
theorem addDeclared_adds (c : Catalog) :
    Adds (fun r : Registry => ∀ o ∈ c.groups.map DeclaredGroup.owner, r.Registered o)
      Registry.find? (fun r => c.groups.foldlM Registry.addDeclared r) c.functionBindings
      (∀ b ∈ c.functionBindings, b.1.name ≠ "") := by
  have hgroups := Adds.foldlM fun g (hg : g ∈ c.groups) =>
    Registry.addDeclared_adds (List.mem_map_of_mem hg)
  refine hgroups.of_iff ?_
  rw [functionBindings, List.forall_mem_flatMap]

/-- An extension's own types are among those that a catalog declares. -/
theorem exists_typeBinding {x : Extension} (hx : x ∈ c.extensions.values)
    {e : String × ObjectDeclaration} (he : e ∈ x.objects.entries)
    (hne : qualifiedName x.qualifier e.1 ≠ "") :
    ∃ t, (qualifiedName x.qualifier e.1, t) ∈ c.typeBindings := by
  have hdeclared : ∃ t, (qualifiedName x.qualifier e.1, t) ∈ declaredType x.qualifier e := by
    rw [declaredType, if_neg hne]
    exact ⟨_, List.mem_singleton_self _⟩
  obtain ⟨t, ht⟩ := hdeclared
  exact ⟨t, List.mem_flatMap.mpr ⟨x, hx, List.mem_flatMap.mpr ⟨e, he, ht⟩⟩⟩

/-- Behind the first round the declared types of behaviors are registered, and those that were
before. -/
theorem registered_behavior {r typed : Registry}
    (h : c.extensions.values.foldlM Registry.addTypes r = .ok typed) (type : String) :
    typed.Registered (.behavior type) ↔ r.Registered (.behavior type) ∨
      ∃ x ∈ c.extensions.values, type ∈ x.behaviors.names.map (qualifiedName x.qualifier) :=
  foldlM_iff (P := fun r => r.Registered (.behavior type))
    (C := fun x => type ∈ x.behaviors.names.map (qualifiedName x.qualifier))
    (fun _ _ _ _ hstep => Registry.registered_behavior_addTypes hstep type) h

/-- Behind the first round every owner of a declared function is registered. -/
theorem registered_owner {typed : Registry}
    (h : c.extensions.values.foldlM Registry.addTypes (.empty c.platform) = .ok typed)
    {g : DeclaredGroup} (hg : g ∈ c.groups) : typed.Registered g.owner := by
  have huntouched := Registry.untouched_empty c.platform
  obtain ⟨⟨name, x⟩, hx, hgroup⟩ := List.mem_flatMap.mp hg
  have hvalue : x ∈ c.extensions.values := List.mem_map_of_mem hx
  rcases Extension.mem_groups_iff.mp hgroup with rfl | ⟨e, he, rfl⟩ | ⟨e, he, rfl⟩
  · exact typed.registered_global
  · -- the base type is there from the start, any other is bound by the round
    by_cases hne : qualifiedName x.qualifier e.1 = ""
    · dsimp only
      rw [hne]
      exact (c.addTypes_adds.keeps _ _ huntouched h).base
    · obtain ⟨t, ht⟩ := exists_typeBinding hvalue he hne
      exact Registry.registered_object_iff.mpr
        ⟨t, (c.addTypes_adds.look_iff _ _ huntouched h _ t).mpr (Or.inr ht)⟩
  · exact (registered_behavior h _).mpr
      (Or.inr ⟨x, hvalue, List.mem_map_of_mem (List.mem_map_of_mem he)⟩)

/-- Behind the first round all owners of groups are registered. -/
theorem registered_owners {typed : Registry}
    (h : c.extensions.values.foldlM Registry.addTypes (.empty c.platform) = .ok typed) :
    ∀ o ∈ c.groups.map DeclaredGroup.owner, typed.Registered o := by
  rw [List.forall_mem_map]
  exact fun g hg => registered_owner h hg

/-- No declared type of objects stands for all of them. -/
theorem ne_empty_of_mem_typeBindings {b : String × ObjectType} (hb : b ∈ c.typeBindings) :
    b.1 ≠ "" := by
  obtain ⟨x, -, hb⟩ := List.mem_flatMap.mp hb
  obtain ⟨e, -, hb⟩ := List.mem_flatMap.mp hb
  unfold declaredType at hb
  by_cases htype : qualifiedName x.qualifier e.1 = ""
  · simp only [if_pos htype] at hb
    exact absurd hb List.not_mem_nil
  · simp only [if_neg htype] at hb
    rw [List.mem_singleton.mp hb]
    exact htype

/-- At the start only the base type is there, and no declared type of objects has its name. -/
theorem get?_empty_of_mem_typeBindings {type : String} (h : type ∈ c.typeBindings.map Prod.fst)
    (platform : String) : (Registry.empty platform).objects.get? type = none := by
  obtain ⟨b, hb, rfl⟩ := List.mem_map.mp h
  have hne := ne_empty_of_mem_typeBindings hb
  simp [Registry.empty, NameMap.get?_insert, Ne.symm hne]

/-- Behind the second round the declared functions are registered, and nothing else is. -/
theorem find?_filled {typed filled : Registry}
    (htyped : c.extensions.values.foldlM Registry.addTypes (.empty c.platform) = .ok typed)
    (hfilled : c.groups.foldlM Registry.addDeclared typed = .ok filled) (key : FunctionKey)
    (s : Signature) : filled.find? key = some s ↔ (key, s) ∈ c.functionBindings := by
  -- the first round brings no functions, so what is found is from the second
  have hnone := (c.addTypes_adds.keeps _ _ (Registry.untouched_empty _) htyped).find? key
  rw [c.addDeclared_adds.look_iff _ _ (registered_owners htyped) hfilled, hnone]
  exact or_iff_right fun h => Option.some_ne_none s h.symm

end Catalog

/-! ## Building -/

namespace Registry

/-- The rounds of building. -/
theorem ofCatalog_eq_ok_iff {c : Catalog} {r : Registry} {warnings : List RegistryWarning} :
    ofCatalog c = .ok (r, warnings) ↔
      ∃ typed filled, c.extensions.values.foldlM addTypes (empty c.platform) = .ok typed
        ∧ c.groups.foldlM addDeclared typed = .ok filled
        ∧ c.groups.foldl addDuplicates (filled, []) = (r, warnings) := by
  constructor
  · intro h
    obtain ⟨typed, htyped, h⟩ := bind_eq_ok_iff.mp h
    obtain ⟨filled, hfilled, h⟩ := bind_eq_ok_iff.mp h
    exact ⟨typed, filled, htyped, hfilled, Except.ok.inj h⟩
  · rintro ⟨typed, filled, htyped, hfilled, h⟩
    exact bind_eq_ok_iff.mpr ⟨typed, htyped, bind_eq_ok_iff.mpr ⟨filled, hfilled, by rw [h]; rfl⟩⟩

/-- A catalog can be built exactly if no two of its declarations have one key and every function has
a name. -/
theorem ofCatalog_succeeds_iff (c : Catalog) :
    (∃ r warnings, ofCatalog c = .ok (r, warnings)) ↔ c.Buildable := by
  have huntouched := untouched_empty c.platform
  constructor
  · rintro ⟨r, warnings, h⟩
    obtain ⟨typed, filled, htyped, hfilled, -⟩ := ofCatalog_eq_ok_iff.mp h
    have howners := Catalog.registered_owners htyped
    obtain ⟨-, htypes, -⟩ := (c.addTypes_adds.succeeds_iff _ huntouched).mp ⟨typed, htyped⟩
    obtain ⟨hnamed, hfunctions, -⟩ :=
      (c.addDeclared_adds.succeeds_iff typed howners).mp ⟨filled, hfilled⟩
    exact ⟨htypes, hnamed, hfunctions⟩
  · rintro ⟨htypes, hnamed, hfunctions⟩
    -- no name is taken at the start, so the first round succeeds, and the second finds no function
    obtain ⟨typed, htyped⟩ := (c.addTypes_adds.succeeds_iff _ huntouched).mpr
      ⟨trivial, htypes, fun _ h => Catalog.get?_empty_of_mem_typeBindings h c.platform⟩
    have howners := Catalog.registered_owners htyped
    have hnone := (c.addTypes_adds.keeps _ _ huntouched htyped).find?
    obtain ⟨filled, hfilled⟩ := (c.addDeclared_adds.succeeds_iff typed howners).mpr
      ⟨hnamed, hfunctions, fun key _ => hnone key⟩
    exact ⟨_, _, ofCatalog_eq_ok_iff.mpr ⟨typed, filled, htyped, hfilled, rfl⟩⟩

end Registry

end EventSheet
