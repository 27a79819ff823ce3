import EventSheet.Proofs.Registry.Answers
import EventSheet.Proofs.Registry.Representation

/-!
What a registration leaves alone.

Every question that can be put to a registry is about its types or about the functions at some keys.
So it is enough to know which keys and which types a registration touches. One that puts a function
at a key leaves all answers that do not ask for that key (`Registry.AgreeBut`); the base types are
where care is needed, because a look-up for one owner may end at a key of another
(`FunctionKey.IsAskedFor`). One that adds a type leaves all answers about other types, and all about
functions (`Registry.AddsOwner`).
-/

set_option autoImplicit false

namespace EventSheet

/-- A look-up of a name for an owner comes by a key. -/
def FunctionKey.IsAskedFor (key : FunctionKey) (kind : Kind) (owner : Owner) (name : String) :
    Prop :=
  ∃ o ∈ Registry.lookupOwners owner, (⟨o, kind, name⟩ : FunctionKey) = key

/-- The key that a registration would put a function at. -/
def Registration.key? : Registration → Option FunctionKey
  | .object _ _ _ _ | .behavior _ => none
  | .function owner kind signature => some ⟨owner, kind, signature.name⟩
  | .copy owner kind newName _ => some ⟨owner, kind, newName⟩

namespace Registry

variable {r r' : Registry}

/-! ## What the questions read -/

/-- The functions listed for an owner are the values of a map that has what is found. -/
theorem exists_functionsIn_eq_values (r : Registry) (kind : Kind) (owner : Owner) :
    ∃ m : NameMap Signature, r.functionsIn kind owner = m.values
      ∧ ∀ name, m.get? name = r.find? ⟨owner, kind, name⟩ := by
  rcases htable : r.functions? owner with _ | table
  · refine ⟨.empty, ?_, fun name => ?_⟩
    · rw [functionsIn, htable]
      rfl
    · rw [find?, declared?, htable]
      rfl
  · have hfind : ∀ name, r.find? ⟨owner, kind, name⟩ = (table.get kind).get? name :=
      fun name => find?_eq htable
    exact ⟨table.get kind, functionsIn_eq htable, fun name => (hfind name).symm⟩

/-- What is listed for an owner depends only on what is found at its keys. -/
theorem functionsIn_congr {kind : Kind} {owner : Owner}
    (h : ∀ name, r.find? ⟨owner, kind, name⟩ = r'.find? ⟨owner, kind, name⟩) :
    r.functionsIn kind owner = r'.functionsIn kind owner := by
  obtain ⟨m, hm, hget⟩ := r.exists_functionsIn_eq_values kind owner
  obtain ⟨m', hm', hget'⟩ := r'.exists_functionsIn_eq_values kind owner
  have hsame : m = m' := NameMap.ext_get? fun name => by rw [hget, hget', h]
  rw [hm, hm', hsame]

/-- A look-up depends only on what is found at the keys it comes by. -/
theorem lookup_congr {kind : Kind} {owner : Owner} {name : String}
    (h : ∀ o ∈ lookupOwners owner, r.find? ⟨o, kind, name⟩ = r'.find? ⟨o, kind, name⟩) :
    r.lookup kind owner name = r'.lookup kind owner name := by
  have hown := h owner (mem_lookupOwners_iff.mpr (Or.inl rfl))
  have hbase := h owner.base (mem_lookupOwners_iff.mpr (Or.inr rfl))
  rw [lookup_eq, lookup_eq]
  exact congrArg₂ Option.or hown hbase

/-- Capabilities are said of a type without its functions. -/
theorem capabilities_eq (r : Registry) (type : String) :
    r.capabilities type = ((r.bareType? type).map fun t => t.capabilities.names).getD [] := by
  unfold capabilities bareType?
  rcases r.object? type with _ | t <;> rfl

/-- What an object is made of is said of its type without its functions. -/
theorem create?_eq_bare (r : Registry) (type name : String) :
    r.create? type name = (r.bareType? type).bind fun t =>
      t.blueprint.map fun properties => ⟨name, type, properties⟩ := by
  rw [create?_eq, bareType?, Option.bind_map]
  rfl

/-- Without their functions, the types listed are those of the table without functions. -/
theorem map_bare_objectTypes (r : Registry) :
    r.objectTypes.map ObjectType.bare
      = (r.objects.mapValues ObjectType.bare).values.filter fun t => t.name ≠ "" := by
  rw [NameMap.values_mapValues, objectTypes, List.filter_map]
  rfl

/-- Registries with the same types list the same, but for the functions. -/
theorem SameTypes.map_bare_objectTypes (h : r.SameTypes r') :
    r.objectTypes.map ObjectType.bare = r'.objectTypes.map ObjectType.bare := by
  have hsame : r.objects.mapValues ObjectType.bare = r'.objects.mapValues ObjectType.bare := by
    apply NameMap.ext_get?
    intro type
    rw [NameMap.get?_mapValues, NameMap.get?_mapValues]
    exact h.objects type
  rw [Registry.map_bare_objectTypes, Registry.map_bare_objectTypes, hsame]

/-! ## Counting -/

/-- The keys of a registry as a set. -/
theorem mem_toFinset_functionKeys_iff (h : r.WellFormed) {key : FunctionKey} :
    key ∈ r.functionKeys.toFinset ↔ r.find? key ≠ none := by
  rw [List.mem_toFinset, mem_functionKeys_iff h]

/-- Registries that find the same have equally many functions. -/
theorem functionCount_congr (h : r.WellFormed) (h' : r'.WellFormed)
    (hfind : ∀ key, r.find? key = r'.find? key) : r.functionCount = r'.functionCount := by
  have hkeys : ∀ key, key ∈ r.functionKeys.toFinset ↔ r'.find? key ≠ none := by
    intro key
    rw [mem_toFinset_functionKeys_iff h, hfind]
  rw [functionCount_eq_card h fun _ => mem_toFinset_functionKeys_iff h,
    functionCount_eq_card h' hkeys]

/-- With a function at a key there is one more than before, unless there was one at that key. -/
theorem functionCount_of_find? (h : r.WellFormed) (h' : r'.WellFormed) {key : FunctionKey}
    {signature : Signature} (hfind : ∀ other, r'.find? other
      = if key = other then some signature else r.find? other) :
    r'.functionCount = r.functionCount + if r.find? key = none then 1 else 0 := by
  -- the keys are those from before, and this one
  have hkeys : ∀ other, other ∈ insert key r.functionKeys.toFinset ↔ r'.find? other ≠ none := by
    intro other
    rw [Finset.mem_insert, mem_toFinset_functionKeys_iff h, hfind]
    by_cases hkey : key = other
    · rw [if_pos hkey]
      exact iff_of_true (Or.inl hkey.symm) (Option.some_ne_none signature)
    · rw [if_neg hkey]
      exact or_iff_right (Ne.symm hkey)
  rw [functionCount_eq_card h' hkeys,
    functionCount_eq_card h fun _ => mem_toFinset_functionKeys_iff h]
  -- one more key, unless it was among them
  by_cases hnone : r.find? key = none
  · have hnew : key ∉ r.functionKeys.toFinset := by
      rw [mem_toFinset_functionKeys_iff h]
      exact not_not_intro hnone
    rw [Finset.card_insert_of_notMem hnew, if_pos hnone]
  · have hold : key ∈ r.functionKeys.toFinset := (mem_toFinset_functionKeys_iff h).mpr hnone
    rw [Finset.insert_eq_of_mem hold, if_neg hnone, Nat.add_zero]

/-! ## One key -/

/-- Two registries answer alike whatever does not ask for the function at a key. -/
structure AgreeBut (key : FunctionKey) (r r' : Registry) : Prop where
  platform : r.platform = r'.platform
  find? : ∀ other, other ≠ key → r.find? other = r'.find? other
  lookup : ∀ kind owner name, ¬ key.IsAskedFor kind owner name →
    r.lookup kind owner name = r'.lookup kind owner name
  /-- A key of a base is asked for only where an owner has no function of its own. -/
  lookup_own : ∀ kind owner name, (⟨owner, kind, name⟩ : FunctionKey) ≠ key →
    r.find? ⟨owner, kind, name⟩ ≠ none → r.lookup kind owner name = r'.lookup kind owner name
  namesInScope : ∀ kind owner, (∀ name, ¬ key.IsAskedFor kind owner name) →
    r.namesInScope kind owner = r'.namesInScope kind owner
  mem_namesInScope : ∀ kind owner name, ¬ key.IsAskedFor kind owner name →
    (name ∈ r.namesInScope kind owner ↔ name ∈ r'.namesInScope kind owner)
  functionsIn : ∀ kind owner, (∀ name, (⟨owner, kind, name⟩ : FunctionKey) ≠ key) →
    r.functionsIn kind owner = r'.functionsIn kind owner
  mem_functionsIn : ∀ kind owner signature,
    (⟨owner, kind, signature.name⟩ : FunctionKey) ≠ key →
    (signature ∈ r.functionsIn kind owner ↔ signature ∈ r'.functionsIn kind owner)
  /-- A type of objects carries its functions; beside them it is the same. -/
  object? : ∀ type, (r.object? type).map ObjectType.bare = (r'.object? type).map ObjectType.bare
  objectTypes : r.objectTypes.map ObjectType.bare = r'.objectTypes.map ObjectType.bare
  capabilities : ∀ type, r.capabilities type = r'.capabilities type
  create? : ∀ type name, r.create? type name = r'.create? type name
  hasBehavior : ∀ type, r.hasBehavior type = r'.hasBehavior type

/-- Registries with the same types and the same functions but at one key agree but for that key. -/
theorem agreeBut_of_find? (h : r.WellFormed) (h' : r'.WellFormed) (htypes : r.SameTypes r')
    {key : FunctionKey} (hfind : ∀ other, other ≠ key → r.find? other = r'.find? other) :
    AgreeBut key r r' := by
  -- a look-up that does not come by the key reads the same
  have hasked : ∀ {kind owner name}, ¬ key.IsAskedFor kind owner name →
      ∀ o ∈ lookupOwners owner, r.find? ⟨o, kind, name⟩ = r'.find? ⟨o, kind, name⟩ := by
    intro kind owner name hnot o ho
    apply hfind
    intro heq
    exact hnot ⟨o, ho, heq⟩
  exact {
    platform := htypes.platform
    find? := hfind
    lookup := fun kind owner name hnot => lookup_congr (hasked hnot)
    lookup_own := by
      intro kind owner name hne hown
      obtain ⟨signature, hsignature⟩ := Option.ne_none_iff_exists'.mp hown
      rw [lookup_of_find? hsignature, lookup_of_find? ((hfind _ hne).symm.trans hsignature)]
    namesInScope := by
      intro kind owner hnot
      apply namesInScope_congr
      intro o ho name
      rw [hasked (hnot name) o ho]
    mem_namesInScope := by
      intro kind owner name hnot
      rw [mem_namesInScope_iff, mem_namesInScope_iff]
      refine exists_congr fun o => and_congr_right fun ho => ?_
      rw [hasked hnot o ho]
    functionsIn := fun kind owner hne => functionsIn_congr fun name => hfind _ (hne name)
    mem_functionsIn := by
      intro kind owner signature hne
      rw [mem_functionsIn_iff h, mem_functionsIn_iff h', hfind _ hne]
    object? := htypes.objects
    objectTypes := htypes.map_bare_objectTypes
    capabilities := by
      intro type
      rw [capabilities_eq, capabilities_eq, htypes.objects]
    create? := by
      intro type name
      rw [create?_eq_bare, create?_eq_bare, htypes.objects]
    hasBehavior := htypes.behaviors }

/-- A registry comes from another by putting a function at a key, and by nothing else. -/
structure Puts (key : FunctionKey) (signature : Signature) (r r' : Registry) : Prop where
  here : r'.find? key = some signature
  lookup : r'.lookup key.kind key.owner key.name = some signature
  namesInScope : key.name ∈ r'.namesInScope key.kind key.owner
  functionsIn : ∀ s : Signature, s.name = key.name →
    (s ∈ r'.functionsIn key.kind key.owner ↔ s = signature)
  elsewhere : AgreeBut key r r'
  functionCount : r'.functionCount = r.functionCount + if r.find? key = none then 1 else 0

/-- Registries with the same types, of which the later one finds a function at a key and else what
was found before, differ by that function alone. -/
theorem puts_of_find? (h : r.WellFormed) (h' : r'.WellFormed) (htypes : r.SameTypes r')
    {key : FunctionKey} {signature : Signature}
    (hfind : ∀ other, r'.find? other = if key = other then some signature else r.find? other) :
    Puts key signature r r' := by
  have hhere : r'.find? key = some signature := by rw [hfind, if_pos rfl]
  exact {
    here := hhere
    lookup := lookup_of_find? hhere
    namesInScope := by
      -- an owner's own key is one of those that its scope asks for
      have hown : key.owner ∈ lookupOwners key.owner := mem_lookupOwners_iff.mpr (Or.inl rfl)
      rw [mem_namesInScope_iff]
      exact ⟨key.owner, hown, hhere ▸ Option.some_ne_none signature⟩
    functionsIn := by
      intro s hname
      rw [mem_functionsIn_iff h', hname]
      show r'.find? key = some s ↔ s = signature
      rw [hhere, Option.some.injEq]
      exact eq_comm
    elsewhere := by
      apply agreeBut_of_find? h h' htypes
      intro other hne
      rw [hfind, if_neg (Ne.symm hne)]
    functionCount := functionCount_of_find? h h' hfind }

/-! ## One type -/

/-- A registry comes from another by adding an owner without functions. -/
structure AddsOwner (owner : Owner) (r r' : Registry) : Prop where
  new : ¬ r.Registered owner
  registered : ∀ o, r'.Registered o ↔ r.Registered o ∨ o = owner
  empty : ∀ kind, r'.functionsIn kind owner = []
  platform : r.platform = r'.platform
  find? : ∀ key, r.find? key = r'.find? key
  lookup : ∀ kind o name, r.lookup kind o name = r'.lookup kind o name
  namesInScope : ∀ kind o, r.namesInScope kind o = r'.namesInScope kind o
  functionsIn : ∀ kind o, r.functionsIn kind o = r'.functionsIn kind o
  functionCount : r.functionCount = r'.functionCount
  object? : ∀ type, owner ≠ .object type → r.object? type = r'.object? type
  objectTypes : ∀ t, owner ≠ .object t.name → (t ∈ r.objectTypes ↔ t ∈ r'.objectTypes)
  capabilities : ∀ type, owner ≠ .object type → r.capabilities type = r'.capabilities type
  create? : ∀ type name, owner ≠ .object type → r.create? type name = r'.create? type name
  hasBehavior : ∀ type, owner ≠ .behavior type → r.hasBehavior type = r'.hasBehavior type

/-- Registries that find the same functions, of which the later one has one more owner, differ by
that owner alone. -/
theorem addsOwner_of_registered (h : r.WellFormed) (h' : r'.WellFormed) {owner : Owner}
    (hnew : ¬ r.Registered owner) (hplatform : r.platform = r'.platform)
    (hregistered : ∀ o, r'.Registered o ↔ r.Registered o ∨ o = owner)
    (hfind : ∀ key, r.find? key = r'.find? key)
    (hobject : ∀ type, owner ≠ .object type → r.object? type = r'.object? type) :
    AddsOwner owner r r' := by
  -- the new owner finds nothing, so nothing that is said of functions changes
  have hfunctions : ∀ kind o, r.functionsIn kind o = r'.functionsIn kind o :=
    fun kind o => functionsIn_congr fun name => hfind _
  exact {
    new := hnew
    registered := hregistered
    empty := fun kind => (hfunctions kind owner).symm.trans (functionsIn_eq_nil hnew)
    platform := hplatform
    find? := hfind
    lookup := fun kind o name => lookup_congr fun _ _ => hfind _
    namesInScope := fun kind o => namesInScope_congr fun _ _ _ => by rw [hfind]
    functionsIn := hfunctions
    functionCount := functionCount_congr h h' hfind
    object? := hobject
    objectTypes := by
      intro t hne
      rw [mem_objectTypes_iff h, mem_objectTypes_iff h', hobject t.name hne]
    capabilities := by
      intro type hne
      rw [capabilities_eq, capabilities_eq, bareType?, bareType?, hobject type hne]
    create? := by
      intro type name hne
      rw [create?_eq, create?_eq, hobject type hne]
    hasBehavior := by
      intro type hne
      rw [Bool.eq_iff_iff, hasBehavior_iff, hasBehavior_iff, hregistered]
      exact (or_iff_left (Ne.symm hne)).symm }

/-! ## Each operation -/

/-- A new type of objects is found under its name, and the others as before. -/
theorem object?_withObject (r : Registry) (t : ObjectType) (type : String) :
    (r.withObject t).object? type = if t.name = type then some t else r.object? type :=
  NameMap.get?_insert r.objects t.name t type

/-- A new type of objects brings nothing but itself. -/
theorem addsOwner_addObject (hr : r.Reachable) {name description : String}
    {capabilities : List String} {blueprint : Option (NameMap Json)}
    (h : r.addObject name description capabilities blueprint = .ok r') :
    AddsOwner (.object name) r r'
      ∧ r'.object? name = some ⟨name, description, .ofNames capabilities, .empty, blueprint⟩ := by
  have h' := (hr.addObject h).wellFormed
  obtain ⟨hnone, rfl⟩ := addObject_eq_ok_iff.mp h
  have hnew : ¬ r.Registered (.object name) := by
    intro hregistered
    obtain ⟨t, ht⟩ := registered_object_iff.mp hregistered
    rw [hnone] at ht
    cases ht
  constructor
  · apply addsOwner_of_registered hr.wellFormed h' hnew rfl
    · exact fun o => registered_withObject_iff
    · exact fun key => (find?_withObject hnone rfl key).symm
    · intro type hne
      have hother : name ≠ type := fun heq => hne (congrArg Owner.object heq)
      rw [object?_withObject, if_neg hother]
  · rw [object?_withObject, if_pos rfl]

/-- A type of behaviors that is registered again stays as it is, with its functions. -/
theorem addBehavior_of_hasBehavior {name : String} (h : r.hasBehavior name = true) :
    r.addBehavior name = r :=
  if_pos h

/-- A new type of behaviors brings nothing but itself. -/
theorem addsOwner_addBehavior (hr : r.Reachable) {name : String}
    (h : r.hasBehavior name = false) : AddsOwner (.behavior name) r (r.addBehavior name) := by
  have h' : (r.addBehavior name).WellFormed := (hr.register (.behavior name)).wellFormed
  have hnew : ¬ r.Registered (.behavior name) := by
    rw [← hasBehavior_iff, h]
    exact Bool.false_ne_true
  have hplatform : r.platform = (r.addBehavior name).platform := by
    unfold addBehavior
    split <;> rfl
  apply addsOwner_of_registered hr.wellFormed h' hnew hplatform
  · exact fun o => registered_addBehavior_iff
  · exact fun key => (r.find?_addBehavior name key).symm
  · intro type _
    rw [object?, object?, addBehavior_objects]

/-- A function that is not refused is put at its key, and nothing else changes. -/
theorem puts_addFunction (hr : r.Reachable) {owner : Owner} {kind : Kind} {signature : Signature}
    (h : r.addFunction owner kind signature = .ok r') :
    Puts ⟨owner, kind, signature.name⟩ signature r r' :=
  puts_of_find? hr.wellFormed (hr.addFunction h).wellFormed (sameTypes_addFunction h)
    (find?_addFunction h)

/-- A copy with a source is put at its own key, and nothing else changes. -/
theorem puts_duplicateEntry (hr : r.Reachable) {owner : Owner} {kind : Kind}
    {newName existing : String} {source : Signature}
    (h : r.find? ⟨owner, kind, existing⟩ = some source) :
    Puts ⟨owner, kind, newName⟩ { source with name := newName } r
      (r.duplicateEntry owner kind newName existing).1 := by
  have h' : (r.duplicateEntry owner kind newName existing).1.WellFormed :=
    (hr.register (.copy owner kind newName existing)).wellFormed
  apply puts_of_find? hr.wellFormed h' (r.sameTypes_duplicateEntry owner kind newName existing)
  intro other
  rw [find?_duplicateEntry, h, Option.map_some, Option.some_or]

/-! ## Later registrations -/

/-- A registration changes what is found at no key but its own. -/
theorem find?_register_of_key?_ne (r : Registry) {x : Registration} {key : FunctionKey}
    (h : x.key? ≠ some key) : (r.register x).find? key = r.find? key := by
  cases x with
  | object name description capabilities blueprint =>
    exact r.find?_orKeep_addObject name description capabilities blueprint key
  | behavior name => exact r.find?_addBehavior name key
  | function owner kind signature =>
    have hne : (⟨owner, kind, signature.name⟩ : FunctionKey) ≠ key := fun heq =>
      h (congrArg some heq)
    rw [register]
    rcases hresult : r.addFunction owner kind signature with e | r'
    · rfl
    · rw [orKeep, find?_addFunction hresult, if_neg hne]
  | copy owner kind newName existing =>
    have hne : (⟨owner, kind, newName⟩ : FunctionKey) ≠ key := fun heq => h (congrArg some heq)
    rw [register, find?_duplicateEntry, if_neg hne]

/-- What is found at a key stays through registrations at other keys. -/
theorem find?_foldl_register (r : Registry) {later : List Registration} {key : FunctionKey}
    (h : ∀ x ∈ later, x.key? ≠ some key) : (later.foldl register r).find? key = r.find? key := by
  -- registration by registration: none of them is at the key
  induction later generalizing r with
  | nil => rfl
  | cons x later ih =>
    rw [List.foldl_cons, ih (r.register x) fun y hy => h y (List.mem_cons_of_mem x hy)]
    exact r.find?_register_of_key?_ne (h x List.mem_cons_self)

/-- A copy that warns changes nothing, and one that has a source does not warn. -/
theorem duplicateEntry_warnings (r : Registry) (owner : Owner) (kind : Kind)
    (newName existing : String) :
    ((r.duplicateEntry owner kind newName existing).2 ≠ [] →
        (r.duplicateEntry owner kind newName existing).1 = r)
      ∧ ((r.duplicateEntry owner kind newName existing).2 = []
        ↔ r.find? ⟨owner, kind, existing⟩ ≠ none) := by
  rcases r.duplicateEntry_cases owner kind newName existing with
    ⟨hsource, w, hsame, -⟩ | ⟨table, signature, -, hsource, hcopied⟩
  · rw [hsame, hsource]
    exact ⟨fun _ => rfl, iff_of_false (List.cons_ne_nil w []) (not_not_intro rfl)⟩
  · rw [hcopied, hsource]
    exact ⟨fun hne => absurd rfl hne, iff_of_true rfl (Option.some_ne_none signature)⟩

/-- **Registrations are atomic and local.** Whatever has been registered: one that fails, or warns,
leaves the registry as it is. A new function is found at its key, where none was, and a copy at its
own, as its source was but for the name; nothing is different elsewhere, and later neither of the
two names follows a change of the other. A new type has no functions and touches nothing else, and a
type of behaviors that is registered again keeps its functions. -/
theorem run_operations (platform : String) (registrations : List Registration) :
    let r := run platform registrations
    (∀ name description capabilities blueprint,
        (∀ e, r.addObject name description capabilities blueprint = .error e →
          r.register (.object name description capabilities blueprint) = r)
        ∧ ∀ r', r.addObject name description capabilities blueprint = .ok r' →
          AddsOwner (.object name) r r' ∧ r'.object? name
            = some ⟨name, description, .ofNames capabilities, .empty, blueprint⟩)
      ∧ (∀ name,
        (r.hasBehavior name = true → r.addBehavior name = r)
        ∧ (r.hasBehavior name = false → AddsOwner (.behavior name) r (r.addBehavior name)))
      ∧ (∀ owner kind signature,
        (∀ e, r.addFunction owner kind signature = .error e →
          r.register (.function owner kind signature) = r)
        ∧ ∀ r', r.addFunction owner kind signature = .ok r' →
          r.find? ⟨owner, kind, signature.name⟩ = none
            ∧ Puts ⟨owner, kind, signature.name⟩ signature r r'
            ∧ r'.functionCount = r.functionCount + 1)
      ∧ ∀ owner kind newName existing,
        let copied := r.duplicateEntry owner kind newName existing
        (copied.2 ≠ [] → copied.1 = r)
          ∧ (copied.2 = [] ↔ r.find? ⟨owner, kind, existing⟩ ≠ none)
          ∧ ∀ source, r.find? ⟨owner, kind, existing⟩ = some source →
            Puts ⟨owner, kind, newName⟩ { source with name := newName } r copied.1
              ∧ ∀ name ∈ [newName, existing], ∀ later : List Registration,
                (∀ x ∈ later, x.key? ≠ some ⟨owner, kind, name⟩) →
                (later.foldl register copied.1).find? ⟨owner, kind, name⟩
                  = copied.1.find? ⟨owner, kind, name⟩ := by
  intro r
  have hr : r.Reachable := reachable_run platform registrations
  refine ⟨fun name description capabilities blueprint => ⟨fun e he => ?_, fun r' h => ?_⟩,
    fun name => ⟨addBehavior_of_hasBehavior, addsOwner_addBehavior hr⟩,
    fun owner kind signature => ⟨fun e he => ?_, fun r' h => ?_⟩,
    fun owner kind newName existing => ?_⟩
  · rw [register, he, orKeep]
  · exact addsOwner_addObject hr h
  · rw [register, he, orKeep]
  · obtain ⟨-, -, -, hnone, -⟩ := addFunction_eq_ok_iff.mp h
    have hputs := puts_addFunction hr h
    have hcount := hputs.functionCount
    rw [if_pos hnone] at hcount
    exact ⟨hnone, hputs, hcount⟩
  · intro copied
    obtain ⟨hwarns, hsource⟩ := r.duplicateEntry_warnings owner kind newName existing
    refine ⟨hwarns, hsource, fun source hfound => ⟨puts_duplicateEntry hr hfound, ?_⟩⟩
    intro name _ later hlater
    exact copied.1.find?_foldl_register hlater

/-- A copy of the only function, under another name. -/
theorem run_operations_copy :
    let power : Signature := ⟨"Pow", "number", [], none, .global, ""⟩
    let r := run "game" [.function .global .expression power]
    let copied := r.duplicateEntry .global .expression "Power" "Pow"
    r.find? ⟨.global, .expression, "Pow"⟩ = some power
      ∧ Puts ⟨.global, .expression, "Power"⟩ { power with name := "Power" } r copied.1
      ∧ copied.1.functionCount = 2 := by
  intro power r copied
  have hsource : r.find? ⟨.global, .expression, "Pow"⟩ = some power := rfl
  obtain ⟨-, -, -, hcopy⟩ := run_operations "game" [.function .global .expression power]
  obtain ⟨-, -, hputs⟩ := hcopy .global .expression "Power" "Pow"
  exact ⟨hsource, (hputs power hsource).1, (hputs power hsource).1.functionCount⟩

end Registry

end EventSheet
