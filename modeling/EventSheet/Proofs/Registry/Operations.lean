import EventSheet.Proofs.Bindings
import EventSheet.Proofs.Registry.Lookup
import EventSheet.Registry.Registration

/-!
What each registration changes.

For every operation on registries one lemma says when it succeeds and which registry it gives, and
others say what can be found there afterwards. Functions are found by owner, kind and name
(`FunctionKey`, `Registry.find?`). An operation on one key leaves all others alone, and no operation
takes away an owner.
-/

set_option autoImplicit false

namespace EventSheet

/-! ## Tables -/

namespace ByKind

variable {α : Type}

theorem get_empty (kind : Kind) : (empty : ByKind α).get kind = .empty := by
  cases kind <;> rfl

/-- An entry is set in the table of its kind; the other two stay as they are. -/
theorem get_insert (t : ByKind α) (kind : Kind) (name : String) (value : α) (kind' : Kind) :
    (t.insert kind name value).get kind'
      = if kind = kind' then (t.get kind').insert name value else t.get kind' := by
  cases kind <;> cases kind' <;> rfl

/-- Setting an entry changes what is found under its kind and name only. -/
theorem get?_insert (t : ByKind α) (kind : Kind) (name : String) (value : α) (kind' : Kind)
    (name' : String) :
    ((t.insert kind name value).get kind').get? name'
      = if kind = kind' ∧ name = name' then some value else (t.get kind').get? name' := by
  rw [get_insert]
  by_cases hkind : kind = kind'
  · rw [if_pos hkind, NameMap.get?_insert]
    simp only [hkind, true_and]
  · rw [if_neg hkind, if_neg fun h => hkind h.1]

end ByKind

/-! ## Keys of functions -/

/-- Where a function is registered. -/
structure FunctionKey where
  /-- The owner of the function. -/
  owner : Owner
  /-- What the function is for. -/
  kind : Kind
  /-- Its qualified name. -/
  name : String
deriving DecidableEq

/-- Why no function can be registered at a key. -/
def FunctionKey.fault (key : FunctionKey) : RegistryError :=
  if key.name = "" then .emptyFunctionName key.owner
  else .duplicateFunction key.kind key.name key.owner

namespace Registry

/-- The function at a key. -/
def find? (r : Registry) (key : FunctionKey) : Option Signature :=
  r.declared? key.kind key.owner key.name

/-- The registry with one more type of objects. -/
def withObject (r : Registry) (t : ObjectType) : Registry :=
  { r with objects := r.objects.insert t.name t }

/-- An owner that functions can be registered for. -/
def Registered (r : Registry) (owner : Owner) : Prop := ∃ table, r.functions? owner = some table

/-- A function is found in the table of its owner. -/
theorem find?_eq {r : Registry} {key : FunctionKey} {table : FunctionTable}
    (h : r.functions? key.owner = some table) :
    r.find? key = (table.get key.kind).get? key.name := by
  rw [find?, declared?, h, Option.bind_some]

/-! ## Owners and their tables -/

theorem registered_global (r : Registry) : r.Registered .global := ⟨r.free, rfl⟩

/-- Functions can be registered for a type of objects exactly if the type is. -/
theorem registered_object_iff {r : Registry} {type : String} :
    r.Registered (.object type) ↔ ∃ t, r.objects.get? type = some t := by
  unfold Registered functions?
  constructor
  · rintro ⟨table, h⟩
    obtain ⟨t, ht, -⟩ := Option.map_eq_some_iff.mp h
    exact ⟨t, ht⟩
  · rintro ⟨t, ht⟩
    exact ⟨t.functions, Option.map_eq_some_iff.mpr ⟨t, ht, rfl⟩⟩

/-- Only an owner without a table makes an operation fail before it looks for the function. -/
theorem functionsOf_eq_ok_iff {r : Registry} {owner : Owner} {table : FunctionTable} :
    r.functionsOf owner = .ok table ↔ r.functions? owner = some table := by
  unfold functionsOf
  rcases hfunctions : r.functions? owner with _ | found
  · cases owner with
    | global => exact absurd hfunctions (Option.some_ne_none _)
    | object type | behavior type => simp
  · simp

/-- Replacing the table of a registered owner changes no other one. -/
theorem functions?_setFunctions {r : Registry} {owner : Owner} (h : r.Registered owner)
    (table : FunctionTable) (owner' : Owner) :
    (r.setFunctions owner table).functions? owner'
      = if owner = owner' then some table else r.functions? owner' := by
  cases owner with
  | global => cases owner' <;> simp [setFunctions, functions?]
  | object type =>
    -- a type of objects holds its table among other things, which are kept
    obtain ⟨t, ht⟩ := registered_object_iff.mp h
    cases owner' with
    | object type' =>
      simp only [setFunctions, ht, functions?, NameMap.get?_insert, Owner.object.injEq]
      split <;> rfl
    | global | behavior type' => simp [setFunctions, ht, functions?]
  | behavior type =>
    cases owner' with
    | behavior type' =>
      simp only [setFunctions, functions?, NameMap.get?_insert, Owner.behavior.injEq]
    | global | object type' => simp [setFunctions, functions?]

/-- Setting one entry of an owner's table changes what is found at its key only. -/
theorem find?_setFunctions_insert {r : Registry} (key : FunctionKey) {table : FunctionTable}
    (h : r.functions? key.owner = some table) (signature : Signature) (key' : FunctionKey) :
    (r.setFunctions key.owner (table.insert key.kind key.name signature)).find? key'
      = if key = key' then some signature else r.find? key' := by
  obtain ⟨owner, kind, name⟩ := key
  obtain ⟨owner', kind', name'⟩ := key'
  rw [find?, declared?, functions?_setFunctions ⟨table, h⟩]
  -- the table of another owner is not touched, and in the same one only the entry is
  by_cases howner : owner = owner'
  · subst howner
    have hbefore : r.find? ⟨owner, kind', name'⟩ = (table.get kind').get? name' := find?_eq h
    rw [if_pos rfl, Option.bind_some, ByKind.get?_insert, hbefore]
    simp only [FunctionKey.mk.injEq, true_and]
  · rw [if_neg howner, if_neg fun heq => howner (congrArg FunctionKey.owner heq)]
    rfl

/-- No owner is lost where a table is replaced. -/
theorem registered_setFunctions {r : Registry} {owner owner' : Owner} (h : r.Registered owner)
    (h' : r.Registered owner') (table : FunctionTable) :
    (r.setFunctions owner table).Registered owner' := by
  unfold Registered
  rw [functions?_setFunctions h]
  by_cases howner : owner = owner'
  · exact ⟨table, if_pos howner⟩
  · rw [if_neg howner]
    exact h'

/-- Replacing the table of an owner changes nothing else about a type of objects. -/
theorem object?_setFunctions (r : Registry) (owner : Owner) (table : FunctionTable)
    (type : String) :
    (r.setFunctions owner table).object? type
      = (r.object? type).map fun t =>
          if owner = .object type then { t with functions := table } else t := by
  unfold object?
  cases owner with
  | global | behavior type' => simp [setFunctions]
  | object type' =>
    -- a type that is not there is not added either
    rcases ht : r.objects.get? type' with _ | t
    · by_cases htype : type' = type
      · rw [← htype]
        simp [setFunctions, ht]
      · simp [setFunctions, ht, htype]
    · by_cases htype : type' = type
      · rw [← htype]
        simp [setFunctions, ht]
      · simp [setFunctions, ht, htype, NameMap.get?_insert]

/-- A type of behaviors is registered as an owner is. -/
theorem hasBehavior_iff {r : Registry} {type : String} :
    r.hasBehavior type = true ↔ r.Registered (.behavior type) :=
  Option.isSome_iff_exists

/-! ## The empty registry -/

/-- The registry that a platform starts with has no function. -/
theorem find?_empty (platform : String) (key : FunctionKey) :
    (empty platform).find? key = none := by
  obtain ⟨owner, kind, name⟩ := key
  -- the two base types have tables, but empty ones
  have hnone : ∀ table, (empty platform).functions? owner = some table → table = .empty := by
    intro table h
    cases owner with
    | global => exact (Option.some.inj h).symm
    | object type =>
      simp only [empty, functions?, NameMap.get?_insert, NameMap.get?_empty] at h
      split at h
      · exact (Option.some.inj h).symm
      · exact absurd h.symm (Option.some_ne_none _)
    | behavior type =>
      simp only [empty, functions?, NameMap.get?_insert, NameMap.get?_empty] at h
      split at h
      · exact (Option.some.inj h).symm
      · exact absurd h.symm (Option.some_ne_none _)
  rcases hfunctions : (empty platform).functions? owner with _ | table
  · rw [find?, declared?, hfunctions, Option.bind_none]
  · rw [find?_eq hfunctions, hnone table hfunctions, ByKind.get_empty, NameMap.get?_empty]

/-! ## Types -/

/-- Registering a type of objects succeeds exactly if there is none of that name. The new type has
no functions. -/
theorem addObject_eq_ok_iff {r r' : Registry} {name description : String}
    {capabilities : List String} {blueprint : Option (NameMap Json)} :
    r.addObject name description capabilities blueprint = .ok r' ↔
      r.objects.get? name = none ∧ r' = r.withObject
        ⟨name, description, .ofNames capabilities, .empty, blueprint⟩ := by
  unfold addObject NameMap.contains
  rcases hname : r.objects.get? name with _ | t
  · simp only [Option.isSome_none, Bool.false_eq_true, if_false, Except.ok.injEq, true_and]
    exact eq_comm
  · simp only [Option.isSome_some, if_true, reduceCtorEq, false_and]

/-- Registering a type of objects fails for one reason only: there is one of that name. -/
theorem addObject_eq_error_iff {r : Registry} {name description : String}
    {capabilities : List String} {blueprint : Option (NameMap Json)} {e : RegistryError} :
    r.addObject name description capabilities blueprint = .error e ↔
      r.objects.get? name ≠ none ∧ e = .duplicateObjectType name := by
  unfold addObject NameMap.contains
  rcases hname : r.objects.get? name with _ | t
  · simp
  · simp [eq_comm]

/-- A new type of objects is the only owner that is added. -/
theorem registered_withObject_iff {r : Registry} {t : ObjectType} {owner : Owner} :
    (r.withObject t).Registered owner ↔ r.Registered owner ∨ owner = .object t.name := by
  cases owner with
  | object type =>
    simp only [registered_object_iff, withObject, NameMap.get?_insert, Owner.object.injEq]
    by_cases htype : t.name = type
    · simp [htype]
    · simp [htype, Ne.symm htype]
  | global => simp [Registered, functions?]
  | behavior type => simp [Registered, functions?, withObject]

/-- A new type without functions changes nothing that is found. -/
theorem find?_withObject {r : Registry} {t : ObjectType} (hnew : r.objects.get? t.name = none)
    (hempty : t.functions = .empty) (key : FunctionKey) :
    (r.withObject t).find? key = r.find? key := by
  obtain ⟨owner, kind, name⟩ := key
  cases owner with
  | object type =>
    simp only [find?, declared?, functions?, withObject, NameMap.get?_insert]
    by_cases htype : t.name = type
    · -- the new type finds nothing, and before it there was nothing to look in
      rw [if_pos htype, ← htype, hnew, Option.map_some, Option.bind_some, hempty,
        ByKind.get_empty, NameMap.get?_empty]
      rfl
    · rw [if_neg htype]
  | global | behavior type => rfl

/-- A type of behaviors is the only owner that is added, if it is new. -/
theorem registered_addBehavior_iff {r : Registry} {name : String} {owner : Owner} :
    (r.addBehavior name).Registered owner ↔ r.Registered owner ∨ owner = .behavior name := by
  unfold Registered addBehavior NameMap.contains
  rcases hname : r.behaviors.get? name with _ | table
  · cases owner with
    | behavior type =>
      simp only [Option.isSome_none, Bool.false_eq_true, if_false, functions?,
        NameMap.get?_insert, Owner.behavior.injEq]
      by_cases htype : name = type
      · simp [htype]
      · simp [htype, Ne.symm htype]
    | global | object type => simp [functions?]
  · simp only [Option.isSome_some, if_true, iff_self_or]
    -- a type that is there already is registered before and after
    rintro rfl
    exact ⟨table, hname⟩

/-- A type of behaviors touches no type of objects. -/
theorem addBehavior_objects (r : Registry) (name : String) :
    (r.addBehavior name).objects = r.objects := by
  unfold addBehavior
  split <;> rfl

/-- A type of behaviors brings no function, whether it is new or not. -/
theorem find?_addBehavior (r : Registry) (name : String) (key : FunctionKey) :
    (r.addBehavior name).find? key = r.find? key := by
  obtain ⟨owner, kind, n⟩ := key
  unfold addBehavior NameMap.contains
  rcases hname : r.behaviors.get? name with _ | table
  · simp only [Option.isSome_none, Bool.false_eq_true, if_false]
    cases owner with
    | behavior type =>
      simp only [find?, declared?, functions?, NameMap.get?_insert]
      by_cases htype : name = type
      · rw [if_pos htype, ← htype, hname, Option.bind_some, ByKind.get_empty, NameMap.get?_empty,
          Option.bind_none]
      · rw [if_neg htype]
    | global | object type => rfl
  · rfl

/-! ## Functions -/

/-- Registering a function succeeds exactly if it has a name, its owner is registered and there is
no function at its key. -/
theorem addFunction_eq_ok_iff {r r' : Registry} {owner : Owner} {kind : Kind}
    {signature : Signature} :
    r.addFunction owner kind signature = .ok r' ↔
      signature.name ≠ "" ∧ ∃ table, r.functions? owner = some table
        ∧ r.find? ⟨owner, kind, signature.name⟩ = none
        ∧ r' = r.setFunctions owner (table.insert kind signature.name signature) := by
  unfold addFunction
  by_cases hname : signature.name = ""
  · simp [hname]
  rw [if_neg hname]
  -- the checks in their order: the name, then the owner, then the key
  rcases hfunctions : r.functionsOf owner with e | table
  · have hnone : ∀ table, r.functions? owner ≠ some table := fun table h => by
      rw [functionsOf_eq_ok_iff.mpr h] at hfunctions
      cases hfunctions
    simp [hnone]
  · have hsome := functionsOf_eq_ok_iff.mp hfunctions
    have hfind : r.find? ⟨owner, kind, signature.name⟩ = (table.get kind).get? signature.name :=
      find?_eq hsome
    simp only [NameMap.contains, hsome, hfind, ne_eq, hname, not_false_eq_true, true_and,
      Option.some.injEq, exists_eq_left']
    by_cases hnone : (table.get kind).get? signature.name = none
    · simp only [hnone, Option.isSome_none, Bool.false_eq_true, if_false, Except.ok.injEq, true_and]
      exact eq_comm
    · simp [hnone, Option.isSome_iff_ne_none.mpr hnone]

/-- After registering a function it is found at its key, and at every other key what was found
there. -/
theorem find?_addFunction {r r' : Registry} {owner : Owner} {kind : Kind} {signature : Signature}
    (h : r.addFunction owner kind signature = .ok r') (key : FunctionKey) :
    r'.find? key
      = if (⟨owner, kind, signature.name⟩ : FunctionKey) = key then some signature
        else r.find? key := by
  obtain ⟨-, table, htable, -, rfl⟩ := addFunction_eq_ok_iff.mp h
  exact find?_setFunctions_insert ⟨owner, kind, signature.name⟩ htable signature key

/-- For a registered owner, registering a function fails exactly if it has no name or there is a
function at its key. -/
theorem addFunction_eq_error_iff {r : Registry} {owner : Owner} (howner : r.Registered owner)
    {kind : Kind} {signature : Signature} {e : RegistryError} :
    let key : FunctionKey := ⟨owner, kind, signature.name⟩
    r.addFunction owner kind signature = .error e ↔
      (key.name = "" ∨ r.find? key ≠ none) ∧ e = key.fault := by
  intro key
  obtain ⟨table, htable⟩ := howner
  have hfind : r.find? key = (table.get kind).get? signature.name := find?_eq htable
  unfold addFunction FunctionKey.fault
  by_cases hname : signature.name = ""
  · simp [key, hname, eq_comm]
  · rw [hfind, functionsOf_eq_ok_iff.mpr htable]
    simp only [key, hname, if_false, false_or, NameMap.contains]
    by_cases hnone : (table.get kind).get? signature.name = none
    · simp [hnone]
    · simp [hnone, Option.isSome_iff_ne_none.mpr hnone, eq_comm]

/-- Registering a function binds its key and no other. -/
theorem addFunction_adds {owners : List Owner} {owner : Owner} (howner : owner ∈ owners)
    (kind : Kind) (signature : Signature) :
    Adds (fun r : Registry => ∀ o ∈ owners, r.Registered o) find?
      (fun r => r.addFunction owner kind signature)
      [(⟨owner, kind, signature.name⟩, signature)] (signature.name ≠ "") where
  succeeds_iff r hr := by
    rw [List.map_singleton, List.forall_mem_singleton]
    constructor
    · rintro ⟨r', h⟩
      obtain ⟨hname, -, -, hnone, -⟩ := addFunction_eq_ok_iff.mp h
      exact ⟨hname, List.pairwise_singleton _ _, hnone⟩
    · rintro ⟨hname, -, hnone⟩
      obtain ⟨table, htable⟩ := hr owner howner
      exact ⟨_, addFunction_eq_ok_iff.mpr ⟨hname, table, htable, hnone, rfl⟩⟩
  look_iff r r' _ h key s := by
    obtain ⟨-, -, -, hnone, -⟩ := addFunction_eq_ok_iff.mp h
    -- the key was free, so nothing that was found is hidden
    rw [find?_addFunction h, List.mem_singleton, Prod.mk.injEq]
    by_cases hkey : (⟨owner, kind, signature.name⟩ : FunctionKey) = key
    · subst hkey
      rw [if_pos rfl, hnone]
      simp [eq_comm]
    · simp [hkey, Ne.symm hkey]
  keeps r r' hr h o ho := by
    obtain ⟨-, table, htable, -, rfl⟩ := addFunction_eq_ok_iff.mp h
    exact registered_setFunctions ⟨table, htable⟩ (hr o ho) _

/-- An owner that is not registered is refused. -/
theorem exists_functionsOf_error {r : Registry} {owner : Owner} (h : ¬ r.Registered owner) :
    ∃ e, r.functionsOf owner = .error e := by
  rcases hfunctions : r.functionsOf owner with e | table
  · exact ⟨e, rfl⟩
  · exact absurd ⟨table, functionsOf_eq_ok_iff.mp hfunctions⟩ h

/-- A copy either finds nothing to copy, warns once and changes nothing, or it sets the function at
its own key. -/
theorem duplicateEntry_cases (r : Registry) (owner : Owner) (kind : Kind)
    (newName existing : String) :
    (r.find? ⟨owner, kind, existing⟩ = none ∧ ∃ w,
      r.duplicateEntry owner kind newName existing = (r, [w])
        ∧ (r.Registered owner → w = .nothingToCopy kind existing owner))
      ∨ ∃ table signature, r.functions? owner = some table
        ∧ r.find? ⟨owner, kind, existing⟩ = some signature
        ∧ r.duplicateEntry owner kind newName existing
          = (r.setFunctions owner (table.insert kind newName { signature with name := newName }),
            []) := by
  by_cases howner : r.Registered owner
  · obtain ⟨table, htable⟩ := howner
    have hof : r.functionsOf owner = .ok table := functionsOf_eq_ok_iff.mpr htable
    have hsource : r.find? ⟨owner, kind, existing⟩ = (table.get kind).get? existing :=
      find?_eq htable
    -- a registered owner is only looked at for the function to be copied
    rcases hexisting : (table.get kind).get? existing with _ | signature
    · refine Or.inl ⟨hsource.trans hexisting, _, ?_, fun _ => rfl⟩
      rw [duplicateEntry, hof]
      simp only [hexisting]
    · refine Or.inr ⟨table, signature, htable, hsource.trans hexisting, ?_⟩
      rw [duplicateEntry, hof]
      simp only [hexisting]
  · -- an owner that is not registered has nothing to copy, as an owner without the function has not
    obtain ⟨e, he⟩ := exists_functionsOf_error howner
    have hnone : r.functions? owner = none :=
      Option.eq_none_iff_forall_ne_some.mpr fun table h => howner ⟨table, h⟩
    have hsource : r.find? ⟨owner, kind, existing⟩ = none := by
      rw [find?, declared?, hnone, Option.bind_none]
    refine Or.inl ⟨hsource, .noOwner kind existing e, ?_, fun h => absurd h howner⟩
    rw [duplicateEntry, he]

/-- What is found after a copy: at its own key the function that is copied, under its new name, if
there is one, and at every other key what was found there. -/
theorem find?_duplicateEntry (r : Registry) (owner : Owner) (kind : Kind)
    (newName existing : String) (key : FunctionKey) :
    (r.duplicateEntry owner kind newName existing).1.find? key
      = if (⟨owner, kind, newName⟩ : FunctionKey) = key then
          ((r.find? ⟨owner, kind, existing⟩).map fun s => { s with name := newName }).or
            (r.find? key)
        else r.find? key := by
  rcases r.duplicateEntry_cases owner kind newName existing with
    ⟨hsource, _, hsame, -⟩ | ⟨table, signature, htable, hsource, hcopied⟩
  · rw [hsource, hsame, Option.map_none, Option.none_or, ite_self]
  · rw [hsource, hcopied, Option.map_some, Option.some_or]
    exact find?_setFunctions_insert ⟨owner, kind, newName⟩ htable _ key

end Registry

end EventSheet
