import EventSheet.Proofs.NameMap
import EventSheet.Proofs.Registry.Registrations
import Mathlib.Algebra.Ring.Nat
import Mathlib.Data.Finset.Card
import Mathlib.Data.List.Basic

/-!
What is true of every registry that registrations lead to.

A table is a map from names, and a signature bears a name as well; so does a type of objects. No
registration lets the two names differ, and none takes the base types away or gives the base object
a capability or a blueprint (`WellFormed`). So the listings, which go through the tables in the
order of their keys, list by name, and the number of functions is the number of keys that have
one.
-/

set_option autoImplicit false

namespace EventSheet

/-- All kinds of functions. -/
def Kind.all : List Kind := [.expression, .action, .condition]

theorem Kind.mem_all (kind : Kind) : kind ∈ Kind.all := by
  cases kind <;> simp [Kind.all]

theorem Kind.all_nodup : Kind.all.Nodup := by decide

namespace Registry

/-! ## The invariant -/

/-- Names and keys agree, and the base types are there. -/
structure WellFormed (r : Registry) : Prop where
  /-- Every function bears the name that it is registered under. -/
  functionNames : ∀ key signature, r.find? key = some signature → signature.name = key.name
  /-- Every type of objects bears the name that it is registered under. -/
  objectNames : ∀ type t, r.object? type = some t → t.name = type
  /-- The type that stands for all objects has no capability, and no object of it can be made. -/
  baseObject : ∃ t, r.object? "" = some t ∧ t.capabilities = .empty ∧ t.blueprint = none
  /-- There is a type that stands for all behaviors. -/
  baseBehavior : r.hasBehavior "" = true

/-- The registry of a platform starts with the base types and no function. -/
theorem wellFormed_empty (platform : String) : (empty platform).WellFormed where
  functionNames key signature h := by
    rw [find?_empty] at h
    cases h
  objectNames type t h := by
    simp only [object?, empty, NameMap.get?_insert, NameMap.get?_empty] at h
    split at h
    case isTrue htype =>
      have hbase : baseObject = t := Option.some.inj h
      rw [← hbase, ← htype]
      rfl
    case isFalse => cases h
  baseObject := ⟨Registry.baseObject, rfl, rfl, rfl⟩
  baseBehavior := rfl

namespace WellFormed

variable {r : Registry}

/-- A new type of objects has no functions yet, and the base type is not new. -/
theorem withObject (h : r.WellFormed) {t : ObjectType} (hnew : r.object? t.name = none)
    (hempty : t.functions = .empty) : (r.withObject t).WellFormed where
  functionNames key signature hfind := by
    rw [find?_withObject hnew hempty] at hfind
    exact h.functionNames key signature hfind
  objectNames type t' hget := by
    simp only [object?, Registry.withObject, NameMap.get?_insert] at hget
    split at hget
    -- the new type is put under its own name
    case isTrue htype => exact Option.some.inj hget ▸ htype
    case isFalse => exact h.objectNames type t' hget
  baseObject := by
    obtain ⟨base, hget, hbase⟩ := h.baseObject
    -- the base type is there, so it is not the new one
    have hne : t.name ≠ "" := fun heq => by
      rw [heq, hget] at hnew
      cases hnew
    refine ⟨base, ?_, hbase⟩
    rw [object?, Registry.withObject, NameMap.get?_insert, if_neg hne]
    exact hget
  baseBehavior := h.baseBehavior

/-- A type of behaviors brings no functions, and touches no type of objects. -/
theorem addBehavior (h : r.WellFormed) (name : String) : (r.addBehavior name).WellFormed where
  functionNames key signature hfind := by
    rw [find?_addBehavior] at hfind
    exact h.functionNames key signature hfind
  objectNames := by
    unfold object?
    rw [addBehavior_objects]
    exact h.objectNames
  baseObject := by
    unfold object?
    rw [addBehavior_objects]
    exact h.baseObject
  baseBehavior := by
    have hbefore := hasBehavior_iff.mp h.baseBehavior
    exact hasBehavior_iff.mpr (registered_addBehavior_iff.mpr (Or.inl hbefore))

/-- A function that bears the name of its key may be put at any registered owner. -/
theorem setFunctions (h : r.WellFormed) (key : FunctionKey) {table : FunctionTable}
    (htable : r.functions? key.owner = some table) {signature : Signature}
    (hname : signature.name = key.name) :
    (r.setFunctions key.owner (table.insert key.kind key.name signature)).WellFormed where
  functionNames key' signature' hfind := by
    rw [find?_setFunctions_insert key htable] at hfind
    split at hfind
    -- at the key itself stands the new function, which bears its name
    case isTrue hkey => rw [← Option.some.inj hfind, ← hkey, hname]
    case isFalse => exact h.functionNames key' signature' hfind
  objectNames type t hget := by
    rw [object?_setFunctions] at hget
    obtain ⟨t₀, ht₀, rfl⟩ := Option.map_eq_some_iff.mp hget
    -- a type with other functions still bears its name
    have hbefore := h.objectNames type t₀ ht₀
    split <;> exact hbefore
  baseObject := by
    obtain ⟨base, hget, hcapabilities, hblueprint⟩ := h.baseObject
    -- the base object may get functions, but neither capabilities nor a blueprint
    refine ⟨_, by rw [object?_setFunctions, hget, Option.map_some], ?_⟩
    split <;> exact ⟨hcapabilities, hblueprint⟩
  baseBehavior :=
    hasBehavior_iff.mpr
      (registered_setFunctions ⟨table, htable⟩ (hasBehavior_iff.mp h.baseBehavior) _)

/-- Whatever a registration changes, the invariant is kept. -/
theorem change {r' : Registry} (h : r.WellFormed) (hchange : r.Change r') : r'.WellFormed := by
  cases hchange with
  | none => exact h
  | object t hnew hempty => exact h.withObject hnew hempty
  | behavior name => exact h.addBehavior name
  | function key table signature htable hname => exact h.setFunctions key htable hname

end WellFormed

/-- Registrations only lead to registries whose names and keys agree. -/
theorem Reachable.wellFormed {r : Registry} (h : r.Reachable) : r.WellFormed :=
  h.induction wellFormed_empty fun _ _ hchange hr => hr.change hchange

/-! ## Listings -/

section Listings

variable {r : Registry}

/-- The listing of a registered owner goes through its table. -/
theorem functionsIn_eq {kind : Kind} {owner : Owner} {table : FunctionTable}
    (h : r.functions? owner = some table) : r.functionsIn kind owner = (table.get kind).values := by
  rw [functionsIn, h]

/-- An owner that is not registered lists nothing. -/
theorem functionsIn_eq_nil {kind : Kind} {owner : Owner} (h : ¬ r.Registered owner) :
    r.functionsIn kind owner = [] := by
  have hnone : r.functions? owner = none :=
    Option.eq_none_iff_forall_ne_some.mpr fun table htable => h ⟨table, htable⟩
  rw [functionsIn, hnone]

/-- A function is listed for an owner exactly if it is found there under the name it bears. -/
theorem mem_functionsIn_iff (h : r.WellFormed) {kind : Kind} {owner : Owner}
    {signature : Signature} :
    signature ∈ r.functionsIn kind owner
      ↔ r.find? ⟨owner, kind, signature.name⟩ = some signature := by
  by_cases howner : r.Registered owner
  · obtain ⟨table, htable⟩ := howner
    have hfind : ∀ name, r.find? ⟨owner, kind, name⟩ = (table.get kind).get? name :=
      fun name => find?_eq htable
    rw [functionsIn_eq htable, hfind, NameMap.get?_eq_some_iff, NameMap.values, List.mem_map]
    constructor
    · -- the table lists keys, and here names and keys agree
      rintro ⟨⟨name, signature⟩, hmem, rfl⟩
      have hget : r.find? ⟨owner, kind, name⟩ = some signature :=
        (hfind name).trans (NameMap.get?_eq_some_iff.mpr hmem)
      have hname : signature.name = name := h.functionNames _ _ hget
      rw [hname]
      exact hmem
    · exact fun hmem => ⟨_, hmem, rfl⟩
  · rw [functionsIn_eq_nil howner]
    constructor
    · exact fun hmem => absurd hmem List.not_mem_nil
    · intro hfind
      -- only a registered owner can have a function
      obtain ⟨table, htable, -⟩ := Option.bind_eq_some_iff.mp hfind
      exact absurd ⟨table, htable⟩ howner

/-- The names of the functions listed are the keys of the table. -/
theorem names_functionsIn (h : r.WellFormed) {kind : Kind} {owner : Owner} {table : FunctionTable}
    (htable : r.functions? owner = some table) :
    (r.functionsIn kind owner).map Signature.name = (table.get kind).names := by
  rw [functionsIn_eq htable, NameMap.values, NameMap.names, List.map_map]
  refine List.map_congr_left fun e he => ?_
  have hfind : r.find? ⟨owner, kind, e.1⟩ = some e.2 :=
    (find?_eq htable).trans (NameMap.get?_eq_some_iff.mpr he)
  exact h.functionNames _ _ hfind

/-- Functions are listed by name, each name once. -/
theorem functionsIn_ascending (h : r.WellFormed) (kind : Kind) (owner : Owner) :
    ((r.functionsIn kind owner).map Signature.name).Pairwise (· < ·) := by
  by_cases howner : r.Registered owner
  · obtain ⟨table, htable⟩ := howner
    rw [names_functionsIn h htable]
    exact (table.get kind).names_ascending
  · rw [functionsIn_eq_nil howner]
    exact List.Pairwise.nil

/-- A type of objects is listed exactly if it is registered under the name it bears, and is not the
base type. -/
theorem mem_objectTypes_iff (h : r.WellFormed) {t : ObjectType} :
    t ∈ r.objectTypes ↔ r.object? t.name = some t ∧ t.name ≠ "" := by
  rw [objectTypes, List.mem_filter, decide_eq_true_eq, object?, NameMap.get?_eq_some_iff,
    NameMap.values, List.mem_map]
  refine and_congr_left fun _ => ?_
  constructor
  · rintro ⟨⟨type, t⟩, hmem, rfl⟩
    have hname : t.name = type := h.objectNames type t (NameMap.get?_eq_some_iff.mpr hmem)
    rw [hname]
    exact hmem
  · exact fun hmem => ⟨_, hmem, rfl⟩

/-- Types of objects are listed by name, each name once. -/
theorem objectTypes_ascending (h : r.WellFormed) :
    (r.objectTypes.map ObjectType.name).Pairwise (· < ·) := by
  have hnames : r.objects.values.map ObjectType.name = r.objects.names := by
    rw [NameMap.values, NameMap.names, List.map_map]
    exact List.map_congr_left fun e he =>
      h.objectNames e.1 e.2 (NameMap.get?_eq_some_iff.mpr he)
  -- the base type is left out, which keeps the order
  have hsublist : (r.objectTypes.map ObjectType.name).Sublist r.objects.names :=
    hnames ▸ List.filter_sublist.map ObjectType.name
  exact r.objects.names_ascending.sublist hsublist

/-- A new object has the properties of its type's blueprint. -/
theorem create?_eq (type name : String) :
    r.create? type name = (r.object? type).bind fun t =>
      t.blueprint.map fun properties => ⟨name, type, properties⟩ := by
  unfold create?
  rcases r.object? type with _ | t
  · rfl
  · rcases hblueprint : t.blueprint with _ | properties <;> simp [hblueprint]

/-- No object of the base type can be made. -/
theorem create?_base (h : r.WellFormed) (name : String) : r.create? "" name = none := by
  obtain ⟨base, hget, -, hblueprint⟩ := h.baseObject
  rw [create?_eq, hget, Option.bind_some, hblueprint, Option.map_none]

end Listings

/-! ## Counting -/

section Counting

variable (r : Registry)

/-- The registered owners. -/
def owners : List Owner :=
  .global :: (r.objects.names.map .object ++ r.behaviors.names.map .behavior)

/-- The owners listed are those that are registered. -/
theorem mem_owners_iff (owner : Owner) : owner ∈ r.owners ↔ r.Registered owner := by
  cases owner with
  | global => simp [owners, registered_global]
  | object type => simp [owners, registered_object_iff, NameMap.mem_names_iff]
  | behavior type => simp [owners, Registered, functions?, NameMap.mem_names_iff]

/-- No owner is listed twice: the three sorts are apart, and in each the names differ. -/
theorem owners_nodup : r.owners.Nodup := by
  have hobjects : (r.objects.names.map Owner.object).Nodup :=
    r.objects.names_nodup.map fun _ _ => Owner.object.inj
  have hbehaviors : (r.behaviors.names.map Owner.behavior).Nodup :=
    r.behaviors.names_nodup.map fun _ _ => Owner.behavior.inj
  refine List.nodup_cons.mpr ⟨by simp, hobjects.append hbehaviors ?_⟩
  simp [List.disjoint_left]

/-- The number of functions of an owner. -/
def functionCountOf (owner : Owner) : Nat :=
  (Kind.all.map fun kind => (r.functionsIn kind owner).length).sum

/-- An owner has as many functions as its table has entries. -/
theorem functionCountOf_eq {r : Registry} {owner : Owner} {table : FunctionTable}
    (h : r.functions? owner = some table) : r.functionCountOf owner = table.size := by
  simp only [functionCountOf, functionsIn_eq h, Kind.all]
  simp [ByKind.size, ByKind.get, NameMap.values, NameMap.size, Nat.add_assoc]

/-- The count of a registry, which adds up tables, is the sum over its owners. -/
theorem functionCount_eq_sum : r.functionCount = (r.owners.map r.functionCountOf).sum := by
  have hfree : r.functionCountOf .global = r.free.size := functionCountOf_eq rfl
  -- sort by sort, the tables are those that the owners of the sort list
  have hobjects : (r.objects.names.map .object).map r.functionCountOf
      = r.objects.values.map fun t => t.functions.size := by
    rw [NameMap.names, NameMap.values, List.map_map, List.map_map, List.map_map]
    refine List.map_congr_left fun e he => ?_
    have hget : r.objects.get? e.1 = some e.2 := NameMap.get?_eq_some_iff.mpr he
    exact functionCountOf_eq (by rw [functions?, hget, Option.map_some])
  have hbehaviors : (r.behaviors.names.map .behavior).map r.functionCountOf
      = r.behaviors.values.map ByKind.size := by
    rw [NameMap.names, NameMap.values, List.map_map, List.map_map, List.map_map]
    refine List.map_congr_left fun e he => ?_
    have hget : r.behaviors.get? e.1 = some e.2 := NameMap.get?_eq_some_iff.mpr he
    exact functionCountOf_eq hget
  rw [owners, List.map_cons, List.map_append, hobjects, hbehaviors, List.sum_cons, List.sum_append,
    hfree, functionCount, Nat.add_assoc]
  rfl

/-- Lists that are told apart by what their members come from have no member twice in all. -/
theorem nodup_flatMap_of_inverse {α β : Type} {f : α → List β} (g : β → α) {l : List α}
    (hl : l.Nodup) (hf : ∀ a ∈ l, (f a).Nodup) (hg : ∀ a, ∀ b ∈ f a, g b = a) :
    (l.flatMap f).Nodup := by
  refine List.nodup_flatMap.mpr ⟨hf, hl.imp fun hne b hb hb' => hne ?_⟩
  exact (hg _ b hb).symm.trans (hg _ b hb')

/-- The keys of all functions, as they are listed. -/
def functionKeys : List FunctionKey :=
  r.owners.flatMap fun owner => Kind.all.flatMap fun kind =>
    (r.functionsIn kind owner).map fun signature => ⟨owner, kind, signature.name⟩

/-- There are as many keys as functions are counted. -/
theorem length_functionKeys : r.functionKeys.length = r.functionCount := by
  rw [functionCount_eq_sum, functionKeys, List.length_flatMap]
  simp only [List.length_flatMap, List.length_map]
  rfl

variable {r}

/-- No key is listed twice: an owner, a kind and a name make the key, and each comes once. -/
theorem functionKeys_nodup (h : r.WellFormed) : r.functionKeys.Nodup := by
  refine nodup_flatMap_of_inverse FunctionKey.owner r.owners_nodup (fun owner _ => ?_) ?_
  · refine nodup_flatMap_of_inverse FunctionKey.kind Kind.all_nodup (fun kind _ => ?_) ?_
    · have hnames : ((r.functionsIn kind owner).map Signature.name).Nodup :=
        (functionsIn_ascending h kind owner).imp NameMap.ne_of_name_lt
      refine List.Nodup.of_map FunctionKey.name ?_
      rw [List.map_map]
      exact hnames
    · intro kind key hkey
      obtain ⟨signature, -, rfl⟩ := List.mem_map.mp hkey
      rfl
  · intro owner key hkey
    obtain ⟨kind, -, hkey⟩ := List.mem_flatMap.mp hkey
    obtain ⟨signature, -, rfl⟩ := List.mem_map.mp hkey
    rfl

/-- A key is listed exactly if there is a function at it. -/
theorem mem_functionKeys_iff (h : r.WellFormed) {key : FunctionKey} :
    key ∈ r.functionKeys ↔ r.find? key ≠ none := by
  simp only [functionKeys, List.mem_flatMap, List.mem_map]
  constructor
  · rintro ⟨owner, -, kind, -, signature, hmem, rfl⟩
    rw [(mem_functionsIn_iff h).mp hmem]
    exact Option.some_ne_none signature
  · intro hne
    obtain ⟨signature, hfind⟩ := Option.ne_none_iff_exists'.mp hne
    have hname : signature.name = key.name := h.functionNames key signature hfind
    obtain ⟨table, htable, -⟩ := Option.bind_eq_some_iff.mp hfind
    have howner : key.owner ∈ r.owners := (r.mem_owners_iff key.owner).mpr ⟨table, htable⟩
    have hmem : signature ∈ r.functionsIn key.kind key.owner := by
      rw [mem_functionsIn_iff h, hname]
      exact hfind
    exact ⟨key.owner, howner, key.kind, key.kind.mem_all, signature, hmem, by rw [hname]⟩

/-- The number of functions is the number of keys that have one. -/
theorem functionCount_eq_card (h : r.WellFormed) {keys : Finset FunctionKey}
    (hkeys : ∀ key, key ∈ keys ↔ r.find? key ≠ none) : r.functionCount = keys.card := by
  -- the keys that are listed are told by membership alone
  have hsame : r.functionKeys.toFinset = keys := by
    ext key
    rw [List.mem_toFinset, mem_functionKeys_iff h, hkeys]
  rw [← hsame, List.toFinset_card_of_nodup (functionKeys_nodup h), length_functionKeys]

end Counting

/-! ## Every reachable registry -/

/-- **What registrations keep.** Whatever is registered, in whatever order and with whatever
success: names and keys agree and the base types are there, no object of the base type is made, the
listings have every function and every type but the base, each once and ascending by name, and the
number of functions is the sum over the registered owners and the kinds. -/
theorem run_listings (platform : String) (registrations : List Registration) :
    let r := run platform registrations
    r.WellFormed
      ∧ (∀ name, r.create? "" name = none)
      ∧ (∀ kind owner, ((r.functionsIn kind owner).map Signature.name).Pairwise (· < ·)
        ∧ ∀ signature, signature ∈ r.functionsIn kind owner
          ↔ r.find? ⟨owner, kind, signature.name⟩ = some signature)
      ∧ ((r.objectTypes.map ObjectType.name).Pairwise (· < ·)
        ∧ ∀ t, t ∈ r.objectTypes ↔ r.object? t.name = some t ∧ t.name ≠ "")
      ∧ (r.owners.Nodup ∧ ∀ owner, owner ∈ r.owners ↔ r.Registered owner)
      ∧ r.functionCount = (r.owners.map fun owner =>
          (Kind.all.map fun kind => (r.functionsIn kind owner).length).sum).sum := by
  intro r
  have h : r.WellFormed := (reachable_run platform registrations).wellFormed
  have hfunctions : ∀ kind owner, ((r.functionsIn kind owner).map Signature.name).Pairwise (· < ·)
      ∧ ∀ signature, signature ∈ r.functionsIn kind owner
        ↔ r.find? ⟨owner, kind, signature.name⟩ = some signature :=
    fun kind owner => ⟨functionsIn_ascending h kind owner, fun _ => mem_functionsIn_iff h⟩
  have hobjects : ∀ t, t ∈ r.objectTypes ↔ r.object? t.name = some t ∧ t.name ≠ "" :=
    fun _ => mem_objectTypes_iff h
  exact ⟨h, create?_base h, hfunctions, ⟨objectTypes_ascending h, hobjects⟩,
    ⟨r.owners_nodup, r.mem_owners_iff⟩, r.functionCount_eq_sum⟩

end Registry

end EventSheet
