import EventSheet.Proofs.Registry.Operations

/-!
Registries that registrations lead to.

A registry is filled by registrations, in any order. Some of them fail and some only warn; then the
registry stays as it was. Whatever a registration does, it is one of a few changes (`Change`): it
adds a type without functions, or it puts one function at a key under the name of that key.
-/

set_option autoImplicit false

namespace EventSheet

/-- A request to add something to a registry. -/
inductive Registration where
  /-- A type of objects. -/
  | object (name description : String) (capabilities : List String)
      (blueprint : Option (NameMap Json))
  /-- A type of behaviors. -/
  | behavior (name : String)
  /-- A function. -/
  | function (owner : Owner) (kind : Kind) (signature : Signature)
  /-- A copy of a function under a new name. -/
  | copy (owner : Owner) (kind : Kind) (newName existing : String)

namespace Registry

/-- The registry after an attempt: one that fails leaves it as it was. -/
def orKeep (r : Registry) : Except RegistryError Registry → Registry
  | .ok r' => r'
  | .error _ => r

/-- The registry after a registration, whether it succeeds, fails or warns. -/
def register (r : Registry) : Registration → Registry
  | .object name description capabilities blueprint =>
    r.orKeep (r.addObject name description capabilities blueprint)
  | .behavior name => r.addBehavior name
  | .function owner kind signature => r.orKeep (r.addFunction owner kind signature)
  | .copy owner kind newName existing => (r.duplicateEntry owner kind newName existing).1

/-- The registry of a platform after some registrations. -/
def run (platform : String) (registrations : List Registration) : Registry :=
  registrations.foldl register (empty platform)

/-- A registry that registrations lead to. -/
def Reachable (r : Registry) : Prop := ∃ platform registrations, r = run platform registrations

theorem reachable_run (platform : String) (registrations : List Registration) :
    (run platform registrations).Reachable := ⟨platform, registrations, rfl⟩

theorem reachable_empty (platform : String) : (empty platform).Reachable := ⟨platform, [], rfl⟩

/-- One more registration leads to a reachable registry. -/
theorem Reachable.register {r : Registry} (h : r.Reachable) (x : Registration) :
    (r.register x).Reachable := by
  obtain ⟨platform, registrations, rfl⟩ := h
  exact ⟨platform, registrations ++ [x], by rw [run, run, List.foldl_append]; rfl⟩

/-- Adding a type of objects is a registration. -/
theorem Reachable.addObject {r r' : Registry} (hr : r.Reachable) {name description : String}
    {capabilities : List String} {blueprint : Option (NameMap Json)}
    (h : r.addObject name description capabilities blueprint = .ok r') : r'.Reachable := by
  have hstep := hr.register (.object name description capabilities blueprint)
  rw [Registry.register, h] at hstep
  exact hstep

/-- Adding a function is a registration. -/
theorem Reachable.addFunction {r r' : Registry} (hr : r.Reachable) {owner : Owner} {kind : Kind}
    {signature : Signature} (h : r.addFunction owner kind signature = .ok r') : r'.Reachable := by
  have hstep := hr.register (.function owner kind signature)
  rw [Registry.register, h] at hstep
  exact hstep

/-! ## What a registration changes -/

/-- What one registration may change. -/
inductive Change (r : Registry) : Registry → Prop where
  /-- Nothing. -/
  | none : Change r r
  /-- A new type of objects, without functions. -/
  | object (t : ObjectType) : r.objects.get? t.name = .none → t.functions = .empty →
      Change r (r.withObject t)
  /-- A type of behaviors. -/
  | behavior (name : String) : Change r (r.addBehavior name)
  /-- The function at one key, which bears the name of the key. -/
  | function (key : FunctionKey) (table : FunctionTable) (signature : Signature) :
      r.functions? key.owner = some table → signature.name = key.name →
      Change r (r.setFunctions key.owner (table.insert key.kind key.name signature))

/-- Where a type of objects is added, it is new and has no functions. -/
theorem change_addObject {r r' : Registry} {name description : String} {capabilities : List String}
    {blueprint : Option (NameMap Json)}
    (h : r.addObject name description capabilities blueprint = .ok r') : r.Change r' := by
  obtain ⟨hnew, rfl⟩ := addObject_eq_ok_iff.mp h
  exact .object ⟨name, description, .ofNames capabilities, .empty, blueprint⟩ hnew rfl

/-- Where a function is added, its owner is registered and its name is that of the key. -/
theorem change_addFunction {r r' : Registry} {owner : Owner} {kind : Kind} {signature : Signature}
    (h : r.addFunction owner kind signature = .ok r') : r.Change r' := by
  obtain ⟨-, table, htable, -, rfl⟩ := addFunction_eq_ok_iff.mp h
  exact .function ⟨owner, kind, signature.name⟩ table signature htable rfl

/-- A copy is put under the name of its key; without a source nothing is put. -/
theorem change_duplicateEntry (r : Registry) (owner : Owner) (kind : Kind)
    (newName existing : String) : r.Change (r.duplicateEntry owner kind newName existing).1 := by
  rcases r.duplicateEntry_cases owner kind newName existing with
    ⟨-, _, hsame, -⟩ | ⟨table, signature, htable, -, hcopied⟩
  · rw [hsame]
    exact .none
  · rw [hcopied]
    exact .function ⟨owner, kind, newName⟩ table { signature with name := newName } htable rfl

/-- What fails changes nothing. -/
theorem change_orKeep {r : Registry} {x : Except RegistryError Registry}
    (h : ∀ r', x = .ok r' → r.Change r') : r.Change (r.orKeep x) := by
  cases x with
  | error e => exact .none
  | ok r' => exact h r' rfl

/-- Every registration makes one of these changes. -/
theorem change_register (r : Registry) (x : Registration) : r.Change (r.register x) := by
  cases x with
  | object name description capabilities blueprint =>
    exact change_orKeep fun r' h => change_addObject h
  | behavior name => exact .behavior name
  | function owner kind signature => exact change_orKeep fun r' h => change_addFunction h
  | copy owner kind newName existing => exact r.change_duplicateEntry owner kind newName existing

/-- No change takes an owner away. -/
theorem Change.registered {r r' : Registry} (h : r.Change r') {owner : Owner}
    (howner : r.Registered owner) : r'.Registered owner := by
  cases h with
  | none => exact howner
  | object t => exact registered_withObject_iff.mpr (Or.inl howner)
  | behavior name => exact registered_addBehavior_iff.mpr (Or.inl howner)
  | function key table signature htable =>
    exact registered_setFunctions ⟨table, htable⟩ howner _

/-- What all changes keep, and the empty registry has, every reachable registry has. -/
theorem Reachable.induction {P : Registry → Prop} (hempty : ∀ platform, P (empty platform))
    (hchange : ∀ r r', r.Change r' → P r → P r') {r : Registry} (h : r.Reachable) : P r := by
  obtain ⟨platform, registrations, rfl⟩ := h
  -- on the run: every registration makes one of the changes
  exact List.foldlRecOn registrations Registry.register (hempty platform)
    fun r hr x _ => hchange r _ (change_register r x) hr

/-! ## Where functions come from -/

/-- A registration puts a function at a key: a new one that is not refused, or a copy of one that is
there. -/
def Makes (r : Registry) (key : FunctionKey) : Registration → Prop
  | .object _ _ _ _ | .behavior _ => False
  | .function owner kind signature =>
    (⟨owner, kind, signature.name⟩ : FunctionKey) = key
      ∧ ∃ r', r.addFunction owner kind signature = .ok r'
  | .copy owner kind newName existing =>
    (⟨owner, kind, newName⟩ : FunctionKey) = key ∧ r.find? ⟨owner, kind, existing⟩ ≠ none

/-- A type of objects brings no function, whether it is added or refused. -/
theorem find?_orKeep_addObject (r : Registry) (name description : String)
    (capabilities : List String) (blueprint : Option (NameMap Json)) (key : FunctionKey) :
    (r.orKeep (r.addObject name description capabilities blueprint)).find? key = r.find? key := by
  rcases h : r.addObject name description capabilities blueprint with e | r'
  · rfl
  · obtain ⟨hnew, rfl⟩ := addObject_eq_ok_iff.mp h
    exact find?_withObject hnew rfl key

/-- A function is found behind an attempt to add one if it was there, or if the attempt succeeds. -/
theorem find?_orKeep_addFunction_ne_none_iff (r : Registry) (owner : Owner) (kind : Kind)
    (signature : Signature) (key : FunctionKey) :
    (r.orKeep (r.addFunction owner kind signature)).find? key ≠ none
      ↔ r.find? key ≠ none ∨ r.Makes key (.function owner kind signature) := by
  rcases h : r.addFunction owner kind signature with e | r'
  · -- what is refused makes nothing
    have hrefused : ¬ r.Makes key (.function owner kind signature) := by
      rintro ⟨-, r', h'⟩
      rw [h] at h'
      cases h'
    exact (or_iff_left hrefused).symm
  · rw [orKeep, find?_addFunction h]
    by_cases hkey : (⟨owner, kind, signature.name⟩ : FunctionKey) = key
    · rw [if_pos hkey]
      exact iff_of_true (Option.some_ne_none signature) (Or.inr ⟨hkey, r', h⟩)
    · rw [if_neg hkey]
      exact (or_iff_left fun hmakes => hkey hmakes.1).symm

/-- A function is found behind a copy if it was there, or if it is a copy of one that was. -/
theorem find?_duplicateEntry_ne_none_iff (r : Registry) (owner : Owner) (kind : Kind)
    (newName existing : String) (key : FunctionKey) :
    (r.duplicateEntry owner kind newName existing).1.find? key ≠ none
      ↔ r.find? key ≠ none ∨ r.Makes key (.copy owner kind newName existing) := by
  rw [find?_duplicateEntry]
  by_cases hkey : (⟨owner, kind, newName⟩ : FunctionKey) = key
  · rw [if_pos hkey]
    -- at its own key a copy counts only if there is something to copy
    rcases hsource : r.find? ⟨owner, kind, existing⟩ with _ | s
    · rw [Option.map_none, Option.none_or]
      exact (or_iff_left fun hmakes => hmakes.2 hsource).symm
    · have hne : r.find? ⟨owner, kind, existing⟩ ≠ none := hsource ▸ Option.some_ne_none s
      rw [Option.map_some, Option.some_or]
      exact iff_of_true (Option.some_ne_none _) (Or.inr ⟨hkey, hne⟩)
  · rw [if_neg hkey]
    exact (or_iff_left fun hmakes => hkey hmakes.1).symm

/-- After a registration there is a function at a key if there was one before, or if the
registration puts one there. No registration takes a function away. -/
theorem find?_register_ne_none_iff (r : Registry) (x : Registration) (key : FunctionKey) :
    (r.register x).find? key ≠ none ↔ r.find? key ≠ none ∨ r.Makes key x := by
  cases x with
  | object name description capabilities blueprint =>
    rw [register, find?_orKeep_addObject]
    exact (or_iff_left id).symm
  | behavior name =>
    rw [register, find?_addBehavior]
    exact (or_iff_left id).symm
  | function owner kind signature =>
    exact r.find?_orKeep_addFunction_ne_none_iff owner kind signature key
  | copy owner kind newName existing =>
    exact r.find?_duplicateEntry_ne_none_iff owner kind newName existing key

/-- There is a function at a key exactly if one of the registrations has put one there. -/
theorem find?_run_ne_none_iff (platform : String) (registrations : List Registration)
    (key : FunctionKey) :
    (run platform registrations).find? key ≠ none
      ↔ ∃ before x after, registrations = before ++ x :: after
        ∧ (run platform before).Makes key x := by
  have hstart : ¬ (empty platform).find? key ≠ none := fun hne => hne (find?_empty platform key)
  -- no registration takes a function away, so one that is there was put there by some of them
  have hrun := foldl_iff (P := fun r : Registry => r.find? key ≠ none)
    (C := fun r x => r.Makes key x) (fun r x => r.find?_register_ne_none_iff x key)
    (empty platform) registrations
  exact hrun.trans (or_iff_right hstart)

end Registry

end EventSheet
