import EventSheet.Proofs.Check.Lockstep
import EventSheet.Proofs.NameMap
import EventSheet.Registry.Registration
import Mathlib.Logic.Equiv.Basic

/-!
The names of objects do not matter.

They only tell objects apart. If the declared objects and all that a tree says of them are renamed
alike, without two names becoming one, a check finds the same (`validate_rename`). One thing depends
on the order of names: a behavior that an object does not have itself is taken from the first object
that has one of its name. That this shows in no answer is due to the assumption that behaviors of
one name are of one type (`ObjectContainer.Consistent`).
-/

set_option autoImplicit false

namespace EventSheet

variable {f : String → String}

/-! ## Containers -/

namespace ObjectContainer

/-- Behaviors of one name are of one type, on whatever objects. -/
def Consistent (c : ObjectContainer) : Prop :=
  ∀ name o name' o', c.objects.get? name = some o → c.objects.get? name' = some o' →
    ∀ behavior type type', o.behaviors.get? behavior = some type →
      o'.behaviors.get? behavior = some type' → type = type'

/-- The container with its objects under other names. -/
def rename (f : String → String) (c : ObjectContainer) : ObjectContainer := ⟨c.objects.rename f⟩

/-- A container of one object. -/
def single (name : String) (o : DeclaredObject) : ObjectContainer :=
  ⟨NameMap.empty.insert name o⟩

/-- One object cannot contradict itself. -/
theorem consistent_single (name : String) (o : DeclaredObject) : (single name o).Consistent := by
  have hone : ∀ n x, (single name o).objects.get? n = some x → o = x := by
    intro n x hx
    rw [single, NameMap.get?_insert, NameMap.get?_empty] at hx
    split at hx
    · exact Option.some.inj hx
    · cases hx
  intro n x n' x' hx hx' behavior type type' htype htype'
  rw [← hone n x hx] at htype
  rw [← hone n' x' hx', htype] at htype'
  exact Option.some.inj htype'

variable {c : ObjectContainer}

/-- The first object that has a behavior stands for all that have it. -/
theorem anyBehaviorType?_eq_some_iff (hc : c.Consistent) {behavior type : String} :
    c.anyBehaviorType? behavior = some type ↔
      ∃ name o, c.objects.get? name = some o ∧ o.behaviors.get? behavior = some type := by
  constructor
  · intro h
    obtain ⟨name, o, hname, htype, -⟩ := NameMap.findSome?_values_eq_some_iff.mp h
    exact ⟨name, o, hname, htype⟩
  · rintro ⟨name, o, hname, htype⟩
    rcases hfound : c.anyBehaviorType? behavior with _ | type'
    · have hnone := NameMap.findSome?_values_eq_none_iff.mp hfound name o hname
      rw [htype] at hnone
      cases hnone
    · -- the search ends at some object, and behaviors of one name are of one type
      obtain ⟨name', o', hname', hbehavior, -⟩ := NameMap.findSome?_values_eq_some_iff.mp hfound
      rw [hc name' o' name o hname' hname behavior type' type hbehavior htype]

section Injective

variable (hf : Function.Injective f)

include hf

theorem Consistent.rename (hc : c.Consistent) : (c.rename f).Consistent := by
  intro name o name' o' ho ho'
  obtain ⟨n, -, hn⟩ := (NameMap.get?_rename_eq_some_iff hf).mp ho
  obtain ⟨n', -, hn'⟩ := (NameMap.get?_rename_eq_some_iff hf).mp ho'
  exact hc n o n' o' hn hn'

theorem objectType?_rename (name : String) :
    (c.rename f).objectType? (f name) = c.objectType? name := by
  rw [objectType?, rename, NameMap.get?_rename hf, objectType?]

theorem ownBehaviorType?_rename (name behavior : String) :
    (c.rename f).ownBehaviorType? (f name) behavior = c.ownBehaviorType? name behavior := by
  rw [ownBehaviorType?, rename, NameMap.get?_rename hf, ownBehaviorType?]

/-- Whichever object comes first under the new names. -/
theorem anyBehaviorType?_rename (hc : c.Consistent) (behavior : String) :
    (c.rename f).anyBehaviorType? behavior = c.anyBehaviorType? behavior := by
  refine Option.ext fun type => ?_
  rw [anyBehaviorType?_eq_some_iff (hc.rename hf), anyBehaviorType?_eq_some_iff hc]
  constructor
  · rintro ⟨name, o, ho, htype⟩
    obtain ⟨n, -, hn⟩ := (NameMap.get?_rename_eq_some_iff hf).mp ho
    exact ⟨n, o, hn, htype⟩
  · rintro ⟨name, o, ho, htype⟩
    exact ⟨f name, o, (NameMap.get?_rename hf name).trans ho, htype⟩

end Injective

end ObjectContainer

/-! ## Scopes of projects -/

namespace ProjectScope

/-- The scope with its objects, those of the project and those of the scene, under other names. -/
def rename (f : String → String) (s : ProjectScope) : ProjectScope :=
  ⟨s.globals.rename f, s.locals.rename f⟩

/-- A renamed scope says the same of every object. -/
theorem renamed_rename (hf : Function.Injective f) (hempty : f "" = "") {s : ProjectScope}
    (hglobals : s.globals.Consistent) (hlocals : s.locals.Consistent) :
    s.toScope.Renamed f (s.rename f).toScope where
  empty_iff name := ⟨fun h => hf (h.trans hempty.symm), fun h => h ▸ hempty⟩
  objectType name := by
    change (s.rename f).objectType? (f name) = s.objectType? name
    rw [objectType?, rename, ObjectContainer.objectType?_rename hf,
      ObjectContainer.objectType?_rename hf, objectType?]
  behaviorType name behavior := by
    -- whether the scene has the object decides which container is asked, and renaming keeps that
    have hdeclaring : (s.rename f).declaring (f name) = (s.declaring name).rename f := by
      have hcontains : (s.rename f).locals.objects.contains (f name)
          = s.locals.objects.contains name :=
        congrArg Option.isSome (NameMap.get?_rename hf name)
      rw [declaring, declaring, hcontains]
      split <;> rfl
    change (s.rename f).behaviorType? (f name) behavior = s.behaviorType? name behavior
    rw [behaviorType?, hdeclaring, ObjectContainer.ownBehaviorType?_rename hf, rename,
      ObjectContainer.anyBehaviorType?_rename hf hlocals,
      ObjectContainer.anyBehaviorType?_rename hf hglobals, behaviorType?]

end ProjectScope

/-! ## Checks -/

/-- A noted variable in the renamed tree: its object goes by the new name, and so does the variable
itself if it is written as a bare name. -/
structure ObjectVariable.RenamedIn (f : String → String) (e : Expr) (v w : ObjectVariable) :
    Prop where
  objectName : w.objectName = f v.objectName
  span : w.span = v.span
  variableName : Expr.IsPart (.identifier v.variableName v.span) e
      ∧ w.variableName = f v.variableName
    ∨ Expr.IsPart (.variable v.variableName v.span) e ∧ w.variableName = v.variableName

/-- A tree and the renamed tree are walked in lockstep, each in its scope. -/
theorem Check.InStep.rename (hf : Function.Injective f) (hempty : f "" = "") {s : ProjectScope}
    (hglobals : s.globals.Consistent) (hlocals : s.locals.Consistent) (r : Registry) (e : Expr) :
    InStep (setting r s.toScope) (setting r (s.rename f).toScope) f Eq
      (ObjectVariable.RenamedIn f e) e := by
  have hscope := s.renamed_rename hf hempty hglobals hlocals
  -- a function belongs to the type of the receiver, whatever the receiver's name
  have howner : ∀ c : Callee, owner (setting r (s.rename f).toScope) (c.rename f)
      = owner (setting r s.toScope) c := owner_rename hscope
  exact {
    scope := hscope
    capabilities := fun _ => rfl
    functions := by
      intro c _ _
      rw [resolve, resolve, howner]
      exact Signature.CalledAlike.rel_of_eq _ rfl
    unknown := by
      intro c _ _
      rw [suggestions, suggestions, howner]
      rfl
    refl := fun _ => rfl
    ofIdentifier := fun _ _ _ hpart => ⟨rfl, rfl, Or.inl ⟨hpart, rfl⟩⟩
    ofVariable := fun _ _ _ hpart => ⟨rfl, rfl, Or.inr ⟨hpart, rfl⟩⟩ }

/-- **The names of objects do not matter.** Let behaviors of one name be of one type, in the project
and in the scene, and let all objects be renamed, in the scope and in the tree, without two names
becoming one. Then the outcome is the same, up to the new names in the variables that are noted. -/
theorem validate_rename (hf : Function.Injective f) (hempty : f "" = "") {s : ProjectScope}
    (hglobals : s.globals.Consistent) (hlocals : s.locals.Consistent) (r : Registry)
    (expected : ValueType) (e : Expr) :
    let outcome := validate r s.toScope expected e
    let outcome' := validate r (s.rename f).toScope expected (e.rename f)
    outcome.diagnostics = outcome'.diagnostics ∧ outcome.inferredType = outcome'.inferredType
      ∧ List.Forall₂ (ObjectVariable.RenamedIn f e) outcome.objectVariables
        outcome'.objectVariables := by
  obtain ⟨hdiagnostics, htype, hvariables⟩ :=
    (Check.InStep.rename hf hempty hglobals hlocals r e).validateIn_inStep expected
  rw [List.forall₂_eq_eq_eq] at hdiagnostics
  exact ⟨hdiagnostics, htype, hvariables⟩

/-- A registry with one type of behaviors and one function of them, of a variable of the object. -/
def Registry.withHealth : Registry :=
  let tags := ["object", "behavior", Category.objectVariableTag]
  let share : Signature := ⟨"ShareOf", "number", tags.map .ofTag, none, .behavior, ""⟩
  ((Registry.empty "game").addBehavior "Health").setFunctions (.behavior "Health")
    (ByKind.empty.insert .expression "ShareOf" share)

/-- A scene with an object that takes a behavior from an object of the project, and two objects that
change names. -/
theorem validate_rename_swap :
    let f := Equiv.swap "Hero" "Villain"
    let s : ProjectScope :=
      ⟨.single "Hero" ⟨"Sprite", .ofList [("Life", "Health")]⟩, .single "Villain" ⟨"Text", .empty⟩⟩
    let e : Expr := .call (.onBehavior "Villain" "Life" "ShareOf" ⟨0, 28⟩ ⟨0, 7⟩)
      [.identifier "Score" ⟨22, 27⟩]
    let outcome := validate .withHealth s.toScope .number e
    let outcome' := validate .withHealth (s.rename f).toScope .number (e.rename f)
    outcome.diagnostics = outcome'.diagnostics ∧ outcome.diagnostics = []
      ∧ outcome.objectVariables = [⟨"Villain", "Score", ⟨22, 27⟩⟩]
      ∧ outcome'.objectVariables = [⟨"Hero", "Score", ⟨22, 27⟩⟩] := by
  intro f s e outcome outcome'
  have hglobals : s.globals.Consistent := ObjectContainer.consistent_single _ _
  have hlocals : s.locals.Consistent := ObjectContainer.consistent_single _ _
  obtain ⟨hdiagnostics, -, -⟩ :=
    validate_rename f.injective (by decide) hglobals hlocals .withHealth .number e
  exact ⟨hdiagnostics, rfl, rfl, rfl⟩

end EventSheet
