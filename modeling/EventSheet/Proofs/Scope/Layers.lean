import EventSheet.Check
import EventSheet.Proofs.NameMap

/-!
Which declaration answers for a name.

A scene's declaration of an object hides the project's, with all its behaviors
(`ProjectScope.Visible`). For a behavior that the visible declaration lacks, hiding no longer
counts: the first object that has it answers, in name order, of the scene before the project, and a
project's object that is hidden is asked like any other (`ProjectScope.Answers`). So a layer without
objects cannot be told from a layer that is not there (`ProjectScope.resolves`).
-/

set_option autoImplicit false

namespace EventSheet

/-! ## One container -/

namespace ObjectContainer

/-- The first object, in name order, that has a behavior has it of a type. -/
def Provides (c : ObjectContainer) (behavior type : String) : Prop :=
  ∃ name o, c.objects.get? name = some o ∧ o.behaviors.get? behavior = some type
    ∧ ∀ name' o', name' < name → c.objects.get? name' = some o' →
      o'.behaviors.get? behavior = none

/-- No object has a behavior. -/
def Lacks (c : ObjectContainer) (behavior : String) : Prop :=
  ∀ name o, c.objects.get? name = some o → o.behaviors.get? behavior = none

variable {c : ObjectContainer} {behavior type : String}

/-- Asked for a behavior of any object, a container answers with the first that has it. -/
theorem anyBehaviorType?_eq_some_iff_provides :
    c.anyBehaviorType? behavior = some type ↔ c.Provides behavior type :=
  NameMap.findSome?_values_eq_some_iff

/-- A container has no such answer exactly if no object has the behavior. -/
theorem anyBehaviorType?_eq_none_iff_lacks :
    c.anyBehaviorType? behavior = none ↔ c.Lacks behavior :=
  NameMap.findSome?_values_eq_none_iff

end ObjectContainer

/-! ## Two layers -/

namespace ProjectScope

/-- The declaration of an object that is visible: the scene's, or else the project's. -/
inductive Visible (s : ProjectScope) (name : String) (o : DeclaredObject) : Prop where
  | ofScene : s.locals.objects.get? name = some o → Visible s name o
  | ofProject : s.locals.objects.get? name = none → s.globals.objects.get? name = some o →
      Visible s name o

/-- What answers for a behavior that is written on an object: the visible declaration of the object
if it has the behavior, or else the first object of the scene that has it, or else the first of the
project. -/
inductive Answers (s : ProjectScope) (name behavior type : String) : Prop where
  | own {o} : s.Visible name o → o.behaviors.get? behavior = some type →
      Answers s name behavior type
  | ofScene : (∀ o, s.Visible name o → o.behaviors.get? behavior = none) →
      s.locals.Provides behavior type → Answers s name behavior type
  | ofProject : (∀ o, s.Visible name o → o.behaviors.get? behavior = none) →
      s.locals.Lacks behavior → s.globals.Provides behavior type → Answers s name behavior type

section Names

variable {s : ProjectScope} {name behavior type : String} {o : DeclaredObject}

/-- The visible declaration is what a look-up through both layers finds. -/
theorem visible_iff : s.Visible name o ↔
    (s.locals.objects.get? name).or (s.globals.objects.get? name) = some o := by
  rw [Option.or_eq_some_iff]
  constructor
  · rintro (hscene | ⟨hnone, hproject⟩)
    · exact Or.inl hscene
    · exact Or.inr ⟨hnone, hproject⟩
  · rintro (hscene | ⟨hnone, hproject⟩)
    · exact .ofScene hscene
    · exact .ofProject hnone hproject

/-- The container that is asked for an object has the visible declaration, if there is any. -/
theorem get?_declaring (s : ProjectScope) (name : String) :
    (s.declaring name).objects.get? name
      = (s.locals.objects.get? name).or (s.globals.objects.get? name) := by
  unfold declaring NameMap.contains
  rcases hscene : s.locals.objects.get? name with _ | o
  · rfl
  · exact hscene

/-- The type of an object is that of its visible declaration. -/
theorem objectType?_eq_some_iff :
    s.objectType? name = some type ↔ ∃ o, s.Visible name o ∧ o.type = type := by
  simp only [objectType?, ObjectContainer.objectType?, ← Option.map_or, Option.map_eq_some_iff,
    visible_iff]

/-- The container that is asked for an object answers for its behaviors from the visible
declaration. -/
theorem declaring_ownBehaviorType?_eq_some_iff :
    (s.declaring name).ownBehaviorType? name behavior = some type ↔
      ∃ o, s.Visible name o ∧ o.behaviors.get? behavior = some type := by
  simp only [ObjectContainer.ownBehaviorType?, Option.bind_eq_some_iff, get?_declaring, visible_iff]

/-- What declares an object has no answer if the visible declaration lacks the behavior, or there is
none. -/
theorem declaring_ownBehaviorType?_eq_none_iff :
    (s.declaring name).ownBehaviorType? name behavior = none ↔
      ∀ o, s.Visible name o → o.behaviors.get? behavior = none := by
  simp only [ObjectContainer.ownBehaviorType?, Option.bind_eq_none_iff, get?_declaring, visible_iff]

/-- The type of a behavior is what answers for it. -/
theorem behaviorType?_eq_some_iff :
    s.behaviorType? name behavior = some type ↔ s.Answers name behavior type := by
  -- the three places are asked one after the other, each only if those before have no answer
  rw [behaviorType?, Option.or_assoc, Option.or_eq_some_iff, Option.or_eq_some_iff,
    declaring_ownBehaviorType?_eq_some_iff, declaring_ownBehaviorType?_eq_none_iff,
    ObjectContainer.anyBehaviorType?_eq_some_iff_provides,
    ObjectContainer.anyBehaviorType?_eq_none_iff_lacks,
    ObjectContainer.anyBehaviorType?_eq_some_iff_provides]
  constructor
  · rintro (⟨o, hvisible, htype⟩ | ⟨hown, hscene | ⟨hscene, hproject⟩⟩)
    · exact .own hvisible htype
    · exact .ofScene hown hscene
    · exact .ofProject hown hscene hproject
  · rintro (⟨hvisible, htype⟩ | ⟨hown, hscene⟩ | ⟨hown, hscene, hproject⟩)
    · exact Or.inl ⟨_, hvisible, htype⟩
    · exact Or.inr ⟨hown, Or.inl hscene⟩
    · exact Or.inr ⟨hown, Or.inr ⟨hscene, hproject⟩⟩

/-- A behavior has no type only where no object has it, hidden ones included. -/
theorem behaviorType?_eq_none_iff :
    s.behaviorType? name behavior = none ↔
      s.locals.Lacks behavior ∧ s.globals.Lacks behavior := by
  rw [behaviorType?, Option.or_assoc, Option.or_eq_none_iff, Option.or_eq_none_iff,
    declaring_ownBehaviorType?_eq_none_iff, ObjectContainer.anyBehaviorType?_eq_none_iff_lacks,
    ObjectContainer.anyBehaviorType?_eq_none_iff_lacks]
  constructor
  · intro h
    exact h.2
  · intro h
    refine ⟨?_, h⟩
    -- the visible declaration is one of them
    rintro o (hscene | ⟨-, hproject⟩)
    · exact h.1 name o hscene
    · exact h.2 name o hproject

end Names

/-! ## A layer without objects -/

section Empty

variable (c : ObjectContainer)

/-- A scene without objects adds nothing to the project. -/
theorem toScope_empty_locals : toScope ⟨c, .empty⟩ = c.toScope := by
  have hbehavior : behaviorType? ⟨c, .empty⟩ = c.behaviorType? := by
    funext name behavior
    exact congrArg (Option.or · _) (Option.or_none)
  rw [toScope, ObjectContainer.toScope, hbehavior]
  rfl

/-- A project without objects adds nothing to the scene. -/
theorem toScope_empty_globals : toScope ⟨.empty, c⟩ = c.toScope := by
  have hobject : objectType? ⟨.empty, c⟩ = c.objectType? := by
    funext name
    exact Option.or_none
  have hbehavior : behaviorType? ⟨.empty, c⟩ = c.behaviorType? := by
    funext name behavior
    -- the object is asked in the scene if it is there, and else in a project that has no objects
    have hown : (declaring ⟨.empty, c⟩ name).ownBehaviorType? name behavior
        = c.ownBehaviorType? name behavior := by
      rw [ObjectContainer.ownBehaviorType?, get?_declaring]
      exact congrArg (Option.bind · _) Option.or_none
    rw [behaviorType?, hown]
    exact Option.or_none
  rw [toScope, ObjectContainer.toScope, hobject, hbehavior]

end Empty

end ProjectScope

/-- **Names through two layers.** The type of an object is that of its visible declaration. The type
of a behavior is what answers for it, and there is none if no object of either layer has it. A layer
without objects changes no answer, and so no check. -/
theorem ProjectScope.resolves (globals locals : ObjectContainer) :
    let s : ProjectScope := ⟨globals, locals⟩
    (∀ name type, s.objectType? name = some type ↔ ∃ o, s.Visible name o ∧ o.type = type)
      ∧ (∀ name behavior type,
        s.behaviorType? name behavior = some type ↔ s.Answers name behavior type)
      ∧ (∀ name behavior,
        s.behaviorType? name behavior = none ↔ locals.Lacks behavior ∧ globals.Lacks behavior)
      ∧ ∀ c : ObjectContainer, toScope ⟨c, .empty⟩ = c.toScope ∧ toScope ⟨.empty, c⟩ = c.toScope
        ∧ ∀ registry expected e,
          validate registry (toScope ⟨c, .empty⟩) expected e
              = validate registry c.toScope expected e
            ∧ validate registry (toScope ⟨.empty, c⟩) expected e
              = validate registry c.toScope expected e := by
  intro s
  refine ⟨fun name type => objectType?_eq_some_iff,
    fun name behavior type => behaviorType?_eq_some_iff,
    fun name behavior => behaviorType?_eq_none_iff, fun c => ?_⟩
  have hscene := toScope_empty_locals c
  have hproject := toScope_empty_globals c
  refine ⟨hscene, hproject, fun registry expected e => ?_⟩
  rw [hscene, hproject]
  exact ⟨rfl, rfl⟩

/-- The scene's `Hero` hides the project's. It has no `Health`, so the first object that has one
answers: the scene has none, and in the project the hidden `Hero` comes before `Tree`. -/
example :
    let globals := ((((ObjectContainer.empty.withObject "Hero" "Sprite").withBehavior
      "Hero" "Health" "HeroHealth").withObject "Tree" "Sprite").withBehavior
      "Tree" "Health" "TreeHealth")
    let s : ProjectScope := ⟨globals, ObjectContainer.empty.withObject "Hero" "Text"⟩
    s.objectType? "Hero" = some "Text" ∧ s.behaviorType? "Hero" "Health" = some "HeroHealth"
      ∧ s.behaviorType? "Tree" "Health" = some "TreeHealth" := by
  decide

end EventSheet
