import EventSheet.Catalog.Audit
import EventSheet.Proofs.Catalog.Building

/-!
Which catalogs the loader accepts, and what it warns about.

The loader looks at one group at a time and stops at the first that it refuses. So a catalog is
accepted exactly if it has a platform and every group is accepted, and then its warnings are those
of the groups in order. Neither looks at two declarations together. Whether a catalog can be built
depends on just that, so acceptance does not settle it (`Catalog.accepted_iff_and_buildable_iff`).
-/

set_option autoImplicit false

namespace EventSheet

namespace Loading

variable {α β : Type}

/-- There is a result if there is one of both parts. -/
theorem andThen_result_eq_ok_iff {x : Loading α} {f : α → Loading β} {b : β} :
    (x.andThen f).result = .ok b ↔ ∃ a, x.result = .ok a ∧ (f a).result = .ok b := by
  unfold andThen
  rcases x.result with e | a
  · simp
  · simp

theorem andThen_warnings {x : Loading α} {f : α → Loading β} {a : α} (h : x.result = .ok a) :
    (x.andThen f).warnings = x.warnings ++ (f a).warnings := by
  rw [andThen, h]

end Loading

/-! ## One group -/

namespace DeclaredGroup

/-- A group is accepted exactly if every copy that it lists has both its names. -/
theorem audit_eq_ok_iff (g : DeclaredGroup) :
    g.audit.result = .ok () ↔ ∀ d ∈ g.functions.duplicates, d.name ≠ "" ∧ d.source ≠ "" := by
  have hincomplete : g.hasIncompleteDuplicate = false
      ↔ ∀ d ∈ g.functions.duplicates, d.name ≠ "" ∧ d.source ≠ "" := by
    simp [hasIncompleteDuplicate, List.any_eq_false]
  rw [← hincomplete, audit]
  cases g.hasIncompleteDuplicate <;> simp [Loading.fail, Loading.warn]

/-- The warnings about an accepted group are about return types first, and then about tags. -/
theorem audit_warnings {g : DeclaredGroup} (h : g.audit.result = .ok ()) :
    g.audit.warnings = g.returnWarnings ++ g.tagWarnings := by
  unfold audit at h ⊢
  by_cases hincomplete : g.hasIncompleteDuplicate = true
  · rw [if_pos hincomplete] at h
    cases h
  · rw [if_neg hincomplete]
    rfl

/-- A group is warned about for exactly its expressions without a return type. -/
theorem mem_returnWarnings_iff {g : DeclaredGroup} {w : LoadWarning} :
    w ∈ g.returnWarnings ↔ ∃ name f, (name, f) ∈ (g.functions.tables.get .expression).entries
      ∧ f.returnTag = "" ∧ w = .noReturnType g.label name := by
  simp only [returnWarnings, List.mem_map, List.mem_filter, decide_eq_true_eq]
  constructor
  · rintro ⟨⟨name, f⟩, ⟨hmem, htag⟩, rfl⟩
    exact ⟨name, f, hmem, htag, rfl⟩
  · rintro ⟨name, f, hmem, htag, rfl⟩
    exact ⟨(name, f), ⟨hmem, htag⟩, rfl⟩

/-- The parameters that a group is warned about are those that arguments are written for, as its
owner's receivers leave them, where the tag has no category. -/
theorem mem_unrecognizedParameters_iff {g : DeclaredGroup} (name : String)
    {f : FunctionDeclaration} {p : Parameter} :
    p ∈ g.unrecognizedParameters f ↔
      p ∈ (g.signature name f).written g.owner.sort.receiverSlots ∧ p.category = .unrecognized := by
  simp only [unrecognizedParameters, Signature.written, signature, List.mem_filter,
    Bool.and_eq_true, decide_eq_true_eq, and_assoc]

/-- A group is warned about for exactly its written parameters of no category. -/
theorem mem_tagWarnings_iff {g : DeclaredGroup} {w : LoadWarning} :
    w ∈ g.tagWarnings ↔ ∃ kind name f, (name, f) ∈ (g.functions.tables.get kind).entries
      ∧ ∃ p ∈ (g.signature name f).written g.owner.sort.receiverSlots,
        p.category = .unrecognized ∧ w = .unrecognizedTag kind g.label name p.tag := by
  simp only [tagWarnings, List.mem_flatMap, List.mem_map]
  constructor
  · rintro ⟨⟨kind, name, f⟩, hmem, p, hp, rfl⟩
    obtain ⟨hwritten, hcategory⟩ := (mem_unrecognizedParameters_iff name).mp hp
    exact ⟨kind, name, f, ByKind.mem_entries_iff.mp hmem, p, hwritten, hcategory, rfl⟩
  · rintro ⟨kind, name, f, hmem, p, hwritten, hcategory, rfl⟩
    exact ⟨(kind, name, f), ByKind.mem_entries_iff.mpr hmem, p,
      (mem_unrecognizedParameters_iff name).mpr ⟨hwritten, hcategory⟩, rfl⟩

end DeclaredGroup

/-! ## All groups -/

namespace Catalog

/-- Groups are accepted if each of them is. -/
theorem auditGroups_eq_ok_iff {groups : List DeclaredGroup} :
    (auditGroups groups).result = .ok () ↔ ∀ g ∈ groups, g.audit.result = .ok () := by
  induction groups with
  | nil => simp [auditGroups, Loading.succeed]
  | cons g groups ih =>
    rw [auditGroups, Loading.andThen_result_eq_ok_iff, List.forall_mem_cons, ← ih]
    exact ⟨fun ⟨_, hg, hrest⟩ => ⟨hg, hrest⟩, fun ⟨hg, hrest⟩ => ⟨(), hg, hrest⟩⟩

/-- Their warnings are in the order of the groups. -/
theorem auditGroups_warnings {groups : List DeclaredGroup}
    (h : ∀ g ∈ groups, g.audit.result = .ok ()) :
    (auditGroups groups).warnings = groups.flatMap fun g => g.audit.warnings := by
  induction groups with
  | nil => rfl
  | cons g groups ih =>
    obtain ⟨hg, hrest⟩ := List.forall_mem_cons.mp h
    -- an accepted group lets the check go on, and its own warnings stay in front
    rw [auditGroups, Loading.andThen_warnings hg, ih hrest, List.flatMap_cons]

variable {c : Catalog}

/-- A catalog is accepted if it has a platform and its groups are accepted. -/
theorem audit_eq_ok_iff :
    c.audit.result = .ok () ↔ c.platform ≠ "" ∧ ∀ g ∈ c.groups, g.audit.result = .ok () := by
  unfold audit
  -- without a platform no group is looked at
  by_cases hplatform : c.platform = ""
  · rw [if_pos hplatform]
    simp [Loading.fail, hplatform]
  · rw [if_neg hplatform, auditGroups_eq_ok_iff, and_iff_right hplatform]

/-- The warnings about an accepted catalog are those about its groups. -/
theorem audit_warnings_eq (h : c.audit.result = .ok ()) :
    c.audit.warnings = c.groups.flatMap fun g => g.audit.warnings := by
  obtain ⟨hplatform, hgroups⟩ := audit_eq_ok_iff.mp h
  rw [audit, if_neg hplatform, auditGroups_warnings hgroups]

/-- **What is accepted and what can be built.** A catalog is accepted exactly if it has a platform
and its copies have both their names. A registry can be built from it exactly if its declarations
have different keys and its functions have names. -/
theorem accepted_iff_and_buildable_iff (c : Catalog) :
    (c.audit.result = .ok () ↔
      c.platform ≠ "" ∧ ∀ g ∈ c.groups, ∀ d ∈ g.functions.duplicates, d.name ≠ "" ∧ d.source ≠ "")
    ∧ ((∃ r warnings, Registry.ofCatalog c = .ok (r, warnings)) ↔ c.Buildable) := by
  refine ⟨?_, Registry.ofCatalog_succeeds_iff c⟩
  simp only [audit_eq_ok_iff, DeclaredGroup.audit_eq_ok_iff]

/-- A catalog whose two extensions declare a type of one name. -/
def twoSprites : Catalog :=
  let sprites : NameMap ObjectDeclaration := .ofList [("Sprite", ⟨"", [], .empty, .empty⟩)]
  let x : Extension := ⟨"", "", .empty, sprites, .empty⟩
  ⟨"game", defaultVersion, .ofList [("Common", x), ("Physics", x)]⟩

/-- The two declarations are accepted, without a warning, and cannot both be registered. -/
theorem twoSprites_accepted_not_built :
    twoSprites.audit = .succeed ()
      ∧ Registry.ofCatalog twoSprites = .error (.duplicateObjectType "Sprite") :=
  ⟨rfl, rfl⟩

end Catalog

end EventSheet
