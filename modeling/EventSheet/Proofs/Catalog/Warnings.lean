import EventSheet.Proofs.Catalog.Audit
import EventSheet.Proofs.Catalog.Calls
import EventSheet.Proofs.Check.Codes

/-!
What the loader's warnings say about calls.

The loader reads declarations, the checker reads calls. They agree about parameters: the loader
warns about a parameter of no category exactly where the checker would pair an argument with it, for
both leave out what receivers fill and what generated code supplies
(`parameter_warnings_agree`). About return types they do not: the loader warns about a missing
return tag only, while a tag that means no type leaves a call without a type as well
(`quiet_catalog_call_types`).
-/

set_option autoImplicit false

namespace EventSheet

variable {c : Catalog} {r : Registry} {warnings : List RegistryWarning}

namespace Catalog

/-- A warning about an accepted catalog is one about one of its groups. -/
theorem mem_audit_warnings_iff (haccepted : c.audit.result = .ok ()) {w : LoadWarning} :
    w ∈ c.audit.warnings ↔ ∃ g ∈ c.groups, w ∈ g.returnWarnings ∨ w ∈ g.tagWarnings := by
  obtain ⟨-, hgroups⟩ := audit_eq_ok_iff.mp haccepted
  rw [audit_warnings_eq haccepted, List.mem_flatMap]
  refine exists_congr fun g => and_congr_right fun hg => ?_
  rw [DeclaredGroup.audit_warnings (hgroups g hg), List.mem_append]

end Catalog

/-! ## Parameters -/

/-- A parameter of no category that a call could have an argument for has been warned about. -/
theorem exists_unrecognizedTag (haccepted : c.audit.result = .ok ())
    (hbuilt : Registry.ofCatalog c = .ok (r, warnings)) {scope : ObjectScope} {callee : Callee}
    {signature : Signature} (hmeans : Means r scope callee signature) {p : Parameter}
    (hp : p ∈ signature.written callee.receiverSlots) (hcategory : p.category = .unrecognized) :
    ∃ label name, .unrecognizedTag .expression label name p.tag ∈ c.audit.warnings := by
  obtain ⟨g, hg, hslots, name, f, hmem, rfl⟩ := hmeans.exists_declared hbuilt
  -- the call leaves out as many parameters as the loader does for this group
  have hwritten : p ∈ (g.signature name f).written g.owner.sort.receiverSlots := hslots ▸ hp
  exact ⟨g.label, name, (Catalog.mem_audit_warnings_iff haccepted).mpr ⟨g, hg, Or.inr
    (DeclaredGroup.mem_tagWarnings_iff.mpr
      ⟨.expression, name, f, hmem, p, hwritten, hcategory, rfl⟩)⟩⟩

/-- **The loader and the checker agree about parameters.** The warnings about an accepted catalog
are those about its groups. If none of them is about a parameter of an expression, nothing that is
checked against its registry has a parameter of no category. And each of them that is about a free
expression, which no copy replaces, shows in a call of that expression. -/
theorem parameter_warnings_agree (haccepted : c.audit.result = .ok ())
    (hbuilt : Registry.ofCatalog c = .ok (r, warnings)) :
    (c.audit.warnings = c.groups.flatMap fun g => g.audit.warnings)
      ∧ ((∀ label name tag, .unrecognizedTag .expression label name tag ∉ c.audit.warnings) →
        ∀ scope expected e, ∀ d ∈ (validate r scope expected e).diagnostics,
          d.code ≠ .unknownParameterType)
      ∧ ∀ g ∈ c.groups, g.owner = .global → ∀ label name tag,
        .unrecognizedTag .expression label name tag ∈ g.audit.warnings →
        (∀ d ∈ c.copies, d.target ≠ ⟨.global, .expression, qualifiedName g.qualifier name⟩) →
        ∃ f callee arguments, (name, f) ∈ (g.functions.tables.get .expression).entries
          ∧ ∀ scope, Means r scope callee (g.signature name f)
            ∧ ∀ expected, (Problem.unknownParameterType tag).at .origin
              ∈ (validate r scope expected (.call callee arguments)).diagnostics := by
  refine ⟨Catalog.audit_warnings_eq haccepted, ?_, ?_⟩
  · intro hquiet scope expected e
    refine Check.code_ne_unknownParameterType (s := Check.setting r scope) ?_ expected 0 e
    intro callee signature hmeans p hp hcategory
    obtain ⟨label, name, hwarned⟩ := exists_unrecognizedTag haccepted hbuilt hmeans hp hcategory
    exact hquiet label name p.tag hwarned
  · intro g hg howner label name tag hwarned hkept
    obtain ⟨-, hgroups⟩ := Catalog.audit_eq_ok_iff.mp haccepted
    rw [DeclaredGroup.audit_warnings (hgroups g hg), List.mem_append,
      DeclaredGroup.mem_returnWarnings_iff, DeclaredGroup.mem_tagWarnings_iff] at hwarned
    obtain ⟨_, _, _, _, hw⟩ | ⟨kind, name, f, hmem, p, hp, hcategory, hw⟩ := hwarned
    -- a warning about a return type is not the one at hand
    · cases hw
    cases hw
    rw [← howner] at hkept
    let callee : Callee := .free (qualifiedName g.qualifier name) .origin
    have hmeans : ∀ scope, Means r scope callee (g.signature name f) := fun scope =>
      means_declared hbuilt hg hmem hkept (howner ▸ .global rfl rfl) rfl
    let arguments := Check.numberForEach ((g.signature name f).written callee.receiverSlots)
    refine ⟨f, callee, arguments, hmem, fun scope => ⟨hmeans scope, fun expected => ?_⟩⟩
    -- no object receives the call, so it is asked for no capability
    have hcapable : Capable r scope callee (g.signature name f) :=
      fun _ _ _ _ _ hobject => absurd rfl hobject
    rw [howner] at hp
    exact Check.unknownParameterType_mem_diagnosticsAt (s := Check.setting r scope) (hmeans scope)
      hcapable hp hcategory (Nat.zero_le _) expected

/-- A catalog of one extension with free expressions and nothing else. -/
def Catalog.ofExpressions (expressions : List (String × FunctionDeclaration)) : Catalog :=
  let functions : FunctionGroup := ⟨⟨.ofList expressions, .empty, .empty⟩, []⟩
  ⟨"game", defaultVersion, .ofList [("Common", ⟨"", "", functions, .empty, .empty⟩)]⟩

/-- An expression with one parameter, of a tag that is known and of one that is misspelled. -/
theorem parameter_warnings_agree_common :
    let known := Catalog.ofExpressions [("Abs", ⟨"", "number", [.ofTag "number"], none⟩)]
    let misspelled := Catalog.ofExpressions [("Abs", ⟨"", "number", [.ofTag "nubmer"], none⟩)]
    (∃ r, known.audit.result = .ok () ∧ Registry.ofCatalog known = .ok (r, [])
        ∧ known.audit.warnings = []
        ∧ ∀ scope expected e, ∀ d ∈ (validate r scope expected e).diagnostics,
          d.code ≠ .unknownParameterType)
      ∧ ∃ r, misspelled.audit.result = .ok () ∧ Registry.ofCatalog misspelled = .ok (r, [])
        ∧ misspelled.audit.warnings = [.unrecognizedTag .expression "Common" "Abs" "nubmer"]
        ∧ ∃ callee arguments, ∀ scope expected, (Problem.unknownParameterType "nubmer").at .origin
          ∈ (validate r scope expected (.call callee arguments)).diagnostics := by
  intro known misspelled
  constructor
  · obtain ⟨-, hfine, -⟩ := parameter_warnings_agree (c := known) rfl rfl
    refine ⟨_, rfl, rfl, rfl, hfine ?_⟩
    intro label name tag hwarned
    exact absurd hwarned List.not_mem_nil
  · obtain ⟨-, -, hreported⟩ := parameter_warnings_agree (c := misspelled) rfl rfl
    let group : DeclaredGroup := ⟨"Common", .global, "",
      ⟨⟨.ofList [("Abs", ⟨"", "number", [.ofTag "nubmer"], none⟩)], .empty, .empty⟩, []⟩⟩
    obtain ⟨_, callee, arguments, -, hall⟩ := hreported group (List.mem_singleton_self _) rfl
      "Common" "Abs" "nubmer" (List.mem_singleton_self _) (fun _ hd => absurd hd List.not_mem_nil)
    exact ⟨_, rfl, rfl, rfl, callee, arguments, fun scope => (hall scope).2⟩

/-! ## Return types -/

/-- A call that is looked at has the type that its function's return tag means. -/
theorem Means.walk_call {scope : ObjectScope} {callee : Callee} {signature : Signature}
    (h : Means r scope callee signature) {depth : Nat} (hdepth : depth ≤ maxDepth)
    (expected : ValueType) (owner : Option String) (arguments : List Expr) :
    (Check.walk (Check.setting r scope) expected depth owner (.call callee arguments)).1
      = signature.returnType := by
  have hresolve := (Check.resolve_eq_some_iff (Check.setting r scope) callee signature).mpr h
  rw [(Check.walk_owner _ expected depth owner _).1, Check.typeAt_call hdepth, Check.callType,
    hresolve]

/-- **The loader and the checker about return types.** An accepted catalog without warnings says a
return tag for every expression. If all these tags mean types, every call that is looked at has a
type. But no tag is warned about for meaning none, and each expression of such a tag, which no copy
replaces, has calls without a type. -/
theorem quiet_catalog_call_types (haccepted : c.audit.result = .ok ())
    (hquiet : c.audit.warnings = []) (hbuilt : Registry.ofCatalog c = .ok (r, warnings)) :
    (∀ g ∈ c.groups, ∀ name f, (name, f) ∈ (g.functions.tables.get .expression).entries →
        f.returnTag ≠ "")
      ∧ ((∀ g ∈ c.groups, ∀ name f, (name, f) ∈ (g.functions.tables.get .expression).entries →
          ValueType.ofTag f.returnTag ≠ .unknown) →
        ∀ scope callee signature, Means r scope callee signature →
          ∀ expected depth owner arguments, depth ≤ maxDepth →
            (Check.walk (Check.setting r scope) expected depth owner (.call callee arguments)).1
              ≠ .unknown)
      ∧ ∀ g ∈ c.groups, ∀ name f, (name, f) ∈ (g.functions.tables.get .expression).entries →
        ValueType.ofTag f.returnTag = .unknown →
        (∀ d ∈ c.copies, d.target ≠ ⟨g.owner, .expression, qualifiedName g.qualifier name⟩) →
        ∃ scope callee, Means r scope callee (g.signature name f)
          ∧ ∀ expected depth owner arguments, depth ≤ maxDepth →
            (Check.walk (Check.setting r scope) expected depth owner (.call callee arguments)).1
              = .unknown := by
  refine ⟨?_, ?_, ?_⟩
  · intro g hg name f hmem htag
    have hwarned : LoadWarning.noReturnType g.label name ∈ c.audit.warnings :=
      (Catalog.mem_audit_warnings_iff haccepted).mpr ⟨g, hg, Or.inl
        (DeclaredGroup.mem_returnWarnings_iff.mpr ⟨name, f, hmem, htag, rfl⟩)⟩
    rw [hquiet] at hwarned
    exact absurd hwarned List.not_mem_nil
  · intro htyped scope callee signature hmeans expected depth owner arguments hdepth
    rw [hmeans.walk_call hdepth]
    obtain ⟨g, hg, -, name, f, hmem, rfl⟩ := hmeans.exists_declared hbuilt
    exact htyped g hg name f hmem
  · intro g hg name f hmem htag hkept
    obtain ⟨scope, callee, hname, hreceiver⟩ :=
      exists_receiver g.owner (qualifiedName g.qualifier name)
    have hmeans := means_declared hbuilt hg hmem hkept hreceiver hname
    refine ⟨scope, callee, hmeans, fun expected depth owner arguments hdepth => ?_⟩
    rw [hmeans.walk_call hdepth]
    exact htag

/-- An expression of numbers, and one whose return tag is misspelled. -/
theorem quiet_catalog_call_types_score :
    let typed := Catalog.ofExpressions [("GetScore", ⟨"", "number", [], none⟩)]
    let misspelled := Catalog.ofExpressions [("GetScore", ⟨"", "nubmer", [], none⟩)]
    (∃ r, typed.audit.result = .ok () ∧ typed.audit.warnings = []
        ∧ Registry.ofCatalog typed = .ok (r, [])
        ∧ ∀ scope callee signature, Means r scope callee signature →
          ∀ expected depth owner arguments, depth ≤ maxDepth →
            (Check.walk (Check.setting r scope) expected depth owner (.call callee arguments)).1
              ≠ .unknown)
      ∧ ∃ r, misspelled.audit.result = .ok () ∧ misspelled.audit.warnings = []
        ∧ Registry.ofCatalog misspelled = .ok (r, [])
        ∧ ∃ scope callee, ∀ expected depth owner arguments, depth ≤ maxDepth →
          (Check.walk (Check.setting r scope) expected depth owner (.call callee arguments)).1
            = .unknown := by
  intro typed misspelled
  constructor
  · obtain ⟨-, htyped, -⟩ := quiet_catalog_call_types (c := typed) rfl rfl rfl
    refine ⟨_, rfl, rfl, rfl, htyped ?_⟩
    intro g hg name f hmem
    obtain rfl := List.mem_singleton.mp hg
    cases List.mem_singleton.mp hmem
    decide
  · obtain ⟨-, -, huntyped⟩ := quiet_catalog_call_types (c := misspelled) rfl rfl rfl
    obtain ⟨scope, callee, -, hall⟩ := huntyped _ (List.mem_singleton_self _) "GetScore"
      ⟨"", "nubmer", [], none⟩ (List.mem_singleton_self _) rfl
      (fun _ hd => absurd hd List.not_mem_nil)
    exact ⟨_, rfl, rfl, rfl, scope, callee, hall⟩

/-- A misspelled return tag is not warned about. The call of the function has no type, and passes
where a text is expected. -/
theorem misspelled_return_tag_unwarned :
    let c := Catalog.ofExpressions [("GetScore", ⟨"", "nubmer", [], none⟩)]
    let callee := Callee.free "GetScore" ⟨0, 10⟩
    c.audit = .succeed () ∧ ∃ r signature, Registry.ofCatalog c = .ok (r, [])
      ∧ Means r ProjectScope.empty.toScope callee signature
      ∧ validate r ProjectScope.empty.toScope .string (.call callee []) = ⟨[], .unknown, []⟩ :=
  ⟨rfl, _, _, rfl, .own (.global rfl rfl) rfl, rfl⟩

end EventSheet
