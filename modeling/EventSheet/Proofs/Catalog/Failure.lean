import EventSheet.Proofs.Catalog.Copies
import EventSheet.Proofs.NameMap

/-!
When the registry of a catalog cannot be built, and why.

Building stops at the first declaration that cannot be registered, and the error tells which one it
is (`Blames.foldlM`). All types come before all functions. So the error is about a type of objects
if one is declared twice, and otherwise about a function that has no name or is declared twice. It
is never about an owner that is missing, for the first round registers the owners of the second.
Copies come last and cannot fail: catalogs that differ in their copies fail alike, and a copy
without a source only leaves a warning (`Registry.ofCatalog_failure`).
-/

set_option autoImplicit false

namespace EventSheet

namespace Registry

/-! ## The first fault of a round -/

/-- A type of objects fails only for its own name. -/
theorem addDeclaredObject_blames (qualifier : String) (e : String × ObjectDeclaration) :
    Blames Untouched (fun r name => r.objects.get? name) (fun r => r.addDeclaredObject qualifier e)
      ((declaredType qualifier e).map Prod.fst) (fun _ => False)
      RegistryError.duplicateObjectType := by
  unfold addDeclaredObject declaredType
  by_cases htype : qualifiedName qualifier e.1 = ""
  · simp only [if_pos htype]
    exact Blames.pure id _
  · simp only [if_neg htype]
    refine Blames.single fun r err _ h => ?_
    obtain ⟨hbound, hfault⟩ := addObject_eq_error_iff.mp h
    exact ⟨Or.inr hbound, hfault⟩

/-- The types of an extension fail for the first name that is bound. -/
theorem addTypes_blames (x : Extension) :
    Blames Untouched (fun r name => r.objects.get? name) (fun r => r.addTypes x)
      (x.typeBindings.map Prod.fst) (fun _ => False) RegistryError.duplicateObjectType := by
  have hobjects := Blames.foldlM
    (fun e (_ : e ∈ x.objects.entries) => addDeclaredObject_blames x.qualifier e)
    fun e _ => (addDeclaredObject_adds x.qualifier e).unrefused
  -- the behaviors come behind the objects, and cannot fail
  have hboth := Blames.bind (m := []) (addDeclaredObjects_adds x).unrefused hobjects
    (Blames.pure (fun r => r.addBehaviors x.qualifier x.behaviors.names) [])
  rw [List.append_nil] at hboth
  exact hboth

/-- A function fails only for its own key. -/
theorem addFunction_blames {owners : List Owner} {owner : Owner} (howner : owner ∈ owners)
    (kind : Kind) (signature : Signature) :
    Blames (fun r : Registry => ∀ o ∈ owners, r.Registered o) find?
      (fun r => r.addFunction owner kind signature) [⟨owner, kind, signature.name⟩]
      (fun key => key.name = "") FunctionKey.fault :=
  Blames.single fun _ _ howners h => (addFunction_eq_error_iff (howners owner howner)).mp h

/-- The functions of a group fail for the first key that has no name or is bound. -/
theorem addDeclared_blames {owners : List Owner} {g : DeclaredGroup} (howner : g.owner ∈ owners) :
    Blames (fun r : Registry => ∀ o ∈ owners, r.Registered o) find? (fun r => r.addDeclared g)
      (g.bindings.map Prod.fst) (fun key => key.name = "") FunctionKey.fault := by
  have hsignatures := Blames.foldlM
    (fun e (_ : e ∈ g.signatures) => addFunction_blames howner e.1 e.2)
    fun e _ => (addFunction_adds howner e.1 e.2).of_iff (by rw [List.forall_mem_singleton])
  rw [← List.map_eq_flatMap] at hsignatures
  exact hsignatures

end Registry

namespace Catalog

variable {c : Catalog}

/-- The names of the types of objects that a catalog declares. -/
def declaredTypes (c : Catalog) : List String := c.typeBindings.map Prod.fst

/-- The first round fails for the first name that is bound, of all extensions. -/
theorem addTypes_blames (c : Catalog) :
    Blames Registry.Untouched (fun r name => r.objects.get? name)
      (fun r => c.extensions.values.foldlM Registry.addTypes r) c.declaredTypes (fun _ => False)
      RegistryError.duplicateObjectType :=
  Blames.foldlM (fun x _ => Registry.addTypes_blames x)
    fun x _ => (Registry.addTypes_adds x).unrefused

/-- The second round fails for the first key that has no name or is bound, of all groups. -/
theorem addDeclared_blames (c : Catalog) :
    Blames (fun r : Registry => ∀ o ∈ c.groups.map DeclaredGroup.owner, r.Registered o)
      Registry.find? (fun r => c.groups.foldlM Registry.addDeclared r) c.declaredKeys
      (fun key => key.name = "") FunctionKey.fault :=
  Blames.foldlM (fun _ hg => Registry.addDeclared_blames (List.mem_map_of_mem hg))
    fun _ hg => Registry.addDeclared_adds (List.mem_map_of_mem hg)

end Catalog

/-! ## Declarations without copies -/

/-- The same functions, without copies. -/
def FunctionGroup.withoutCopies (g : FunctionGroup) : FunctionGroup := { g with duplicates := [] }

/-- The same type of objects, without copies of its functions. -/
def ObjectDeclaration.withoutCopies (o : ObjectDeclaration) : ObjectDeclaration :=
  { o with functions := o.functions.withoutCopies }

/-- The same type of behaviors, without copies of its functions. -/
def BehaviorDeclaration.withoutCopies (b : BehaviorDeclaration) : BehaviorDeclaration :=
  { b with functions := b.functions.withoutCopies }

/-- The same declarations of an extension, without copies. -/
def Extension.withoutCopies (x : Extension) : Extension :=
  { x with
    functions := x.functions.withoutCopies
    objects := x.objects.mapValues ObjectDeclaration.withoutCopies
    behaviors := x.behaviors.mapValues BehaviorDeclaration.withoutCopies }

/-- The same declarations of a catalog, without copies. -/
def Catalog.withoutCopies (c : Catalog) : Catalog :=
  { c with extensions := c.extensions.mapValues Extension.withoutCopies }

/-- The same group, without copies. -/
def DeclaredGroup.withoutCopies (g : DeclaredGroup) : DeclaredGroup :=
  { g with functions := g.functions.withoutCopies }

/-- Without copies the groups are the same, without copies. -/
theorem Catalog.groups_withoutCopies (c : Catalog) :
    c.withoutCopies.groups = c.groups.map DeclaredGroup.withoutCopies := by
  have hgroups : ∀ e : String × Extension, e.2.withoutCopies.groups e.1
      = (e.2.groups e.1).map DeclaredGroup.withoutCopies := by
    intro e
    simp only [Extension.groups, Extension.withoutCopies, NameMap.mapValues, List.map_append,
      List.map_cons, List.map_map]
    rfl
  rw [groups, groups, List.map_flatMap, withoutCopies, NameMap.mapValues, List.flatMap_map]
  exact List.flatMap_congr fun e _ => hgroups e

namespace Registry

/-- Copies play no part in the first round. -/
theorem addTypes_withoutCopies (r : Registry) (x : Extension) :
    r.addTypes x.withoutCopies = r.addTypes x := by
  -- of a type of objects the functions are not read here, and of one of behaviors only the name is
  have hobjects : x.withoutCopies.objects.entries.foldlM (addDeclaredObject x.qualifier) r
      = x.objects.entries.foldlM (addDeclaredObject x.qualifier) r :=
    List.foldlM_map
  have hbehaviors : x.withoutCopies.behaviors.names = x.behaviors.names :=
    NameMap.names_mapValues _ _
  rw [addTypes, addTypes, hbehaviors]
  exact congrArg (· >>= _) hobjects

/-- The registry of the declarations of a catalog, before any copy is made. -/
def ofDeclarations (c : Catalog) : Except RegistryError Registry := do
  let typed ← c.extensions.values.foldlM addTypes (empty c.platform)
  c.groups.foldlM addDeclared typed

/-- Copies play no part before they are made. -/
theorem ofDeclarations_withoutCopies (c : Catalog) :
    ofDeclarations c.withoutCopies = ofDeclarations c := by
  have htypes : ∀ r, c.withoutCopies.extensions.values.foldlM addTypes r
      = c.extensions.values.foldlM addTypes r := by
    intro r
    rw [Catalog.withoutCopies, NameMap.values_mapValues, List.foldlM_map]
    simp only [addTypes_withoutCopies]
  have hfunctions : ∀ r, c.withoutCopies.groups.foldlM addDeclared r
      = c.groups.foldlM addDeclared r := by
    intro r
    rw [Catalog.groups_withoutCopies, List.foldlM_map]
    rfl
  simp only [ofDeclarations, htypes, hfunctions]
  rfl

/-- Building fails with the declarations, for copies cannot fail. -/
theorem ofCatalog_eq_error_iff {c : Catalog} {e : RegistryError} :
    ofCatalog c = .error e ↔ ofDeclarations c = .error e := by
  have hcopies : ofCatalog c = ofDeclarations c >>= fun filled =>
      .ok (c.groups.foldl addDuplicates (filled, [])) := by
    rw [ofCatalog, ofDeclarations, bind_assoc]
    rfl
  rw [hcopies, bind_eq_error_iff]
  exact or_iff_left fun ⟨_, _, h⟩ => nomatch h

/-! ## Building -/

variable {c : Catalog}

/-- Building fails exactly where it does not succeed. -/
theorem exists_error_iff_not_buildable : (∃ e, ofCatalog c = .error e) ↔ ¬ c.Buildable := by
  rw [← ofCatalog_succeeds_iff]
  rcases ofCatalog c with e | ⟨r, warnings⟩ <;> simp

/-- The first round fails at the first type of objects that is declared again. -/
theorem type_fault {e : RegistryError}
    (h : c.extensions.values.foldlM addTypes (.empty c.platform) = .error e) :
    ∃ before type after, c.declaredTypes = before ++ type :: after ∧ before.Nodup
      ∧ type ∈ before ∧ e = .duplicateObjectType type := by
  obtain ⟨before, type, after, hsplit, hnodup, -, hfault, he⟩ :=
    c.addTypes_blames _ e (untouched_empty c.platform) h
  have hdeclared : type ∈ c.declaredTypes := by
    rw [hsplit]
    exact List.mem_append_right _ List.mem_cons_self
  have hfree := Catalog.get?_empty_of_mem_typeBindings hdeclared c.platform
  -- at the start no declared name is taken, so it is one of those before it
  rcases hfault with hrefused | hbound | hmem
  · exact hrefused.elim
  · exact absurd hfree hbound
  · exact ⟨before, type, after, hsplit, hnodup, hmem, he⟩

/-- The second round fails at the first function that has no name or is declared again. -/
theorem function_fault {typed : Registry} {e : RegistryError}
    (htyped : c.extensions.values.foldlM addTypes (.empty c.platform) = .ok typed)
    (h : c.groups.foldlM addDeclared typed = .error e) :
    ∃ before key after, c.declaredKeys = before ++ key :: after ∧ before.Nodup
      ∧ (∀ k ∈ before, k.name ≠ "") ∧ (key.name = "" ∨ key ∈ before) ∧ e = key.fault := by
  obtain ⟨before, key, after, hsplit, hnodup, hfine, hfault, he⟩ :=
    c.addDeclared_blames typed e (Catalog.registered_owners htyped) h
  -- the first round brings no functions
  have hfree : typed.find? key = none :=
    (c.addTypes_adds.keeps _ _ (untouched_empty c.platform) htyped).find? key
  refine ⟨before, key, after, hsplit, hnodup, fun k hk => (hfine k hk).1, ?_, he⟩
  -- a function is refused without a name, or for one of those before it
  rcases hfault with hrefused | hbound | hmem
  · exact Or.inl hrefused
  · exact absurd hfree hbound
  · exact Or.inr hmem

/-- Behind the second round the owners of all copies are registered, as those of the functions. -/
theorem registered_target {typed filled : Registry}
    (htyped : c.extensions.values.foldlM addTypes (.empty c.platform) = .ok typed)
    (hfilled : c.groups.foldlM addDeclared typed = .ok filled) {d : Copy} (hd : d ∈ c.copies) :
    filled.Registered d.target.owner := by
  obtain ⟨g, hg, hcopy⟩ := List.mem_flatMap.mp hd
  obtain ⟨listed, -, rfl⟩ := List.mem_map.mp hcopy
  exact c.addDeclared_adds.keeps _ _ (Catalog.registered_owners htyped) hfilled _
    (List.mem_map_of_mem hg)

/-- Every copy without a source leaves one warning, and nothing else does. -/
theorem warnings_of_ofCatalog {r : Registry} {warnings : List RegistryWarning}
    (h : ofCatalog c = .ok (r, warnings)) :
    warnings = c.copies.zipIdx.flatMap fun e => c.warningsOf (c.copies.take e.2) e.1 := by
  obtain ⟨typed, filled, htyped, hfilled, hcopies⟩ := exists_rounds h
  have hkeys : filled.HasKeys (c.keysAfter []) :=
    hasKeys_declaredKeys (Catalog.find?_filled htyped hfilled)
  have hwarned := foldl_addCopy_snd [] (filled, []) hkeys
    fun d hd => registered_target htyped hfilled hd
  rw [hcopies] at hwarned
  exact hwarned

/-- **When building fails.** It fails exactly if two declared types of objects have one name, a
declared function has no name, or two declared functions have one owner, kind and name. The error is
about the first of the types in question, or else about the first of the functions; an owner that is
missing is never the reason. Catalogs that differ in their copies fail alike. And where building
succeeds, it leaves one warning for each copy whose source has no function when its turn comes. -/
theorem ofCatalog_failure (c : Catalog) :
    ((∃ e, ofCatalog c = .error e) ↔
        ¬ c.declaredTypes.Nodup ∨ (∃ key ∈ c.declaredKeys, key.name = "") ∨ ¬ c.declaredKeys.Nodup)
      ∧ (∀ e, ofCatalog c = .error e →
        (∃ before type after, c.declaredTypes = before ++ type :: after ∧ before.Nodup
          ∧ type ∈ before ∧ e = .duplicateObjectType type)
        ∨ c.declaredTypes.Nodup ∧ ∃ before key after, c.declaredKeys = before ++ key :: after
          ∧ before.Nodup ∧ (∀ k ∈ before, k.name ≠ "") ∧ (key.name = "" ∨ key ∈ before)
          ∧ e = key.fault)
      ∧ (∀ c' : Catalog, c'.withoutCopies = c.withoutCopies →
        ∀ e, ofCatalog c' = .error e ↔ ofCatalog c = .error e)
      ∧ ∀ r warnings, ofCatalog c = .ok (r, warnings) →
        warnings = c.copies.zipIdx.flatMap fun e => c.warningsOf (c.copies.take e.2) e.1 := by
  refine ⟨?_, ?_, ?_, fun r warnings h => warnings_of_ofCatalog h⟩
  · have hbuildable : c.Buildable ↔ c.declaredTypes.Nodup ∧ (∀ key ∈ c.declaredKeys, key.name ≠ "")
        ∧ c.declaredKeys.Nodup := by
      rw [Catalog.declaredKeys, List.forall_mem_map]
      constructor
      · intro h
        exact ⟨h.types, h.named, h.functions⟩
      · rintro ⟨htypes, hnamed, hfunctions⟩
        exact ⟨htypes, hnamed, hfunctions⟩
    rw [exists_error_iff_not_buildable, hbuildable, not_and_or, not_and_or]
    simp only [ne_eq, not_forall, not_not, exists_prop]
  · intro e h
    rcases bind_eq_error_iff.mp (ofCatalog_eq_error_iff.mp h) with
      htypes | ⟨typed, htyped, hfunctions⟩
    · exact Or.inl (type_fault htypes)
    · obtain ⟨-, hnodup, -⟩ :=
        (c.addTypes_adds.succeeds_iff _ (untouched_empty c.platform)).mp ⟨typed, htyped⟩
      exact Or.inr ⟨hnodup, function_fault htyped hfunctions⟩
  · intro c' hsame e
    -- both are built from the same declarations before any copy is made
    rw [ofCatalog_eq_error_iff, ofCatalog_eq_error_iff, ← ofDeclarations_withoutCopies c', hsame,
      ofDeclarations_withoutCopies]

end Registry

end EventSheet
