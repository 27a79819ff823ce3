import EventSheet.Proofs.Catalog.Exactness

/-!
The order of extensions does not matter.

Extensions are processed in the order of their names, and the name of an extension becomes part of
nothing that is registered. So catalogs that have the same extensions under other names differ in
the order in which things come, and in nothing else. Whether all declarations can be registered does
not depend on that order, and before any copy is made the registries are the same (`filled_perm`).
Copies are made one after another. Two of them commute if neither fills a place that the other
reads or fills (`copy_comm`), and then the registries are the same in the end
(`ofCatalog_perm`).
-/

set_option autoImplicit false

namespace EventSheet

/-! ## What is declared, but for the order -/

/-- A group without the name of the place of its declaration, which only messages use. -/
def DeclaredGroup.unlabelled (g : DeclaredGroup) : DeclaredGroup := { g with label := "" }

/-- The groups of an extension depend on its name only in their labels. -/
theorem Extension.map_unlabelled_groups (x : Extension) (name name' : String) :
    (x.groups name).map DeclaredGroup.unlabelled = (x.groups name').map .unlabelled := by
  simp only [groups, List.map_append, List.map_cons, List.map_map]
  rfl

/-- Two copies are independent if they are of different owners or kinds, or if neither fills a place
that the other reads or fills. -/
def Copy.Independent (d d' : Copy) : Prop :=
  d.target.owner = d'.target.owner → d.target.kind = d'.target.kind →
    d.target.name ≠ d'.source ∧ d'.target.name ≠ d.source ∧ d.target.name ≠ d'.target.name

/-- Independent copies are about different places. -/
theorem Copy.Independent.keys {d d' : Copy} (h : d.Independent d') :
    d.target ≠ d'.sourceKey ∧ d'.target ≠ d.sourceKey ∧ d.target ≠ d'.target := by
  refine ⟨fun heq => ?_, fun heq => ?_, fun heq => ?_⟩
  · have howner : d.target.owner = d'.target.owner := by rw [heq]; rfl
    have hkind : d.target.kind = d'.target.kind := by rw [heq]; rfl
    exact (h howner hkind).1 (congrArg FunctionKey.name heq)
  · have howner : d'.target.owner = d.target.owner := by rw [heq]; rfl
    have hkind : d'.target.kind = d.target.kind := by rw [heq]; rfl
    exact (h howner.symm hkind.symm).2.1 (congrArg FunctionKey.name heq)
  · exact (h (by rw [heq]) (by rw [heq])).2.2 (congrArg FunctionKey.name heq)

namespace Catalog

/-- Any two different copies of a catalog are independent. The same copy may be listed twice. -/
def CopiesIndependent (c : Catalog) : Prop :=
  ∀ d ∈ c.copies, ∀ d' ∈ c.copies, d ≠ d' → d.Independent d'

variable {c c' : Catalog}

/-- But for the labels, the groups of a catalog are those of its extensions, whatever their names.
-/
theorem map_unlabelled_groups (c : Catalog) :
    c.groups.map DeclaredGroup.unlabelled
      = c.extensions.values.flatMap fun x => (x.groups "").map .unlabelled := by
  rw [groups, List.map_flatMap, NameMap.values, List.flatMap_map]
  exact List.flatMap_congr fun e _ => e.2.map_unlabelled_groups e.1 ""

section Perm

variable (h : c.extensions.values.Perm c'.extensions.values)

include h

/-- The same extensions have the same groups, in some order. -/
theorem groups_perm :
    (c.groups.map DeclaredGroup.unlabelled).Perm (c'.groups.map .unlabelled) := by
  rw [map_unlabelled_groups, map_unlabelled_groups]
  exact h.flatMap_right _

/-- The same extensions declare the same types of objects, in some order. -/
theorem typeBindings_perm : c.typeBindings.Perm c'.typeBindings := h.flatMap_right _

/-- The same extensions declare the same functions, in some order. -/
theorem functionBindings_perm : c.functionBindings.Perm c'.functionBindings := by
  have hunlabelled : ∀ c : Catalog, c.functionBindings
      = (c.groups.map DeclaredGroup.unlabelled).flatMap DeclaredGroup.bindings := by
    intro c
    rw [List.flatMap_map]
    rfl
  rw [hunlabelled, hunlabelled]
  exact (groups_perm h).flatMap_right _

/-- The same extensions list the same copies, in some order. -/
theorem copies_perm : c.copies.Perm c'.copies := by
  have hunlabelled : ∀ c : Catalog, c.copies
      = (c.groups.map DeclaredGroup.unlabelled).flatMap DeclaredGroup.copies := by
    intro c
    rw [List.flatMap_map]
    rfl
  rw [hunlabelled, hunlabelled]
  exact (groups_perm h).flatMap_right _

/-- Whether a catalog can be built does not depend on the order of its extensions. -/
theorem Buildable.perm (hbuildable : c.Buildable) : c'.Buildable where
  types := ((typeBindings_perm h).map Prod.fst).nodup_iff.mp hbuildable.types
  named b hb := hbuildable.named b ((functionBindings_perm h).mem_iff.mpr hb)
  functions := ((functionBindings_perm h).map Prod.fst).nodup_iff.mp hbuildable.functions

end Perm

end Catalog

namespace Registry

/-! ## Before any copy is made -/

section Declared

variable {r r' : Registry} {c c' : Catalog} {typed typed' filled filled' : Registry}

/-- Registering a type of objects keeps the platform. -/
theorem platform_addDeclaredObject {qualifier : String} {e : String × ObjectDeclaration}
    (h : r.addDeclaredObject qualifier e = .ok r') : r'.platform = r.platform := by
  unfold addDeclaredObject at h
  by_cases htype : qualifiedName qualifier e.1 = ""
  · simp only [if_pos htype, Except.ok.injEq] at h
    rw [h]
  · simp only [if_neg htype] at h
    rw [(addObject_eq_ok_iff.mp h).2]
    rfl

/-- Registering a type of behaviors keeps the platform. -/
theorem platform_addBehavior (r : Registry) (name : String) :
    (r.addBehavior name).platform = r.platform := by
  unfold addBehavior
  split <;> rfl

/-- Registering the types of an extension keeps the platform. -/
theorem platform_addTypes {x : Extension} (h : r.addTypes x = .ok r') :
    r'.platform = r.platform := by
  obtain ⟨middle, hobjects, hbehaviors⟩ := bind_eq_ok_iff.mp h
  have hmiddle : middle.platform = r.platform :=
    foldlM_keeps (P := fun r₁ => r₁.platform = r.platform)
      (fun _ _ _ _ hs hstep => (platform_addDeclaredObject hstep).trans hs) rfl hobjects
  rw [← Except.ok.inj hbehaviors]
  exact List.foldlRecOn (motive := fun r₁ : Registry => r₁.platform = r.platform)
    x.behaviors.names _ hmiddle
    fun r₁ hr₁ n _ => (r₁.platform_addBehavior (qualifiedName x.qualifier n)).trans hr₁

/-- Behind the first round the platform is that of the catalog. -/
theorem platform_typed (h : c.extensions.values.foldlM addTypes (.empty c.platform) = .ok typed) :
    typed.platform = c.platform :=
  foldlM_keeps (P := fun r => r.platform = c.platform)
    (fun _ _ _ _ hs hstep => (platform_addTypes hstep).trans hs) rfl h

variable (hplatform : c.platform = c'.platform)
  (hperm : c.extensions.values.Perm c'.extensions.values)
  (htyped : c.extensions.values.foldlM addTypes (.empty c.platform) = .ok typed)
  (htyped' : c'.extensions.values.foldlM addTypes (.empty c'.platform) = .ok typed')

include hplatform hperm htyped htyped'

/-- The first round registers the same types in every order. -/
theorem typed_perm : typed.SameTypes typed' where
  platform := by rw [platform_typed htyped, platform_typed htyped', hplatform]
  objects type := by
    have hlook : ∀ t, typed.objects.get? type = some t ↔ typed'.objects.get? type = some t := by
      intro t
      rw [c.addTypes_adds.look_iff _ _ (untouched_empty _) htyped type t,
        c'.addTypes_adds.look_iff _ _ (untouched_empty _) htyped' type t, hplatform,
        (Catalog.typeBindings_perm hperm).mem_iff]
    rw [bareType?, bareType?, object?, object?, Option.ext hlook]
  behaviors type := by
    rw [Bool.eq_iff_iff, hasBehavior_iff, hasBehavior_iff, Catalog.registered_behavior htyped,
      Catalog.registered_behavior htyped', hplatform]
    simp only [hperm.mem_iff]

/-- The second round gives the same registry in every order. -/
theorem filled_perm (hfilled : c.groups.foldlM addDeclared typed = .ok filled)
    (hfilled' : c'.groups.foldlM addDeclared typed' = .ok filled') : filled = filled' := by
  have htypes := typed_perm hplatform hperm htyped htyped'
  have hsame : filled.SameTypes filled' :=
    ((sameTypes_filled hfilled).symm.trans htypes).trans (sameTypes_filled hfilled')
  refine ext_find? hsame fun key => Option.ext fun s => ?_
  rw [Catalog.find?_filled htyped hfilled, Catalog.find?_filled htyped' hfilled',
    (Catalog.functionBindings_perm hperm).mem_iff]

end Declared

/-! ## Copies -/

section Copies

variable {d d' : Copy}

/-- Two copies may be made in either order if neither fills a place that the other reads or
fills. -/
theorem copy_comm (r : Registry) (hread : d.target ≠ d'.sourceKey)
    (hread' : d'.target ≠ d.sourceKey) (hfill : d.target ≠ d'.target) :
    (r.copy d).copy d' = (r.copy d').copy d := by
  have htypes : ((r.copy d).copy d').SameTypes ((r.copy d').copy d) :=
    ((r.sameTypes_copy d).trans ((r.copy d).sameTypes_copy d')).symm.trans
      ((r.sameTypes_copy d').trans ((r.copy d').sameTypes_copy d))
  -- both registries have the same types, so it is enough to look at each key
  refine ext_find? htypes fun key => ?_
  have hsource : (r.copy d').find? d.sourceKey = r.find? d.sourceKey := by
    rw [find?_copy, if_neg hread']
  have hsource' : (r.copy d).find? d'.sourceKey = r.find? d'.sourceKey := by
    rw [find?_copy, if_neg hread]
  rw [find?_copy (r.copy d) d', find?_copy (r.copy d') d, hsource, hsource', find?_copy r d,
    find?_copy r d']
  -- at the key of the one copy the other one does nothing
  by_cases hkey : d.target = key
  · have hother : d'.target ≠ key := fun hkey' => hfill (hkey.trans hkey'.symm)
    simp only [if_pos hkey, if_neg hother]
  · simp only [if_neg hkey]

/-- Copies that are all independent of one another may be made in any order. -/
theorem foldl_copy_perm {copies copies' : List Copy} (hperm : copies.Perm copies')
    (h : ∀ d ∈ copies, ∀ d' ∈ copies, d ≠ d' → d.Independent d') (r : Registry) :
    copies.foldl copy r = copies'.foldl copy r := by
  refine hperm.foldl_eq' (fun d hd d' hd' r => ?_) r
  -- a copy may be listed twice, and commutes with itself
  by_cases hsame : d = d'
  · rw [hsame]
  · obtain ⟨hread, hread', hfill⟩ := (h d hd d' hd' hsame).keys
    exact r.copy_comm hread hread' hfill

/-- The source of a copy stays as it is while others are made that are independent of it, and also
when it is copied to where it is. -/
theorem find?_sourceKey_copy {r : Registry} {s : Signature} (hs : r.find? d.sourceKey = some s)
    (hname : s.name = d.source) (h : d ≠ d' → d.Independent d') :
    (r.copy d').find? d.sourceKey = some s := by
  rw [find?_copy]
  -- an independent copy that is put at the source is the copy itself
  by_cases htarget : d'.target = d.sourceKey
  · have hsame : d = d' := by
      by_contra hne
      exact (h hne).keys.2.1 htarget
    subst hsame
    have hsource : d.target.name = s.name := (congrArg FunctionKey.name htarget).trans hname.symm
    rw [if_pos htarget, hs, Option.map_some, Option.some_or, hsource]
  · rw [if_neg htarget, hs]

/-- Among independent copies, a copy of a function that is there before all of them is that function
under its new name. -/
theorem find?_target_foldl_copy {copies : List Copy}
    (h : ∀ d ∈ copies, ∀ d' ∈ copies, d ≠ d' → d.Independent d') (hd : d ∈ copies)
    {r : Registry} {s : Signature} (hs : r.find? d.sourceKey = some s) (hname : s.name = d.source) :
    (copies.foldl copy r).find? d.target = some { s with name := d.target.name } := by
  -- the order does not matter, so this copy can be made last
  have hlast : copies.Perm (copies.erase d ++ [d]) :=
    (List.perm_cons_erase hd).trans (List.perm_append_singleton d _).symm
  have hsource : ((copies.erase d).foldl copy r).find? d.sourceKey = some s :=
    List.foldlRecOn (motive := fun r : Registry => r.find? d.sourceKey = some s) _ copy hs
      fun r hr d' hd' => find?_sourceKey_copy hr hname (h d hd d' (List.mem_of_mem_erase hd'))
  rw [foldl_copy_perm hlast h, List.foldl_append, List.foldl_cons, List.foldl_nil, find?_copy,
    if_pos rfl, hsource, Option.map_some, Option.some_or]

end Copies

/-! ## Catalogs -/

section Built

variable {c c' : Catalog} {r r' : Registry} {warnings warnings' : List RegistryWarning}

/-- A copy of a declared function is made, whatever the order. -/
theorem exists_lookup_target (h : ofCatalog c = .ok (r, warnings)) {d : Copy} (hd : d ∈ c.copies)
    (hsource : d.sourceKey ∈ c.declaredKeys) :
    ∃ s, r.lookup d.target.kind d.target.owner d.target.name = some s := by
  obtain ⟨before, after, hsplit⟩ := List.append_of_mem hd
  have hfilled : d.target ∈ c.keysAfter c.copies :=
    Catalog.mem_keysAfter_iff.mpr (Or.inr ⟨before, d, after, hsplit, rfl,
      Catalog.mem_keysAfter_iff.mpr (Or.inl hsource)⟩)
  obtain ⟨s, hs⟩ := Option.ne_none_iff_exists'.mp ((hasKeys_ofCatalog h d.target).mp hfilled)
  exact ⟨s, lookup_of_find? hs⟩

/-- **The order of extensions does not matter.** Two catalogs for one platform have the same
extensions, under any names, so that they are processed in any order. Then both can be built or
neither can. A copy of a function that some extension declares is found in either registry, wherever
that extension comes. And if the copies are independent of one another, the two registries are
equal, so that they answer everything alike, and such a copy is the declared function under its new
name. -/
theorem ofCatalog_perm (hplatform : c.platform = c'.platform)
    (hperm : c.extensions.values.Perm c'.extensions.values) :
    ((∃ r warnings, ofCatalog c = .ok (r, warnings)) ↔
        ∃ r warnings, ofCatalog c' = .ok (r, warnings))
      ∧ ∀ r warnings r' warnings', ofCatalog c = .ok (r, warnings) →
        ofCatalog c' = .ok (r', warnings') →
        (∀ d ∈ c.copies, d.sourceKey ∈ c.declaredKeys →
          (∃ s, r.lookup d.target.kind d.target.owner d.target.name = some s)
            ∧ ∃ s, r'.lookup d.target.kind d.target.owner d.target.name = some s)
        ∧ (c.CopiesIndependent →
          r = r' ∧ ∀ d ∈ c.copies, ∀ s, (d.sourceKey, s) ∈ c.functionBindings →
            r.lookup d.target.kind d.target.owner d.target.name
              = some { s with name := d.target.name }) := by
  have hcopies := Catalog.copies_perm hperm
  have hfunctions := Catalog.functionBindings_perm hperm
  refine ⟨?_, fun r warnings r' warnings' h h' => ⟨fun d hd hsource => ?_, fun hindependent => ?_⟩⟩
  · rw [ofCatalog_succeeds_iff, ofCatalog_succeeds_iff]
    exact ⟨Catalog.Buildable.perm hperm, Catalog.Buildable.perm hperm.symm⟩
  · have hsource' : d.sourceKey ∈ c'.declaredKeys := (hfunctions.map Prod.fst).mem_iff.mp hsource
    exact ⟨exists_lookup_target h hd hsource,
      exists_lookup_target h' (hcopies.mem_iff.mp hd) hsource'⟩
  · obtain ⟨typed, filled, htyped, hfilled, hmade⟩ := exists_rounds h
    obtain ⟨typed', filled', htyped', hfilled', hmade'⟩ := exists_rounds h'
    have hr := eq_foldl_copy hmade
    have hr' := eq_foldl_copy hmade'
    have hsame : filled = filled' := filled_perm hplatform hperm htyped htyped' hfilled hfilled'
    refine ⟨?_, fun d hd s hs => ?_⟩
    · rw [hr, hr', ← hsame]
      exact foldl_copy_perm hcopies hindependent filled
    · have hsource : filled.find? d.sourceKey = some s :=
        (Catalog.find?_filled htyped hfilled d.sourceKey s).mpr hs
      have hname : s.name = d.source := Catalog.name_of_mem_functionBindings hs
      rw [hr]
      exact lookup_of_find? (find?_target_foldl_copy hindependent hd hsource hname)

end Built

end Registry

/-- A catalog of two extensions, one with a function and the other with a copy of it. The names of
the extensions decide which one comes first. -/
def Catalog.scores (declaring copying : String) : Catalog :=
  let score : FunctionDeclaration := ⟨"", "number", [], none⟩
  let functions : Extension :=
    ⟨"", "", ⟨⟨.ofList [("GetScore", score)], .empty, .empty⟩, []⟩, .empty, .empty⟩
  let copies : Extension :=
    ⟨"", "", ⟨.empty, [⟨.expression, "Score", "GetScore"⟩]⟩, .empty, .empty⟩
  ⟨"game", Catalog.defaultVersion, .ofList [(declaring, functions), (copying, copies)]⟩

/-- The copy is made, whether it comes behind the function in the catalog or before it. -/
theorem Registry.ofCatalog_perm_scores :
    let c := Catalog.scores "Base" "Names"
    let c' := Catalog.scores "Scores" "Names"
    c.extensions.values ≠ c'.extensions.values
      ∧ c.extensions.values.Perm c'.extensions.values ∧ c.CopiesIndependent
      ∧ ∃ r, (∃ warnings, ofCatalog c = .ok (r, warnings))
        ∧ (∃ warnings', ofCatalog c' = .ok (r, warnings'))
        ∧ r.lookup .expression .global "Score"
          = some ⟨"Score", "number", [], none, .global, ""⟩ := by
  intro c c'
  have hperm : c.extensions.values.Perm c'.extensions.values :=
    (c.extensions.values.reverse_perm).symm
  have hcopies : c.copies = [⟨⟨.global, .expression, "Score"⟩, "GetScore"⟩] := rfl
  have hindependent : c.CopiesIndependent := by
    intro d hd d' hd' hne
    rw [hcopies, List.mem_singleton] at hd hd'
    exact absurd (hd.trans hd'.symm) hne
  have hplatform : c.platform = c'.platform := rfl
  obtain ⟨hboth, hbuilt⟩ := ofCatalog_perm hplatform hperm
  have hc : ∃ r warnings, ofCatalog c = .ok (r, warnings) := ⟨_, _, rfl⟩
  obtain ⟨r, warnings, h⟩ := hc
  obtain ⟨r', warnings', h'⟩ := hboth.mp ⟨r, warnings, h⟩
  obtain ⟨hsame, hlookup⟩ := (hbuilt r warnings r' warnings' h h').2 hindependent
  subst hsame
  have horder : c.extensions.values ≠ c'.extensions.values := fun heq =>
    have hlengths : [0, 1] = [1, 0] :=
      congrArg (List.map fun x : Extension => x.functions.duplicates.length) heq
    absurd hlengths (by decide)
  refine ⟨horder, hperm, hindependent, r, ⟨warnings, h⟩, ⟨warnings', h'⟩, ?_⟩
  have hd : (⟨⟨.global, .expression, "Score"⟩, "GetScore"⟩ : Copy) ∈ c.copies := by
    rw [hcopies]
    exact List.mem_singleton_self _
  exact hlookup _ hd ⟨"GetScore", "number", [], none, .global, ""⟩ (List.mem_singleton_self _)

end EventSheet
