import EventSheet.Catalog.Json
import EventSheet.Catalog.Registration
import EventSheet.Proofs.Json.Members

/-!
The JSON form of catalogs.

Each record is encoded with all of its members, so decoding it comes down to the values of the
members (`Has.optional?`), and these are decoded by the laws of lists, maps and optional values. The
tables of a group of functions stand among the members of its owner, and are read from there
whatever else the owner has (`FunctionGroup.StandsIn.ofMembers?_eq`).
-/

set_option autoImplicit false

namespace EventSheet

open Json (Has)

/-! ## Lists, maps and optional values -/

/-- A map is made again from its entries, whose names all differ. -/
theorem NameMap.ofList_entries {α : Type} (m : NameMap α) : NameMap.ofList m.entries = m := by
  refine NameMap.ext_get? fun name => ?_
  rw [NameMap.ofList, NameMap.get?_insertMany_entries, NameMap.get?_empty, Option.or_none]

namespace Json

variable {α : Type} {encode : α → Json} {decode : Json → Option α}

/-- A list is decoded item by item. -/
theorem list?_arr_map (h : ∀ a, decode (encode a) = some a) (l : List α) :
    list? decode (.arr (l.map encode)) = some l := by
  have hitem : decode ∘ encode = fun a => pure a := funext h
  rw [list?, List.mapM_map, hitem, List.mapM_pure, List.map_id']
  rfl

theorem list?_ofStrings (l : List String) : list? string? (ofStrings l) = some l := by
  refine list?_arr_map ?_ l
  intro s
  rfl

/-- A map is decoded entry by entry. -/
theorem map?_ofMap (h : ∀ a, decode (encode a) = some a) (m : NameMap α) :
    map? decode (ofMap encode m) = some m := by
  have hmember : (fun e : String × Json => (decode e.2).map fun v => (e.1, v))
      ∘ (fun e => (e.1, encode e.2)) = fun e => pure e := by
    funext e
    simp only [Function.comp_apply, h, Option.map_some, Option.pure_def]
  -- the entries come back in the order of the map, so nothing is set twice
  rw [ofMap, map?, List.mapM_map, hmember, List.mapM_pure, List.map_id', Option.pure_def,
    Option.map_some, NameMap.ofList_entries]

theorem nullable?_ofOption_str (o : Option String) :
    nullable? string? (ofOption .str o) = some o := by
  cases o <;> rfl

end Json

/-! ## Functions -/

theorem Kind.ofJson?_toJson (k : Kind) : ofJson? k.toJson = some k := by
  cases k <;> rfl

/-- A parameter is decoded, with all that holds a default. -/
theorem Parameter.ofJson?_toJson (p : Parameter) : ofJson? "type" (p.toJson "type") = some p := by
  simp [ofJson?, toJson, Json.record?, Json.required?, Json.optional?, Json.single?, Json.string?,
    Json.bool?]

/-- A declared function is decoded, its parameters in order. -/
theorem FunctionDeclaration.ofJson?_toJson (f : FunctionDeclaration) :
    ofJson? f.toJson = some f := by
  simp [ofJson?, toJson, Json.record?, Json.optional?, Json.single?, Json.string?,
    Json.list?_arr_map Parameter.ofJson?_toJson, Json.nullable?_ofOption_str]

theorem Duplicate.ofJson?_toJson (d : Duplicate) : ofJson? d.toJson = some d := by
  simp [ofJson?, toJson, Json.record?, Json.required?, Json.single?, Json.string?,
    Kind.ofJson?_toJson]

/-! ## Groups among the members of their owner -/

/-- Whether the tables and the copies of a group stand among the members of an object. -/
structure FunctionGroup.StandsIn (g : FunctionGroup) (members : List (String × Json)) : Prop where
  /-- The expressions do. -/
  expressions : Has members "expressions" (.ofMap FunctionDeclaration.toJson g.tables.expressions)
  /-- The actions do. -/
  actions : Has members "actions" (.ofMap FunctionDeclaration.toJson g.tables.actions)
  /-- The conditions do. -/
  conditions : Has members "conditions" (.ofMap FunctionDeclaration.toJson g.tables.conditions)
  /-- The copies do. -/
  duplicates : Has members "duplicates" (.arr (g.duplicates.map Duplicate.toJson))

/-- A group is read from among the members of its owner, whatever else these are. -/
theorem FunctionGroup.StandsIn.ofMembers?_eq {g : FunctionGroup} {members : List (String × Json)}
    (h : g.StandsIn members) : ofMembers? members = some g := by
  simp only [ofMembers?, h.expressions.optional?, h.actions.optional?, h.conditions.optional?,
    h.duplicates.optional?, Json.map?_ofMap FunctionDeclaration.ofJson?_toJson,
    Json.list?_arr_map Duplicate.ofJson?_toJson, Option.bind_eq_bind, Option.bind_some,
    Option.pure_def]

/-! ## Declarations with groups -/

/-- The members of a type of objects, its functions among them. -/
theorem ObjectDeclaration.toJson_members (o : ObjectDeclaration) :
    ∃ members, o.toJson = .obj members ∧ Has members "description" (.str o.description)
      ∧ Has members "capabilities" (.ofStrings o.capabilities)
      ∧ Has members "defaults" (.ofMap id o.defaults) ∧ o.functions.StandsIn members :=
  ⟨_, rfl, rfl, rfl, rfl, rfl, rfl, rfl, rfl⟩

/-- A declared type of objects is decoded. -/
theorem ObjectDeclaration.ofJson?_toJson (o : ObjectDeclaration) : ofJson? o.toJson = some o := by
  obtain ⟨members, hjson, hdescription, hcapabilities, hdefaults, hgroup⟩ := o.toJson_members
  have hvalues : Json.map? some (.ofMap id o.defaults) = some o.defaults :=
    Json.map?_ofMap (fun _ => rfl) o.defaults
  simp only [hjson, ofJson?, Json.members?, hdescription.optional?, hcapabilities.optional?,
    hdefaults.optional?, hgroup.ofMembers?_eq, Json.string?, Json.list?_ofStrings, hvalues,
    Option.bind_eq_bind, Option.bind_some, Option.pure_def]

/-- The members of a type of behaviors, its functions among them. -/
theorem BehaviorDeclaration.toJson_members (b : BehaviorDeclaration) :
    ∃ members, b.toJson = .obj members ∧ Has members "description" (.str b.description)
      ∧ b.functions.StandsIn members :=
  ⟨_, rfl, rfl, rfl, rfl, rfl, rfl⟩

/-- A declared type of behaviors is decoded. -/
theorem BehaviorDeclaration.ofJson?_toJson (b : BehaviorDeclaration) :
    ofJson? b.toJson = some b := by
  obtain ⟨members, hjson, hdescription, hgroup⟩ := b.toJson_members
  simp only [hjson, ofJson?, Json.members?, hdescription.optional?, hgroup.ofMembers?_eq,
    Json.string?, Option.bind_eq_bind, Option.bind_some, Option.pure_def]

/-- The members of an extension, its functions among them. -/
theorem Extension.toJson_members (x : Extension) :
    ∃ members, x.toJson = .obj members ∧ Has members "namespace" (.str x.qualifier)
      ∧ Has members "description" (.str x.description) ∧ x.functions.StandsIn members
      ∧ Has members "objects" (.ofMap ObjectDeclaration.toJson x.objects)
      ∧ Has members "behaviors" (.ofMap BehaviorDeclaration.toJson x.behaviors) :=
  ⟨_, rfl, rfl, rfl, ⟨rfl, rfl, rfl, rfl⟩, rfl, rfl⟩

/-- An extension is decoded. -/
theorem Extension.ofJson?_toJson (x : Extension) : ofJson? x.toJson = some x := by
  obtain ⟨members, hjson, hqualifier, hdescription, hgroup, hobjects, hbehaviors⟩ :=
    x.toJson_members
  simp only [hjson, ofJson?, Json.members?, hqualifier.optional?, hdescription.optional?,
    hgroup.ofMembers?_eq, hobjects.optional?, hbehaviors.optional?, Json.string?,
    Json.map?_ofMap ObjectDeclaration.ofJson?_toJson,
    Json.map?_ofMap BehaviorDeclaration.ofJson?_toJson, Option.bind_eq_bind, Option.bind_some,
    Option.pure_def]

/-! ## Catalogs -/

namespace Catalog

/-- The members of a catalog. -/
theorem toJson_members (c : Catalog) :
    ∃ members, c.toJson = .obj members ∧ Has members "platform" (.str c.platform)
      ∧ Has members "version" (.str c.version)
      ∧ Has members "extensions" (.ofMap Extension.toJson c.extensions) :=
  ⟨_, rfl, rfl, rfl, rfl⟩

/-- The JSON form of catalogs loses nothing. The encoding of a catalog is decoded as the catalog;
the tables and copies of a group stand in it among the members of the extension, the object or the
behavior that declares them. So encoding what was decoded gives a normal form, and a registry can be
built from it as well. -/
theorem ofJson?_toJson_normal :
    (∀ c : Catalog, ofJson? c.toJson = some c)
      ∧ (∀ c : Catalog, ∃ members, c.toJson = .obj members
        ∧ Has members "extensions" (.ofMap Extension.toJson c.extensions))
      ∧ (∀ x : Extension, ∃ members, x.toJson = .obj members ∧ x.functions.StandsIn members
        ∧ Has members "objects" (.ofMap ObjectDeclaration.toJson x.objects)
        ∧ Has members "behaviors" (.ofMap BehaviorDeclaration.toJson x.behaviors))
      ∧ (∀ o : ObjectDeclaration, ∃ members, o.toJson = .obj members
        ∧ o.functions.StandsIn members)
      ∧ (∀ b : BehaviorDeclaration, ∃ members, b.toJson = .obj members
        ∧ b.functions.StandsIn members)
      ∧ ∀ (v : Json) (c : Catalog), ofJson? v = some c →
        ofJson? c.toJson = ofJson? v
          ∧ (ofJson? c.toJson).map Registry.ofCatalog = some (Registry.ofCatalog c) := by
  have hencoding (c : Catalog) : ofJson? c.toJson = some c := by
    obtain ⟨members, hjson, hplatform, hversion, hextensions⟩ := c.toJson_members
    simp only [hjson, ofJson?, Json.record?, hplatform.optional?, hversion.optional?,
      hextensions.optional?, Json.string?, Json.map?_ofMap Extension.ofJson?_toJson,
      Option.bind_eq_bind, Option.bind_some, Option.pure_def]
  refine ⟨hencoding, ?_, ?_, ?_, ?_, ?_⟩
  · intro c
    obtain ⟨members, hjson, -, -, hextensions⟩ := c.toJson_members
    exact ⟨members, hjson, hextensions⟩
  · intro x
    obtain ⟨members, hjson, -, -, hrest⟩ := x.toJson_members
    exact ⟨members, hjson, hrest⟩
  · intro o
    obtain ⟨members, hjson, -, -, -, hgroup⟩ := o.toJson_members
    exact ⟨members, hjson, hgroup⟩
  · intro b
    obtain ⟨members, hjson, -, hgroup⟩ := b.toJson_members
    exact ⟨members, hjson, hgroup⟩
  · intro v c h
    rw [hencoding, h]
    exact ⟨rfl, rfl⟩

/-- One type of objects whose members that hold a default are left out. -/
theorem ofJson?_toJson_normal_sprite :
    ofJson? (Catalog.toJson ⟨"", "1.0", .ofList [("Sprites", ⟨"", "", .empty,
      .ofList [("Sprite", ⟨"", [], .ofList [("x", .null)],
        ⟨⟨.ofList [("Angle", ⟨"", "number", [⟨"object", "", "", false, false⟩], none⟩)], .empty,
          .empty⟩, [⟨.expression, "Direction", "Angle"⟩]⟩⟩)], .empty⟩)]⟩)
      = ofJson? (.obj [("extensions", .obj [("Sprites", .obj [("objects", .obj [("Sprite", .obj [
        ("defaults", .obj [("x", .null)]),
        ("duplicates", .arr [.obj [("from", .str "Angle"), ("kind", .str "expression"),
          ("name", .str "Direction")]]),
        ("expressions", .obj [("Angle", .obj [("returns", .str "number"),
          ("parameters", .arr [.obj [("type", .str "object")]])])])])])])])]) :=
  (ofJson?_toJson_normal.2.2.2.2.2 _ _ (by decide +kernel)).1

end Catalog

end EventSheet
