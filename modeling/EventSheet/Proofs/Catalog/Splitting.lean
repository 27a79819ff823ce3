import EventSheet.Proofs.Catalog.Merging

/-!
A catalog in one file and the same catalog in the files of a folder.

Extensions may be distributed over files in any way, as long as every extension is in one of them.
Then no file declares an extension again, so the order of the files does not matter, and what is
merged from them is the whole catalog (`Distributes.isMergeOf`). From there on both ways of loading
do the same.
-/

set_option autoImplicit false

namespace EventSheet

/-- The extensions that a file declares, each with its name. -/
def ListedFile.declarations (format : Format) (f : ListedFile) : List (String × Extension) :=
  match f.part? format with
  | some part => part.extensions.entries
  | none => []

namespace ListedFile

variable {format : Format} {f : ListedFile}

theorem map_declarations : (f.declarations format).map Prod.fst = f.declared format := by
  rw [declarations, declared]
  cases f.part? format <;> rfl

/-- A declaration of a file is the extension that it has of that name. -/
theorem mem_declarations_iff {name : String} {x : Extension} :
    (name, x) ∈ f.declarations format ↔ f.extension? format name = some x := by
  rw [declarations, extension?]
  cases f.part? format with
  | none => simp
  | some part => exact NameMap.get?_eq_some_iff.symm

/-- A file has a text for its name exactly if the last name on the way to it is that of the text. -/
theorem name_eq_iff {s : String} (hs : s ≠ "") :
    f.name = s ↔ f.1.getLast? = some (.ofText s) := by
  rw [name]
  constructor
  · intro h
    -- a name that is no text counts as the empty one, which is excluded here
    rcases htext : f.1.getLast?.bind FileName.text? with _ | t
    · rw [htext] at h
      exact absurd h.symm hs
    · rw [htext] at h
      obtain rfl : t = s := h
      obtain ⟨n, hlast, hn⟩ := Option.bind_eq_some_iff.mp htext
      rw [hlast, FileName.text?_eq_some_iff.mp hn]
  · intro h
    rw [h, Option.bind_some, FileName.text?_eq_some_iff.mpr rfl, Option.getD_some]

/-- What says something about the whole catalog is a document by its name. -/
theorem isDocument_of_isMeta (h : f.isMeta = true) : f.isDocument = true := by
  have hname : f.name = "_meta.yaml" := of_decide_eq_true h
  rw [isDocument, (name_eq_iff (by decide)).mp hname]
  decide

end ListedFile

/-! ## Distributed catalogs -/

/-- Whether the files of a tree hold a catalog in parts: a `_meta.yaml` says its platform and its
version, no part says another platform, and every extension is in exactly one part. The folders can
be listed, as otherwise no file is found. -/
structure Distributes (format : Format) (tree : FileTree) (c : Catalog) : Prop where
  /-- Every folder is listed to its end. -/
  listed : tree.IsListed
  /-- A file says something about the whole catalog. -/
  hasMeta : ∃ f ∈ tree.files, ListedFile.isMeta f = true
  /-- Every such file says the platform and the version of the catalog. -/
  said : ∀ f ∈ tree.files, ListedFile.isMeta f = true →
    ListedFile.said? format f = some ⟨some c.platform, some c.version⟩
  /-- Every part decodes, and its platform is that of the catalog or none. -/
  parts : ∀ f ∈ tree.files, ListedFile.isDocument f = true → ListedFile.isPart f = true →
    ∃ part, ListedFile.part? format f = some part
      ∧ (part.platform = "" ∨ part.platform = c.platform)
  /-- The extensions of the parts are those of the catalog, each once. -/
  extensions : ((tree.files.filter ListedFile.isDocument).flatMap
    (ListedFile.declarations format)).Perm c.extensions.entries

namespace Distributes

variable {format : Format} {tree : FileTree} {c : Catalog}

/-- All files that are read hold what is read from them. -/
theorem decodes (h : Distributes format tree c) : ∀ f ∈ tree.documents, f.Decodes format := by
  intro f hf
  obtain ⟨hlisted, hdocument⟩ := FileTree.mem_documents_iff.mp hf
  constructor
  · intro hmeta
    rw [h.said f hlisted hmeta]
    rfl
  · intro hpart
    obtain ⟨part, hsome, -⟩ := h.parts f hlisted hdocument hpart
    rw [hsome]
    rfl

/-- In the order of the files too, their declarations are the extensions of the catalog. -/
theorem declarations_perm (h : Distributes format tree c) :
    (tree.documents.flatMap (ListedFile.declarations format)).Perm c.extensions.entries :=
  (tree.documents_perm.flatMap_right _).trans h.extensions

/-- An extension is in the catalog exactly if it is in one of the files. -/
theorem get?_extensions_iff (h : Distributes format tree c) {name : String} {x : Extension} :
    c.extensions.get? name = some x
      ↔ x ∈ tree.documents.filterMap (ListedFile.extension? format name) := by
  rw [NameMap.get?_eq_some_iff, ← h.declarations_perm.mem_iff, List.mem_flatMap,
    List.mem_filterMap]
  simp only [ListedFile.mem_declarations_iff]

/-- Whatever a file says for the whole catalog is what the catalog says. -/
theorem said_eq (h : Distributes format tree c) {f : ListedFile} (hf : f ∈ tree.documents)
    {m : CatalogMeta} (hm : f.said? format = some m) : m = ⟨some c.platform, some c.version⟩ := by
  have hmeta : f.isMeta = true := (ListedFile.said?_eq_some_iff.mp hm).1
  have hsaid := h.said f (FileTree.mem_documents_iff.mp hf).1 hmeta
  exact Option.some.inj (hm.symm.trans hsaid)

/-- A part says the platform of the catalog or none. -/
theorem partPlatform_eq (h : Distributes format tree c) {f : ListedFile}
    (hf : f ∈ tree.documents) :
    f.partPlatform format = "" ∨ f.partPlatform format = c.platform := by
  obtain ⟨hlisted, hdocument⟩ := FileTree.mem_documents_iff.mp hf
  rw [ListedFile.partPlatform]
  -- a file that is no part says none
  rcases hpart : f.isPart with _ | _
  · rw [ListedFile.part?_of_not_isPart hpart]
    exact Or.inl rfl
  · obtain ⟨part, hsome, hplatform⟩ := h.parts f hlisted hdocument hpart
    rw [hsome]
    exact hplatform

/-- Where the catalog has no platform, no part says one. -/
theorem firstPlatform_eq (h : Distributes format tree c) (hempty : c.platform = "")
    {docs : List ListedFile} (hdocs : docs ⊆ tree.documents) :
    Catalog.firstPlatform format docs = "" := by
  have hnone : (docs.map (ListedFile.partPlatform format)).find? (· ≠ "") = none := by
    rw [List.find?_eq_none]
    intro p hp
    obtain ⟨f, hf, rfl⟩ := List.mem_map.mp hp
    have hplatform := h.partPlatform_eq (hdocs hf)
    rw [hempty, or_self] at hplatform
    simp [hplatform]
  rw [Catalog.firstPlatform, hnone]
  rfl

/-- The catalog is what is merged from the files. -/
theorem isMergeOf (h : Distributes format tree c) : c.IsMergeOf format tree.documents where
  extensions name := by
    -- whichever declaration is the last, it is the one of the catalog
    rcases hlast : (tree.documents.filterMap (ListedFile.extension? format name)).getLast? with
      _ | x
    · rw [List.getLast?_eq_none_iff] at hlast
      refine Option.eq_none_iff_forall_ne_some.mpr fun x hx => ?_
      rw [h.get?_extensions_iff, hlast] at hx
      exact absurd hx List.not_mem_nil
    · exact h.get?_extensions_iff.mpr (List.mem_of_getLast? hlast)
  version := by
    obtain ⟨f, hlisted, hmeta⟩ := h.hasMeta
    have hf : f ∈ tree.documents :=
      FileTree.mem_documents_iff.mpr ⟨hlisted, ListedFile.isDocument_of_isMeta hmeta⟩
    -- some file says the version, and every one that does says this
    have hversion : c.version ∈ tree.documents.filterMap (ListedFile.saidVersion? format) := by
      refine List.mem_filterMap.mpr ⟨f, hf, ?_⟩
      rw [ListedFile.saidVersion?, h.said f hlisted hmeta]
      rfl
    rcases hlast : (tree.documents.filterMap (ListedFile.saidVersion? format)).getLast? with _ | v
    · rw [List.getLast?_eq_none_iff] at hlast
      rw [hlast] at hversion
      exact absurd hversion List.not_mem_nil
    · obtain ⟨g, hg, hsaid⟩ := List.mem_filterMap.mp (List.mem_of_getLast? hlast)
      obtain ⟨m, hm, hv⟩ := Option.bind_eq_some_iff.mp hsaid
      rw [h.said_eq hg hm] at hv
      exact Option.some.inj hv
  saidPlatform before f later p hsplit hsaid _ := by
    -- an empty platform leaves the choice to the parts, and these have none either
    have hf : f ∈ tree.documents := by
      rw [hsplit]
      exact List.mem_append_right _ List.mem_cons_self
    have hlater : later ⊆ tree.documents := by
      rw [hsplit]
      exact fun g hg => List.mem_append_right _ (List.mem_cons_of_mem _ hg)
    obtain ⟨m, hm, hp⟩ := Option.bind_eq_some_iff.mp hsaid
    rw [h.said_eq hf hm] at hp
    obtain rfl : c.platform = p := Option.some.inj hp
    by_cases hempty : c.platform = ""
    · rw [if_pos hempty, h.firstPlatform_eq hempty hlater, hempty]
    · rw [if_neg hempty]
  unsaidPlatform hunsaid := by
    obtain ⟨f, hlisted, hmeta⟩ := h.hasMeta
    have hnone := hunsaid f
      (FileTree.mem_documents_iff.mpr ⟨hlisted, ListedFile.isDocument_of_isMeta hmeta⟩)
    rw [ListedFile.saidPlatform?, h.said f hlisted hmeta] at hnone
    cases hnone

/-- No two files declare one extension. -/
theorem declared_disjoint (h : Distributes format tree c) :
    tree.documents.Pairwise fun f g =>
      List.Disjoint (f.declared format) (g.declared format) := by
  have hnames : (tree.documents.flatMap (ListedFile.declared format)).Nodup := by
    -- the names of a catalog are distinct, and these are the declared ones
    have hperm := h.declarations_perm.map Prod.fst
    rw [List.map_flatMap] at hperm
    simp only [ListedFile.map_declarations] at hperm
    exact hperm.nodup_iff.mpr c.extensions.names_nodup
  exact (List.nodup_flatMap.mp hnames).2

/-- No file declares an extension again. -/
theorem redefinitions_eq_nil (h : Distributes format tree c) (folder : String) :
    (tree.documents.zipIdx.flatMap fun e =>
      e.1.redefinitions format folder (tree.documents.take e.2)) = [] := by
  refine List.flatMap_eq_nil_iff.mpr ?_
  rintro ⟨f, i⟩ hmem
  -- the file stands behind those it is compared with, so it shares no name with them
  rw [List.mk_mem_zipIdx_iff_getElem?] at hmem
  have hbehind : f ∈ tree.documents.drop i := by
    refine List.mem_of_getElem? (i := 0) ?_
    rw [List.getElem?_drop, Nat.add_zero, hmem]
  have hdisjoint := h.declared_disjoint
  rw [← List.take_append_drop i tree.documents, List.pairwise_append] at hdisjoint
  rw [ListedFile.redefinitions, List.map_eq_nil_iff, List.filter_eq_nil_iff]
  intro n hn hagain
  obtain ⟨g, hg, hbefore⟩ := List.any_eq_true.mp hagain
  exact hdisjoint.2.2 g hg f hbehind (of_decide_eq_true hbefore) hn

/-- Loading the files is checking the catalog. -/
theorem loadSplit_eq (h : Distributes format tree c) (folder : String) :
    Catalog.loadSplit format folder tree = c.audited := by
  obtain ⟨c', hmerge, hload⟩ := Catalog.loadSplit_of_decodes h.listed h.decodes
  obtain rfl := hmerge.unique h.isMergeOf
  rw [hload, h.redefinitions_eq_nil, List.nil_append, Catalog.audited_eq]

end Distributes

namespace Catalog

/-- A catalog in one file is checked, if that file holds it. -/
theorem load_eq_audited {format : Format} {fs : Files} {directory text : String} {c : Catalog}
    (hfolder : ∀ listing entries,
      fs.find (Path.join directory "catalog") ≠ .ok (.branch listing entries))
    (hread : fs.read (Path.join directory "catalog.yaml") = .ok text)
    (hdecoded : format.catalog? text = some c) : load format fs directory = c.audited := by
  unfold load
  dsimp only
  split
  case h_1 listing entries hfind => exact absurd hfind (hfolder listing entries)
  case h_2 => simp only [loadSingle, hread, hdecoded]

/-- **Parts and whole agree.** A catalog whose extensions are distributed over the files of a folder
is loaded, with the same warnings, or refused, with the same error, as the catalog in one file. -/
theorem load_distributed (format : Format) {fs fs' : Files} {directory directory' text : String}
    {listing : Listing} {entries : List (FileName × FileTree)} {c : Catalog}
    (hparts : fs.find (Path.join directory "catalog") = .ok (.branch listing entries))
    (hdistributed : Distributes format (.branch listing entries) c)
    (hfolder : ∀ listing' entries',
      fs'.find (Path.join directory' "catalog") ≠ .ok (.branch listing' entries'))
    (hwhole : fs'.read (Path.join directory' "catalog.yaml") = .ok text)
    (hdecoded : format.catalog? text = some c) :
    load format fs directory = load format fs' directory' := by
  rw [load_eq_loadSplit hparts, hdistributed.loadSplit_eq, load_eq_audited hfolder hwhole hdecoded]

/-- A catalog of two extensions, with what one of them lists to copy. -/
def scoresAndTexts (copies : List Duplicate) : Catalog :=
  ⟨"game", "2.3", .ofList [("Score", ⟨"", "", .empty, .empty, .empty⟩),
    ("Text", ⟨"", "", ⟨.empty, copies⟩, .empty, .empty⟩)]⟩

/-- The catalog as one document, with its copies in its words. -/
def scoresAndTextsText (copies : String) : String :=
  "platform: game\nversion: \"2.3\"\nextensions:\n  Text:\n    duplicates: " ++ copies
    ++ "\n  Score: \x7b\x7d\n"

/-- The catalog as documents in a folder, one for each extension. -/
def scoresAndTextsParts (copies : String) : FileTree :=
  .folder
    [("objects", .folder [("score.yaml", .file (.ok "extensions:\n  Score: \x7b\x7d\n"))]),
      ("_meta.yaml", .file (.ok "platform: game\nversion: \"2.3\"\n")),
      ("Text.yaml", .file (.ok ("platform: game\nextensions:\n  Text:\n    duplicates: " ++ copies
        ++ "\n")))]

theorem scoresAndTextsParts_isListed (copies : String) : (scoresAndTextsParts copies).IsListed := by
  rw [scoresAndTextsParts, FileTree.isListed_folder_iff]
  simp [FileTree.isListed_folder_iff, FileTree.IsListed]

/-- Without copies the catalog is loaded from its parts as it is from the one document. A nameless
copy is refused in the same words wherever it is listed. -/
theorem load_distributed_scores :
    let whole (copies : String) : Files :=
      ⟨.folder [("catalog.yaml", .file (.ok (scoresAndTextsText copies)))], []⟩
    let nameless := "[\x7bkind: action, name: \"\", from: SetText\x7d]"
    Distributes Yaml.format (scoresAndTextsParts "[]") (scoresAndTexts [])
      ∧ load Yaml.format (filesOf (scoresAndTextsParts "[]")) "config"
        = load Yaml.format (whole "[]") ""
      ∧ load Yaml.format (filesOf (scoresAndTextsParts "[]")) "config"
        = ⟨[], .ok (scoresAndTexts [])⟩
      ∧ Distributes Yaml.format (scoresAndTextsParts nameless)
        (scoresAndTexts [⟨.action, "", "SetText"⟩])
      ∧ load Yaml.format (filesOf (scoresAndTextsParts nameless)) "config"
        = load Yaml.format (whole nameless) ""
      ∧ load Yaml.format (filesOf (scoresAndTextsParts nameless)) "config"
        = .fail (.incompleteDuplicate "Text") := by
  intro whole nameless
  have hdistributed : Distributes Yaml.format (scoresAndTextsParts "[]") (scoresAndTexts []) := by
    refine ⟨scoresAndTextsParts_isListed _, by decide, by decide +kernel, ?_, by decide +kernel⟩
    decide +kernel
  have hdecoded : Yaml.format.catalog? (scoresAndTextsText "[]") = some (scoresAndTexts []) := by
    decide +kernel
  have hdistributed' : Distributes Yaml.format (scoresAndTextsParts nameless)
      (scoresAndTexts [⟨.action, "", "SetText"⟩]) := by
    refine ⟨scoresAndTextsParts_isListed _, by decide, by decide +kernel, ?_, by decide +kernel⟩
    decide +kernel
  have hdecoded' : Yaml.format.catalog? (scoresAndTextsText nameless)
      = some (scoresAndTexts [⟨.action, "", "SetText"⟩]) := by
    decide +kernel
  -- next to the one document stands nothing else
  have hnofolder : ∀ copies listing entries, (whole copies).find (Path.join "" "catalog")
      ≠ .ok (.branch listing entries) := fun _ _ _ h => by cases h
  have hagree : load Yaml.format (filesOf (scoresAndTextsParts "[]")) "config"
      = load Yaml.format (whole "[]") "" :=
    load_distributed Yaml.format rfl hdistributed (hnofolder "[]") rfl hdecoded
  have hagree' : load Yaml.format (filesOf (scoresAndTextsParts nameless)) "config"
      = load Yaml.format (whole nameless) "" :=
    load_distributed Yaml.format rfl hdistributed' (hnofolder nameless) rfl hdecoded'
  refine ⟨hdistributed, hagree, ?_, hdistributed', hagree', ?_⟩
  · -- what is loaded is computed from the one document, where no files have to be merged
    rw [hagree, load_eq_audited (hnofolder "[]") rfl hdecoded]
    rfl
  · rw [hagree', load_eq_audited (hnofolder nameless) rfl hdecoded']
    rfl

end Catalog

end EventSheet
