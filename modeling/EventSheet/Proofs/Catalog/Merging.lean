import EventSheet.Proofs.Files
import EventSheet.Proofs.NameMap

/-!
What a catalog is that is merged from the files of a folder.

The files are taken one after another, and each adds what it says to what is known before. Read from
the end, every item of the result has a rule of its own (`Catalog.IsMergeOf`): the last file that
declares an extension declares all of it, the last `_meta.yaml` that says a version says it, and a
platform that `_meta.yaml` says counts more than any that a part says, wherever the files stand. The
first rule and the last do not agree on which end of the list counts, so the platform is settled
from what stands behind the last `_meta.yaml` that says one.
-/

set_option autoImplicit false

namespace EventSheet

/-! ## The last that counts -/

/-- Of what steps say about a thing, the last counts. -/
theorem foldl_last {σ α β : Type} (look : σ → Option β) (said : α → Option β) {step : σ → α → σ}
    (hstep : ∀ s a, look (step s a) = (said a).or (look s)) (s : σ) (l : List α) :
    look (l.foldl step s) = (l.filterMap said).getLast?.or (look s) := by
  induction l generalizing s with
  | nil => rfl
  | cons a l ih =>
    -- the induction is from the front, so a step counts only where none of the later ones says
    -- anything
    rw [List.foldl_cons, ih, hstep, List.filterMap_cons]
    cases said a with
    | none => rfl
    | some b =>
      rw [List.getLast?_cons]
      cases (l.filterMap said).getLast? <;> rfl

/-- A list has a last element that says something, unless none does. -/
theorem exists_last_said {α β : Type} (said : α → Option β) (l : List α) :
    (∀ a ∈ l, said a = none) ∨ ∃ before a later b, l = before ++ a :: later
      ∧ said a = some b ∧ ∀ a' ∈ later, said a' = none := by
  induction l with
  | nil => exact Or.inl fun a ha => absurd ha List.not_mem_nil
  | cons a l ih =>
    -- the first element counts only if it speaks and no later one does
    rcases ih with hnone | ⟨before, a', later, b, rfl, hsaid, hlater⟩
    · rcases hsaid : said a with _ | b
      · exact Or.inl (List.forall_mem_cons.mpr ⟨hsaid, hnone⟩)
      · exact Or.inr ⟨[], a, l, b, rfl, hsaid, hnone⟩
    · exact Or.inr ⟨a :: before, a', later, b, rfl, hsaid, hlater⟩

namespace Loading

theorem andThen_of_ok {α β : Type} (warnings : List LoadWarning) (a : α) (f : α → Loading β) :
    (⟨warnings, .ok a⟩ : Loading α).andThen f = ⟨warnings ++ (f a).warnings, (f a).result⟩ :=
  rfl

end Loading

/-! ## What a file says -/

namespace ListedFile

/-- Whether a file says the platform and the version of the catalog. -/
def isMeta (f : ListedFile) : Bool := f.name = "_meta.yaml"

/-- Whether a file declares a part of the catalog. -/
def isPart (f : ListedFile) : Bool := f.name.toList.head? ≠ some '_'

/-- Whether a file is read, if it is a document. -/
def isRead (f : ListedFile) : Bool := f.isMeta || f.isPart

/-- What a file says about the whole catalog. -/
def said? (format : Format) (f : ListedFile) : Option CatalogMeta :=
  if f.isMeta then f.2.toOption.bind format.meta? else none

/-- The part of the catalog that a file declares. -/
def part? (format : Format) (f : ListedFile) : Option Catalog :=
  if f.isPart then f.2.toOption.bind format.catalog? else none

/-- Whether a file holds what is read from it, if it is read. -/
def Decodes (format : Format) (f : ListedFile) : Prop :=
  (f.isMeta = true → (f.said? format).isSome = true)
    ∧ (f.isPart = true → (f.part? format).isSome = true)

instance (format : Format) (f : ListedFile) : Decidable (f.Decodes format) :=
  inferInstanceAs (Decidable (_ ∧ _))

/-- The platform that a file says for the whole catalog. -/
def saidPlatform? (format : Format) (f : ListedFile) : Option String :=
  (f.said? format).bind CatalogMeta.platform?

/-- The version that a file says for the whole catalog. -/
def saidVersion? (format : Format) (f : ListedFile) : Option String :=
  (f.said? format).bind CatalogMeta.version?

/-- The extension of a name that a file declares. -/
def extension? (format : Format) (name : String) (f : ListedFile) : Option Extension :=
  (f.part? format).bind fun part => part.extensions.get? name

/-- The platform that a file declares as that of its part, empty if it declares none. -/
def partPlatform (format : Format) (f : ListedFile) : String :=
  ((f.part? format).map Catalog.platform).getD ""

/-- The names of the extensions that a file declares. -/
def declared (format : Format) (f : ListedFile) : List String :=
  match f.part? format with
  | some part => part.extensions.names
  | none => []

/-- The warnings about what a file declares again that some files before it declare. -/
def redefinitions (format : Format) (folder : String) (before : List ListedFile) (f : ListedFile) :
    List LoadWarning :=
  ((f.declared format).filter fun n => before.any fun g => n ∈ g.declared format).map fun n =>
    .redefined n (f.path folder)

variable {format : Format} {f : ListedFile}

theorem isPart_eq_false_of_isMeta (h : f.isMeta = true) : f.isPart = false := by
  have hname : f.name = "_meta.yaml" := of_decide_eq_true h
  rw [isPart, hname]
  decide

/-- What a file says for the whole catalog is what its text says, if it has that name. -/
theorem said?_eq_some_iff {m : CatalogMeta} :
    f.said? format = some m
      ↔ f.isMeta = true ∧ ∃ text, f.2 = .ok text ∧ format.meta? text = some m := by
  obtain ⟨path, content⟩ := f
  rw [said?]
  split
  case isTrue h => cases content <;> simp [h, Except.toOption]
  case isFalse h => simp [h]

/-- What a file declares is what its text declares, if its name is one of a part. -/
theorem part?_eq_some_iff {part : Catalog} :
    f.part? format = some part
      ↔ f.isPart = true ∧ ∃ text, f.2 = .ok text ∧ format.catalog? text = some part := by
  obtain ⟨path, content⟩ := f
  rw [part?]
  split
  case isTrue h => cases content <;> simp [h, Except.toOption]
  case isFalse h => simp [h]

theorem said?_of_not_isMeta (h : f.isMeta = false) : f.said? format = none := by
  rw [said?, h]
  rfl

theorem part?_of_not_isPart (h : f.isPart = false) : f.part? format = none := by
  rw [part?, h]
  rfl

theorem part?_of_said {m : CatalogMeta} (h : f.said? format = some m) : f.part? format = none :=
  part?_of_not_isPart (isPart_eq_false_of_isMeta (said?_eq_some_iff.mp h).1)

/-- A name is declared by a file that has an extension of it. -/
theorem mem_declared_iff {name : String} :
    name ∈ f.declared format ↔ ∃ x, f.extension? format name = some x := by
  rw [declared, extension?]
  cases f.part? format with
  | none => simp
  | some part => exact NameMap.mem_names_iff

end ListedFile

/-! ## Adding a file -/

namespace Catalog

/-- The catalog behind a file that holds what is read from it. -/
def after (format : Format) (c : Catalog) (f : ListedFile) : Catalog :=
  match f.said? format, f.part? format with
  | some m, _ => c.withMeta m
  | none, some part => c.withPart part
  | none, none => c

variable {format : Format} {folder : String} {c : Catalog} {f : ListedFile}

theorem after_of_said {m : CatalogMeta} (h : f.said? format = some m) :
    c.after format f = c.withMeta m := by
  rw [after, h]

theorem after_of_part {part : Catalog} (h : f.said? format = none)
    (h' : f.part? format = some part) : c.after format f = c.withPart part := by
  rw [after, h, h']

theorem after_of_silent (h : f.said? format = none) (h' : f.part? format = none) :
    c.after format f = c := by
  rw [after, h, h']

/-- A file that is not read changes nothing, whatever is in it. -/
theorem absorb_of_not_isRead (h : f.isRead = false) : c.absorb format folder f = .succeed c := by
  obtain ⟨hmeta, hpart⟩ := Bool.or_eq_false_iff.mp h
  have hname : f.name ≠ "_meta.yaml" := of_decide_eq_false hmeta
  -- not `_meta.yaml` and no part: the name starts with an underscore
  have hhead : f.name.toList.head? = some '_' := by
    simpa [ListedFile.isPart] using hpart
  rw [absorb, if_neg hname, if_pos hhead]

/-- A file that holds what is read from it adds that, and warns about extensions that are there. -/
theorem absorb_of_decodes (h : f.Decodes format) :
    c.absorb format folder f
      = ⟨((f.declared format).filter c.extensions.contains).map fun n =>
          .redefined n (f.path folder), .ok (c.after format f)⟩ := by
  -- the branches of `absorb`: not read, a part, `_meta.yaml`
  rcases hmeta : f.isMeta with _ | _
  · have hname : f.name ≠ "_meta.yaml" := of_decide_eq_false hmeta
    have hsaid : f.said? format = none := ListedFile.said?_of_not_isMeta hmeta
    rcases hpart : f.isPart with _ | _
    · have hnone : f.part? format = none := ListedFile.part?_of_not_isPart hpart
      rw [absorb_of_not_isRead (Bool.or_eq_false_iff.mpr ⟨hmeta, hpart⟩),
        after_of_silent hsaid hnone, ListedFile.declared, hnone]
      rfl
    · obtain ⟨part, hsome⟩ := Option.isSome_iff_exists.mp (h.2 hpart)
      obtain ⟨-, text, hcontent, hdecoded⟩ := ListedFile.part?_eq_some_iff.mp hsome
      have hhead : f.name.toList.head? ≠ some '_' := of_decide_eq_true hpart
      have hread : f.read folder = .ok text := by
        rw [ListedFile.read, hcontent]
        rfl
      rw [absorb, if_neg hname, if_neg hhead, hread, after_of_part hsaid hsome, ListedFile.declared,
        hsome]
      simp only [Loading.ofExcept, Loading.andThen, hdecoded, List.nil_append]
      rfl
  · obtain ⟨m, hsome⟩ := Option.isSome_iff_exists.mp (h.1 hmeta)
    obtain ⟨-, text, hcontent, hdecoded⟩ := ListedFile.said?_eq_some_iff.mp hsome
    have hname : f.name = "_meta.yaml" := of_decide_eq_true hmeta
    have hnone : f.part? format = none :=
      ListedFile.part?_of_not_isPart (ListedFile.isPart_eq_false_of_isMeta hmeta)
    have hread : f.read folder = .ok text := by
      rw [ListedFile.read, hcontent]
      rfl
    rw [absorb, if_pos hname, hread, after_of_said hsome, ListedFile.declared, hnone]
    simp only [Loading.ofExcept, Loading.andThen, hdecoded]
    rfl

/-! ## Adding all files -/

/-- Files that are not read may as well be absent. -/
theorem absorbAll_filter_isRead (docs : List ListedFile) :
    c.absorbAll format folder (docs.filter ListedFile.isRead) = c.absorbAll format folder docs := by
  induction docs generalizing c with
  | nil => rfl
  | cons f docs ih =>
    rw [absorbAll]
    rcases hread : f.isRead with _ | _
    · rw [List.filter_cons_of_neg (by rw [hread]; exact Bool.false_ne_true),
        absorb_of_not_isRead hread, ih]
      rfl
    · rw [List.filter_cons_of_pos hread, absorbAll]
      -- what is read may still end the loading, so both sides go on from the same result
      simp only [ih]

/-- Whether a catalog has the extensions that some files declare, and no others. -/
def HasDeclared (format : Format) (made : List ListedFile) (c : Catalog) : Prop :=
  ∀ name, c.extensions.contains name = true ↔ ∃ g ∈ made, name ∈ g.declared format

/-- The declaration of the file counts before any that is there. -/
theorem extensions_after (c : Catalog) (f : ListedFile) (name : String) :
    (c.after format f).extensions.get? name
      = (f.extension? format name).or (c.extensions.get? name) := by
  rw [ListedFile.extension?]
  rcases hsaid : f.said? format with _ | m
  · rcases hpart : f.part? format with _ | part
    · rw [after_of_silent hsaid hpart]
      rfl
    · rw [after_of_part hsaid hpart]
      exact NameMap.get?_insertMany_entries _ _ name
  · rw [after_of_said hsaid, ListedFile.part?_of_said hsaid]
    rfl

/-- With a file the extensions are added that it declares. -/
theorem HasDeclared.after {made : List ListedFile} (h : c.HasDeclared format made)
    (f : ListedFile) : (c.after format f).HasDeclared format (made ++ [f]) := by
  intro name
  have hname := h name
  rw [NameMap.contains] at hname ⊢
  -- a name is there if the file declares it or it was there before
  rw [extensions_after, Option.isSome_or, Bool.or_eq_true, hname, Option.isSome_iff_exists,
    ← ListedFile.mem_declared_iff, or_comm]
  simp only [List.mem_append, List.mem_singleton, or_and_right, exists_or, exists_eq_left]

/-- Files that hold what is read from them add that in order, and each warns about what those before
it declare. The induction is on the files that are left, with those already added in front. -/
theorem absorbAll_of_decodes (made : List ListedFile) {docs : List ListedFile}
    (hmade : c.HasDeclared format made) (h : ∀ f ∈ docs, f.Decodes format) :
    c.absorbAll format folder docs
      = ⟨(docs.zipIdx made.length).flatMap fun e =>
          e.1.redefinitions format folder ((made ++ docs).take e.2),
        .ok (docs.foldl (Catalog.after format) c)⟩ := by
  induction docs generalizing made c with
  | nil => rfl
  | cons f docs ih =>
    obtain ⟨hf, hrest⟩ := List.forall_mem_cons.mp h
    have hfront : (made ++ f :: docs).take made.length = made := List.take_left
    -- what the catalog has so far is what the files in front declare
    have hredefined : (f.declared format).filter c.extensions.contains
        = (f.declared format).filter fun n => made.any fun g => n ∈ g.declared format := by
      refine List.filter_congr fun n _ => Bool.eq_iff_iff.mpr ?_
      rw [hmade n, List.any_eq_true]
      simp only [decide_eq_true_eq]
    have hafter := ih (made ++ [f]) (hmade.after f) hrest
    rw [List.length_append, List.append_assoc] at hafter
    rw [absorbAll, absorb_of_decodes hf, Loading.andThen_of_ok, hafter, List.zipIdx_cons,
      List.flatMap_cons, hfront, ListedFile.redefinitions, hredefined]
    rfl

/-! ## What the result is -/

/-- The version that the file says counts before the one that is there. -/
theorem saidVersion_after (c : Catalog) (f : ListedFile) :
    some (c.after format f).version = (f.saidVersion? format).or (some c.version) := by
  rw [ListedFile.saidVersion?]
  rcases hsaid : f.said? format with _ | m
  · rcases hpart : f.part? format with _ | part
    · rw [after_of_silent hsaid hpart]
      rfl
    · rw [after_of_part hsaid hpart]
      rfl
  · rw [after_of_said hsaid]
    obtain ⟨platform?, version?⟩ := m
    cases version? <;> rfl

/-- The first platform that a part declares, empty if none does. -/
def firstPlatform (format : Format) (docs : List ListedFile) : String :=
  ((docs.map (ListedFile.partPlatform format)).find? (· ≠ "")).getD ""

/-- The platform that the file says counts before all, and that of a part behind the one that is
there. -/
theorem platform_after (c : Catalog) (f : ListedFile) :
    (c.after format f).platform = (f.saidPlatform? format).getD
      (if c.platform = "" then f.partPlatform format else c.platform) := by
  rw [ListedFile.saidPlatform?, ListedFile.partPlatform]
  rcases hsaid : f.said? format with _ | m
  · rcases hpart : f.part? format with _ | part
    · rw [after_of_silent hsaid hpart]
      by_cases hempty : c.platform = ""
      · simp [hempty]
      · simp [hempty]
    · rw [after_of_part hsaid hpart]
      rfl
  · rw [after_of_said hsaid, ListedFile.part?_of_said hsaid]
    obtain ⟨platform?, version?⟩ := m
    cases platform? with
    | some p => rfl
    | none =>
      by_cases hempty : c.platform = ""
      · simp [withMeta, hempty]
      · simp [withMeta, hempty]

/-- Where no file says a platform for the whole catalog, the first of a part counts. -/
theorem platform_foldl_of_unsaid (c : Catalog) {docs : List ListedFile}
    (h : ∀ f ∈ docs, f.saidPlatform? format = none) :
    (docs.foldl (Catalog.after format) c).platform
      = if c.platform = "" then firstPlatform format docs else c.platform := by
  induction docs generalizing c with
  | nil => by_cases hempty : c.platform = "" <;> simp [hempty, firstPlatform]
  | cons f docs ih =>
    obtain ⟨hf, hrest⟩ := List.forall_mem_cons.mp h
    rw [List.foldl_cons, ih _ hrest, platform_after, hf, Option.getD_none, firstPlatform,
      firstPlatform, List.map_cons, List.find?_cons]
    -- once a part has said a platform, later parts do not count
    by_cases hempty : c.platform = ""
    · by_cases hpart : f.partPlatform format = "" <;> simp [hempty, hpart]
    · simp [hempty]

/-- Where a file says a platform for the whole catalog, and none behind it does, this one counts, or
else the first of a part behind it. -/
theorem platform_foldl_of_said (c : Catalog) {before later : List ListedFile} {f : ListedFile}
    {p : String} (hf : f.saidPlatform? format = some p)
    (hlater : ∀ g ∈ later, g.saidPlatform? format = none) :
    ((before ++ f :: later).foldl (Catalog.after format) c).platform
      = if p = "" then firstPlatform format later else p := by
  rw [List.foldl_append, List.foldl_cons, platform_foldl_of_unsaid _ hlater, platform_after, hf]
  rfl

/-- Whether a catalog is merged from files in an order. -/
structure IsMergeOf (format : Format) (docs : List ListedFile) (c : Catalog) : Prop where
  /-- The last file that declares an extension declares all of it. -/
  extensions : ∀ name, c.extensions.get? name
    = (docs.filterMap (ListedFile.extension? format name)).getLast?
  /-- The last version that is said for the whole catalog counts. -/
  version : c.version
    = (docs.filterMap (ListedFile.saidVersion? format)).getLast?.getD defaultVersion
  /-- The last platform that is said for the whole catalog counts. If it is empty, the first counts
  of the parts behind it. -/
  saidPlatform : ∀ before f later p, docs = before ++ f :: later →
    f.saidPlatform? format = some p → (∀ g ∈ later, g.saidPlatform? format = none) →
    c.platform = if p = "" then firstPlatform format later else p
  /-- If none is said, the first platform of a part counts. -/
  unsaidPlatform : (∀ f ∈ docs, f.saidPlatform? format = none) →
    c.platform = firstPlatform format docs

/-- Adding files in order merges them. -/
theorem isMergeOf_foldl (docs : List ListedFile) :
    (docs.foldl (Catalog.after format) empty).IsMergeOf format docs where
  extensions name := by
    have hlast := foldl_last (fun c : Catalog => c.extensions.get? name)
      (ListedFile.extension? format name) (fun c f => extensions_after c f name) empty docs
    rw [hlast]
    exact Option.or_none
  version := by
    have hlast := foldl_last (fun c : Catalog => some c.version)
      (ListedFile.saidVersion? format) saidVersion_after empty docs
    rw [← Option.some_inj, hlast]
    cases (docs.filterMap (ListedFile.saidVersion? format)).getLast? <;> rfl
  saidPlatform before f later p hsplit hf hlater := by
    rw [hsplit]
    exact platform_foldl_of_said empty hf hlater
  unsaidPlatform hunsaid := platform_foldl_of_unsaid empty hunsaid

/-- Only one catalog is merged from files in an order. -/
theorem IsMergeOf.unique {docs : List ListedFile} {c' : Catalog} (h : c.IsMergeOf format docs)
    (h' : c'.IsMergeOf format docs) : c' = c := by
  have hextensions : c'.extensions = c.extensions :=
    NameMap.ext_get? fun name => (h'.extensions name).trans (h.extensions name).symm
  have hversion : c'.version = c.version := h'.version.trans h.version.symm
  -- the two rules about platforms cover all lists: one is said for the whole catalog, or none is
  have hplatform : c'.platform = c.platform := by
    rcases exists_last_said (ListedFile.saidPlatform? format) docs with
      hunsaid | ⟨before, f, later, p, hsplit, hf, hlater⟩
    · rw [h'.unsaidPlatform hunsaid, h.unsaidPlatform hunsaid]
    · rw [h'.saidPlatform before f later p hsplit hf hlater,
        h.saidPlatform before f later p hsplit hf hlater]
  obtain ⟨_, _, _⟩ := c
  obtain ⟨_, _, _⟩ := c'
  simp only at hextensions hversion hplatform
  rw [hextensions, hversion, hplatform]

/-! ## Loading a folder -/

/-- A check keeps its warnings and gives the catalog back, if there is no error. -/
theorem audited_eq (c : Catalog) :
    c.audited = ⟨c.audit.warnings, c.audit.result.map fun _ => c⟩ := by
  rw [audited, Loading.andThen]
  cases c.audit.result with
  | error e => rfl
  | ok a => simp [Loading.succeed, Except.map]

/-- Where there is a folder `catalog`, it is what is loaded. -/
theorem load_eq_loadSplit {fs : Files} {directory : String} {listing : Listing}
    {entries : List (FileName × FileTree)}
    (h : fs.find (Path.join directory "catalog") = .ok (.branch listing entries)) :
    load format fs directory
      = loadSplit format (Path.join directory "catalog") (.branch listing entries) := by
  rw [load, h]

/-- Where every folder is listed, the catalog is merged from the documents. -/
theorem loadSplit_of_isListed {tree : FileTree} (h : tree.IsListed) :
    loadSplit format folder tree
      = (absorbAll format folder empty tree.documents).andThen audited := by
  rw [loadSplit, FileTree.listDocuments_of_isListed folder h]
  rfl

/-- Where a folder cannot be listed, nothing is loaded and nothing is warned about. -/
theorem exists_fault_of_loadSplit {tree : FileTree} (h : ¬ tree.IsListed) :
    ∃ e ∈ tree.faults folder, loadSplit format folder tree = .fail e := by
  obtain ⟨e, he, hdocuments⟩ := FileTree.exists_fault_of_listDocuments folder h
  refine ⟨e, he, ?_⟩
  rw [loadSplit, hdocuments]
  rfl

/-- What is loaded from a folder depends on its documents only as far as they are read. -/
theorem loadSplit_congr {tree tree' : FileTree} (h : tree.IsListed) (h' : tree'.IsListed)
    (hread : tree'.documents.filter ListedFile.isRead
      = tree.documents.filter ListedFile.isRead) :
    loadSplit format folder tree' = loadSplit format folder tree := by
  rw [loadSplit_of_isListed h, loadSplit_of_isListed h', ← absorbAll_filter_isRead, hread,
    absorbAll_filter_isRead]

theorem hasDeclared_empty : HasDeclared format [] empty := by
  intro name
  simp [NameMap.contains, empty]

/-- Where all files that are read hold what is read from them, the catalog merged from them is
checked, and warnings about repeated extensions come before those of the check. -/
theorem loadSplit_of_decodes {tree : FileTree} (hlisted : tree.IsListed)
    (h : ∀ f ∈ tree.documents, f.Decodes format) :
    ∃ c, IsMergeOf format tree.documents c
      ∧ loadSplit format folder tree
        = ⟨(tree.documents.zipIdx.flatMap fun e =>
            e.1.redefinitions format folder (tree.documents.take e.2)) ++ c.audit.warnings,
          c.audit.result.map fun _ => c⟩ := by
  refine ⟨_, isMergeOf_foldl tree.documents, ?_⟩
  rw [loadSplit_of_isListed hlisted, absorbAll_of_decodes [] hasDeclared_empty h,
    Loading.andThen_of_ok, audited_eq]
  rfl

end Catalog

/-- The documents of a tree that are read. -/
def FileTree.readable (tree : FileTree) : List ListedFile :=
  tree.files.filter fun f => f.isDocument && f.isRead

/-- In any order, the documents that are read are those of the tree. -/
theorem FileTree.readable_perm (tree : FileTree) :
    tree.readable.Perm (tree.documents.filter ListedFile.isRead) := by
  have hfiltered := tree.documents_perm.filter ListedFile.isRead
  rw [List.filter_filter] at hfiltered
  simp only [Bool.and_comm (ListedFile.isRead _)] at hfiltered
  exact hfiltered.symm

namespace Catalog

/-- **The merge law.** Where every folder is listed to its end, what is loaded does not depend on
the order in which folders list their entries, nor on any file that is no document or whose name is
a text that starts with an underscore, `_meta.yaml` apart. Where also the files that are read hold
what is read from them, they make one catalog, taken in the order of their paths: the last
declaration of an extension, the last version and, unless it is empty, the last platform of a
`_meta.yaml`, or else the first of a part. Every declaration of an extension but the first leaves a
warning, in that order, and behind these come the warnings of the check. Where a folder is not
listed to its end, loading fails in every order, without a warning and in the error of such a
folder. -/
theorem load_merges (format : Format) {fs : Files} {directory : String} {listing : Listing}
    {entries : List (FileName × FileTree)}
    (hfolder : fs.find (Path.join directory "catalog") = .ok (.branch listing entries))
    (hnames : (FileTree.branch listing entries).HasDistinctNames) :
    let folder := Path.join directory "catalog"
    let tree := FileTree.branch listing entries
    (∀ fs' listing' entries', fs'.find folder = .ok (.branch listing' entries') →
        FileTree.Relisted tree (.branch listing' entries') →
        (tree.IsListed → load format fs' directory = load format fs directory)
        ∧ (¬ tree.IsListed → ∃ e ∈ tree.faults folder, load format fs' directory = .fail e))
      ∧ (tree.IsListed →
        (∀ fs' listing' entries', fs'.find folder = .ok (.branch listing' entries') →
          (FileTree.branch listing' entries').HasDistinctNames →
          (FileTree.branch listing' entries').IsListed →
          (FileTree.branch listing' entries').readable.Perm tree.readable →
          load format fs' directory = load format fs directory)
        ∧ ∃ docs : List ListedFile,
          docs.Perm (tree.files.filter ListedFile.isDocument)
          ∧ (docs.Pairwise fun a b => Path.Before a.1 b.1)
          ∧ ((∀ f ∈ docs, f.Decodes format) → ∃ c,
            (∀ c', IsMergeOf format docs c' ↔ c' = c)
            ∧ load format fs directory
              = ⟨(docs.zipIdx.flatMap fun e =>
                  e.1.redefinitions format folder (docs.take e.2)) ++ c.audit.warnings,
                c.audit.result.map fun _ => c⟩)) := by
  intro folder tree
  refine ⟨fun fs' listing' entries' hfolder' hrelisted => ?_, fun hlisted => ⟨?_, tree.documents,
    FileTree.documents_perm _, FileTree.documents_ascending hnames, fun hdecodes => ?_⟩⟩
  · rw [load_eq_loadSplit hfolder, load_eq_loadSplit hfolder']
    constructor
    · intro hlisted
      exact loadSplit_congr hlisted (hrelisted.isListed_iff.mpr hlisted)
        (by rw [hrelisted.documents_eq hnames])
    · intro hunlisted
      -- which listings come to their ends is the same in both orders
      have hunlisted' := mt hrelisted.isListed_iff.mp hunlisted
      obtain ⟨e, he, hload⟩ := exists_fault_of_loadSplit hunlisted'
      -- the faults are the same in either order, only the first one on the way is not
      exact ⟨e, (hrelisted.faults_perm folder).mem_iff.mpr he, hload⟩
  · intro fs' listing' entries' hfolder' hnames' hlisted' hreadable
    rw [load_eq_loadSplit hfolder, load_eq_loadSplit hfolder']
    -- files that are not read are filtered out of both lists before they are compared
    have hperm := ((FileTree.readable_perm _).symm.trans hreadable).trans
      (FileTree.readable_perm _)
    exact loadSplit_congr hlisted hlisted' (FileTree.eq_of_perm_of_ascending hperm
      ((FileTree.documents_ascending hnames').filter _)
      ((FileTree.documents_ascending hnames).filter _))
  · obtain ⟨c, hmerge, hload⟩ := loadSplit_of_decodes hlisted hdecodes
    refine ⟨c, ?_, (load_eq_loadSplit hfolder).trans hload⟩
    intro c'
    constructor
    · intro hmerge'
      exact hmerge.unique hmerge'
    · rintro rfl
      exact hmerge

/-- A folder with two declarations of one extension, and a platform on either side of what
`_meta.yaml` says. Two of its files are never read. -/
def overridden : List (String × FileTree) :=
  [("objects", .folder [("text.yml", .file (.ok "platform: tv\nextensions:\n  Common: \x7b\x7d\n"))]),
    ("Base.yaml", .file (.ok "platform: web\nextensions:\n  Common: \x7b\x7d\n")),
    ("_meta.yaml", .file (.ok "platform: game\nversion: \"2.3\"\n")),
    ("_notes.yaml", .file (.ok "not: [valid catalog")),
    ("readme.txt", .file (.error .notText))]

/-- The files of a project whose catalog is a folder. -/
def filesOf (catalog : FileTree) : Files :=
  ⟨.folder [("config", .folder [("catalog", catalog)])], []⟩

/-- A folder that nobody may list. -/
def locked : FileTree := .branch (.refused (.refused "Permission denied (os error 13)")) []

/-- The error of such a folder. -/
def lockedError (path : String) : LoadError :=
  .unlistable path (.refused "Permission denied (os error 13)")

/-- The folder and the same folder listed backwards are loaded alike: the platform of `_meta.yaml`
stands, and the later declaration leaves the one warning. With a folder that nobody may list in it,
it is refused for this one. -/
theorem load_merges_overridden :
    (filesOf (.folder overridden)).find (Path.join "config" "catalog") = .ok (.folder overridden)
      ∧ (FileTree.folder overridden).HasDistinctNames
      ∧ load Yaml.format (filesOf (.folder overridden.reverse)) "config"
        = load Yaml.format (filesOf (.folder overridden)) "config"
      ∧ load Yaml.format (filesOf (.folder (overridden ++ [("saves", locked)]))) "config"
        = .fail (lockedError "config/catalog/saves")
      ∧ ∃ docs c, docs.map ListedFile.name = ["Base.yaml", "_meta.yaml", "_notes.yaml", "text.yml"]
        ∧ (∀ f ∈ docs, f.Decodes Yaml.format)
        ∧ IsMergeOf Yaml.format docs c ∧ c.platform = "game" ∧ c.version = "2.3"
        ∧ load Yaml.format (filesOf (.folder overridden)) "config"
          = ⟨[.redefined "Common" "config/catalog/objects/text.yml"] ++ c.audit.warnings,
            c.audit.result.map fun _ => c⟩ := by
  have hfolder : (filesOf (.folder overridden)).find (Path.join "config" "catalog")
      = .ok (.folder overridden) := rfl
  have hnames : (FileTree.folder overridden).HasDistinctNames := by
    rw [FileTree.hasDistinctNames_folder_iff]
    simp [overridden, FileTree.hasDistinctNames_folder_iff, FileTree.HasDistinctNames]
  have hlisted : (FileTree.folder overridden).IsListed := by
    rw [FileTree.isListed_folder_iff]
    simp [overridden, FileTree.isListed_folder_iff, FileTree.IsListed]
  obtain ⟨horder, hmerges⟩ := load_merges Yaml.format hfolder hnames
  obtain ⟨-, docs, hperm, hascending, hmerged⟩ := hmerges hlisted
  have hbackwards := (horder (filesOf (.folder overridden.reverse)) _ _ rfl
    (.branch (.same .complete) (.of_perm ((List.reverse_perm overridden).symm.map _)))).1 hlisted
  have hrefused : load Yaml.format (filesOf (.folder (overridden ++ [("saves", locked)]))) "config"
      = .fail (lockedError "config/catalog/saves") := by
    have hfolder' : (filesOf (.folder (overridden ++ [("saves", locked)]))).find
        (Path.join "config" "catalog") = .ok (.folder (overridden ++ [("saves", locked)])) := rfl
    have hnames' : (FileTree.folder (overridden ++ [("saves", locked)])).HasDistinctNames := by
      rw [FileTree.hasDistinctNames_folder_iff]
      simp [overridden, locked, FileTree.hasDistinctNames_folder_iff, FileTree.HasDistinctNames,
        FileTree.EntriesHaveDistinctNames]
    have hunlisted : ¬ (FileTree.folder (overridden ++ [("saves", locked)])).IsListed := by
      intro hlisted'
      -- the folder that is added at the end is the one that is not listed
      have hlocked := FileTree.isListed_folder_iff.mp hlisted' ("saves", locked)
        (List.mem_append_right _ (List.mem_singleton_self _))
      simp [locked, FileTree.IsListed] at hlocked
    obtain ⟨hfaults, -⟩ := load_merges Yaml.format hfolder' hnames'
    obtain ⟨e, he, hload⟩ := (hfaults _ _ _ hfolder' (.refl _)).2 hunlisted
    obtain rfl := List.mem_singleton.mp he
    exact hload
  obtain rfl := FileTree.documents_eq hperm hascending
  -- the files are closed texts, so what they hold is evaluated
  have hdecodes : ∀ f ∈ (FileTree.folder overridden).documents, f.Decodes Yaml.format := by
    decide +kernel
  obtain ⟨c, hc, hload⟩ := hmerged hdecodes
  have hmerge : IsMergeOf Yaml.format (FileTree.folder overridden).documents c := (hc c).mpr rfl
  have hplatform : c.platform = "game" :=
    hmerge.saidPlatform ((FileTree.folder overridden).documents.take 1) _
      ((FileTree.folder overridden).documents.drop 2) "game" rfl (by decide +kernel)
      (by decide +kernel)
  have hversion : c.version = "2.3" := hmerge.version.trans (by decide +kernel)
  refine ⟨hfolder, hnames, hbackwards, hrefused, _, c, by decide +kernel, hdecodes, hmerge,
    hplatform, hversion, hload.trans ?_⟩
  congr 2
  decide +kernel

/-- Where the law ends. Of two folders that nobody may list, loading fails for the one that is listed
first. A name that is no text does not count as one that starts with an underscore, whatever its
bytes are, so its file is a part. A file that is named `.yaml` has no extension, so it is no
document. -/
theorem load_merges_limits :
    let both := [("a", locked), ("b", locked)]
    let bytes := (FileName.ofText "_").bytes ++ 0xFF :: (FileName.ofText ".yaml").bytes
    let nameless : FileTree := .branch .complete
      [(⟨bytes⟩, .file (.ok "platform: game\nextensions:\n  Common: \x7b\x7d\n"))]
    let pointed : FileTree := .folder [("_meta.yaml", .file (.ok "platform: game\n")),
      (".yaml", .file (.ok "extensions:\n  Common: \x7b\x7d\n"))]
    FileTree.Relisted (.folder both) (.folder both.reverse)
      ∧ load Yaml.format (filesOf (.folder both)) "config"
        = .fail (lockedError "config/catalog/a")
      ∧ load Yaml.format (filesOf (.folder both.reverse)) "config"
        = .fail (lockedError "config/catalog/b")
      ∧ lockedError "config/catalog/a" ≠ lockedError "config/catalog/b"
      ∧ (load Yaml.format (filesOf nameless) "config").result.toOption.map
          (fun c => c.extensions.names) = some ["Common"]
      ∧ (load Yaml.format (filesOf pointed) "config").result.toOption.map
          (fun c => c.extensions.names) = some [] := by
  refine ⟨.branch (.same .complete) (.swap _ _ []), rfl, rfl, by decide, ?_, ?_⟩
  · decide +kernel
  · decide +kernel

end Catalog

end EventSheet
