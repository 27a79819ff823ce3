import EventSheet.Catalog.Library
import EventSheet.Proofs.Bindings
import Mathlib.Data.List.Lex
import Mathlib.Order.RelClasses

/-!
Files in order.

A folder may list its entries in any order, and one tree of files is the same as another if only
that differs (`FileTree.Relisted`). Paths have an order of their own, name by name from the front.
No two files of a tree have one path, so the files of a tree in path order are one list, whichever
way the folders list them (`FileTree.documents_eq`).

These files are what a walk finds where every folder is listed to its end, and only there
(`FileTree.walk_eq_ok_iff`). Elsewhere the walk ends in the fault of some folder, and which one it
comes to first is a matter of the order (`FileTree.exists_fault_of_walk`).
-/

set_option autoImplicit false

namespace EventSheet

/-! ## Names -/

namespace FileName

theorem bytes_injective : Function.Injective FileName.bytes := by
  rintro ⟨bytes⟩ ⟨bytes'⟩ rfl
  rfl

instance : Std.Trichotomous (fun a b : FileName => a < b) :=
  InvImage.trichotomous (r := fun a b : List UInt8 => a < b) bytes_injective

instance : Std.Asymm (fun a b : FileName => a < b) :=
  InvImage.asymm (r := fun a b : List UInt8 => a < b) FileName.bytes

instance : Trans (fun a b : FileName => a < b) (fun a b : FileName => a < b)
    (fun a b : FileName => a < b) where
  trans := List.lt_trans (α := UInt8)

/-- A name is a text exactly if it is the name of that text. -/
theorem text?_eq_some_iff {n : FileName} {s : String} : n.text? = some s ↔ n = ofText s := by
  obtain ⟨bytes⟩ := n
  rw [text?, String.fromUTF8?]
  constructor
  · intro h
    split at h
    case isTrue hvalid =>
      obtain rfl := Option.some.inj h
      simp [ofText, String.fromUTF8]
    case isFalse => cases h
  · intro h
    -- the bytes of a text are valid, so reading them gives the text back
    obtain rfl : bytes = s.toUTF8.data.toList := congrArg FileName.bytes h
    have hbytes : s.toUTF8.data.toList.toByteArray = s.toByteArray := by
      ext1
      simp
    rw [hbytes, dif_pos s.isValidUTF8]
    rfl

/-- Different texts are different names. -/
theorem ofText_injective : Function.Injective ofText := by
  intro s t h
  exact Option.some.inj ((text?_eq_some_iff.mpr rfl).symm.trans (text?_eq_some_iff.mpr h))

/-- The name of a text is shown as the text. -/
theorem shown_ofText (s : String) : (ofText s).shown = s := by
  rw [shown, text?_eq_some_iff.mpr rfl, Option.getD_some]

end FileName

/-! ## Paths -/

namespace Path

/-- Whether names that lead to one place come before those that lead to another: they are compared
from the front, name by name. -/
def Before (a b : List FileName) : Prop := List.Lex (· < ·) a b

instance : Std.Trichotomous Before := List.Lex.trichotomous (· < ·)

instance : Std.Asymm Before := List.Lex.asymm (· < ·)

/-- Not to come after is to be the same or to come before. -/
theorem notAfter_iff {a b : List FileName} : notAfter a b = true ↔ a = b ∨ Before a b := by
  unfold Before
  induction a generalizing b with
  | nil =>
    rw [notAfter]
    rcases List.lex_nil_or_eq_nil (r := (· < ·)) b with hb | rfl
    · exact iff_of_true rfl (Or.inr hb)
    · exact iff_of_true rfl (Or.inl rfl)
  | cons x a ih =>
    cases b with
    | nil => simp [notAfter]
    | cons y b =>
      rw [notAfter, Bool.or_eq_true, Bool.and_eq_true, decide_eq_true_eq, decide_eq_true_eq, ih,
        List.cons_lex_cons_iff, List.cons.injEq]
      constructor
      · rintro (hlt | ⟨heq, heq' | hlt⟩)
        · exact Or.inr (Or.inl hlt)
        · exact Or.inl ⟨heq, heq'⟩
        · exact Or.inr (Or.inr ⟨heq, hlt⟩)
      · rintro (⟨heq, heq'⟩ | hlt | ⟨heq, hlt⟩)
        · exact Or.inr ⟨heq, Or.inl heq'⟩
        · exact Or.inl hlt
        · exact Or.inr ⟨heq, Or.inr hlt⟩

/-- Of any two paths one does not come after the other. -/
theorem notAfter_total (a b : List FileName) : notAfter a b = true ∨ notAfter b a = true := by
  rw [notAfter_iff, notAfter_iff]
  rcases Std.Trichotomous.rel_or_eq_or_rel_swap (r := Before) (a := a) (b := b) with h | h | h
  · exact Or.inl (Or.inr h)
  · exact Or.inl (Or.inl h)
  · exact Or.inr (Or.inr h)

/-- What does not come after a path does not come after what follows it. -/
theorem notAfter_trans {a b c : List FileName} (h : notAfter a b = true)
    (h' : notAfter b c = true) : notAfter a c = true := by
  rw [notAfter_iff] at h h' ⊢
  rcases h with rfl | h
  · exact h'
  · rcases h' with rfl | h'
    · exact Or.inr h
    · exact Or.inr (List.lt_trans h h')

end Path

/-! ## Trees -/

/-- Whether two listings of one folder may stand for each other: they end alike, but one that breaks
off may do so sooner or later. -/
inductive Listing.Alike : Listing → Listing → Prop
  | same (listing : Listing) : Alike listing listing
  | brokenOff (count count' : Nat) (fault : FileFault) :
    Alike (.brokenOff count fault) (.brokenOff count' fault)

namespace Listing

/-- A listing has no error exactly if it comes to its end. -/
theorem error?_eq_none_iff {listing : Listing} {path : String} :
    listing.error? path = none ↔ listing = .complete := by
  cases listing <;> simp [error?]

/-- Listings that may stand for each other end in one error. -/
theorem Alike.error?_eq {listing listing' : Listing} (h : listing.Alike listing') (path : String) :
    listing'.error? path = listing.error? path := by
  cases h with
  | same => rfl
  | brokenOff => rfl

end Listing

namespace FileTree

mutual

/-- Trees that differ only in the order in which folders list their entries, and in how far a listing
comes that breaks off. -/
inductive Relisted : FileTree → FileTree → Prop
  | file (content : Except FileFault String) : Relisted (.file content) (.file content)
  | branch {listing listing' : Listing} {entries entries' : List (FileName × FileTree)}
    (hlisting : listing.Alike listing') (h : RelistedEntries entries entries') :
    Relisted (.branch listing entries) (.branch listing' entries')

/-- Entries of folders that differ only in their order, and within them in that of other folders. -/
inductive RelistedEntries : List (FileName × FileTree) → List (FileName × FileTree) → Prop
  | nil : RelistedEntries [] []
  | cons (name : FileName) {tree tree' : FileTree} {entries entries' : List (FileName × FileTree)}
    (htree : Relisted tree tree') (hentries : RelistedEntries entries entries') :
    RelistedEntries ((name, tree) :: entries) ((name, tree') :: entries')
  | swap (a b : FileName × FileTree) (entries : List (FileName × FileTree)) :
    RelistedEntries (a :: b :: entries) (b :: a :: entries)
  | trans {entries middle entries' : List (FileName × FileTree)}
    (h : RelistedEntries entries middle) (h' : RelistedEntries middle entries') :
    RelistedEntries entries entries'

end

mutual

/-- Whether no folder of a tree has two entries of one name. -/
def HasDistinctNames : FileTree → Prop
  | .file _ => True
  | .branch _ entries => (entries.map Prod.fst).Nodup ∧ EntriesHaveDistinctNames entries

/-- Whether no folder below some entries has two entries of one name. -/
def EntriesHaveDistinctNames : List (FileName × FileTree) → Prop
  | [] => True
  | (_, tree) :: entries => HasDistinctNames tree ∧ EntriesHaveDistinctNames entries

end

mutual

theorem Relisted.refl (tree : FileTree) : Relisted tree tree := by
  cases tree with
  | file content => exact .file content
  | branch listing entries => exact .branch (.same listing) (RelistedEntries.refl entries)

theorem RelistedEntries.refl (entries : List (FileName × FileTree)) :
    RelistedEntries entries entries := by
  cases entries with
  | nil => exact .nil
  | cons e entries => exact .cons e.1 (Relisted.refl e.2) (RelistedEntries.refl entries)

end

/-- A folder may list its own entries in any order. -/
theorem RelistedEntries.of_perm {entries entries' : List (FileName × FileTree)}
    (h : entries.Perm entries') : RelistedEntries entries entries' := by
  induction h with
  | nil => exact .nil
  | cons e _ ih => exact .cons e.1 (Relisted.refl e.2) ih
  | swap a b entries => exact .swap b a entries
  | trans _ _ ih ih' => exact .trans ih ih'

/-- Distinct names below entries are distinct names below each of them. -/
theorem entriesHaveDistinctNames_iff {entries : List (FileName × FileTree)} :
    EntriesHaveDistinctNames entries ↔ ∀ e ∈ entries, e.2.HasDistinctNames := by
  induction entries with
  | nil => simp [EntriesHaveDistinctNames]
  | cons e entries ih => rw [EntriesHaveDistinctNames, ih, List.forall_mem_cons]

/-- Texts that name the entries of a folder are distinct as texts. -/
theorem hasDistinctNames_folder_iff {entries : List (String × FileTree)} :
    (folder entries).HasDistinctNames
      ↔ (entries.map Prod.fst).Nodup ∧ ∀ e ∈ entries, e.2.HasDistinctNames := by
  have hnames : (entries.map fun e => (FileName.ofText e.1, e.2)).map Prod.fst
      = (entries.map Prod.fst).map FileName.ofText := by
    rw [List.map_map, List.map_map]
    rfl
  rw [folder, HasDistinctNames, hnames, List.nodup_map_iff FileName.ofText_injective,
    entriesHaveDistinctNames_iff, List.forall_mem_map]

/-! ## All files of a tree -/

mutual

/-- All files below a tree, each with the names that lead to it, whether or not a listing comes to
them. -/
def files : FileTree → List ListedFile
  | .file content => [([], content)]
  | .branch _ entries => filesOfEntries entries

/-- All files below the entries of a folder. -/
def filesOfEntries : List (FileName × FileTree) → List ListedFile
  | [] => []
  | (name, tree) :: entries =>
    (files tree).map (fun f => (name :: f.1, f.2)) ++ filesOfEntries entries

end

mutual

/-- Another order of the entries has the same files. -/
theorem Relisted.files_perm {tree tree' : FileTree} :
    Relisted tree tree' → tree.files.Perm tree'.files
  | .file _ => List.Perm.refl _
  | .branch _ h => by
    rw [files, files]
    exact h.filesOfEntries_perm

/-- Another order of entries has the same files below them. -/
theorem RelistedEntries.filesOfEntries_perm {entries entries' : List (FileName × FileTree)} :
    RelistedEntries entries entries' → (filesOfEntries entries).Perm (filesOfEntries entries')
  | .nil => List.Perm.refl _
  | .cons _ htree hentries => by
    rw [filesOfEntries, filesOfEntries]
    exact (htree.files_perm.map _).append hentries.filesOfEntries_perm
  | .swap a b entries => by
    simp only [filesOfEntries, ← List.append_assoc]
    exact List.perm_append_comm.append_right _
  | .trans h h' => h.filesOfEntries_perm.trans h'.filesOfEntries_perm

end

/-- The path of a file starts with the name of an entry. -/
theorem exists_name_of_mem_filesOfEntries {entries : List (FileName × FileTree)} {f : ListedFile}
    (h : f ∈ filesOfEntries entries) : ∃ name ∈ entries.map Prod.fst, f.1.head? = some name := by
  induction entries with
  | nil => exact absurd h List.not_mem_nil
  | cons e entries ih =>
    rw [filesOfEntries, List.mem_append, List.mem_map] at h
    rcases h with ⟨g, -, rfl⟩ | h
    · exact ⟨e.1, List.mem_cons_self, rfl⟩
    · obtain ⟨name, hname, hhead⟩ := ih h
      exact ⟨name, List.mem_cons_of_mem _ hname, hhead⟩

mutual

/-- No two files have one path. -/
theorem paths_nodup {tree : FileTree} (h : tree.HasDistinctNames) :
    (tree.files.map Prod.fst).Nodup := by
  cases tree with
  | file content => exact List.nodup_singleton []
  | branch listing entries => exact entriesPaths_nodup h.1 h.2

/-- No two files below the entries of a folder have one path. -/
theorem entriesPaths_nodup {entries : List (FileName × FileTree)}
    (hnames : (entries.map Prod.fst).Nodup) (h : EntriesHaveDistinctNames entries) :
    ((filesOfEntries entries).map Prod.fst).Nodup := by
  cases entries with
  | nil => exact List.nodup_nil
  | cons e entries =>
    obtain ⟨hnew, hnames⟩ := List.nodup_cons.mp hnames
    have htree : (e.2.files.map Prod.fst).Nodup := paths_nodup h.1
    rw [filesOfEntries, List.map_append, List.nodup_append, List.map_map]
    refine ⟨?_, entriesPaths_nodup hnames h.2, ?_⟩
    · have hprefixed := htree.map (List.cons_injective (a := e.1))
      rwa [List.map_map] at hprefixed
    · -- a file of the first entry and one of another differ in the first name
      intro a ha b hb heq
      obtain ⟨f, -, rfl⟩ := List.mem_map.mp ha
      obtain ⟨g, hg, rfl⟩ := List.mem_map.mp hb
      obtain ⟨name, hname, hhead⟩ := exists_name_of_mem_filesOfEntries hg
      rw [← heq] at hhead
      exact hnew (Option.some.inj hhead ▸ hname)

end

/-! ## Listings that come to their ends -/

mutual

/-- Whether every folder of a tree is listed to its end. -/
def IsListed : FileTree → Prop
  | .file _ => True
  | .branch listing entries => listing = .complete ∧ EntriesAreListed entries

/-- Whether every folder below some entries is listed to its end. -/
def EntriesAreListed : List (FileName × FileTree) → Prop
  | [] => True
  | (_, tree) :: entries => IsListed tree ∧ EntriesAreListed entries

end

/-- All folders below entries are listed exactly if those below each entry are. -/
theorem entriesAreListed_iff {entries : List (FileName × FileTree)} :
    EntriesAreListed entries ↔ ∀ e ∈ entries, e.2.IsListed := by
  induction entries with
  | nil => simp [EntriesAreListed]
  | cons e entries ih => rw [EntriesAreListed, ih, List.forall_mem_cons]

/-- A folder that is listed to its end is all listed if its entries are. -/
theorem isListed_folder_iff {entries : List (String × FileTree)} :
    (folder entries).IsListed ↔ ∀ e ∈ entries, e.2.IsListed := by
  rw [folder, IsListed, entriesAreListed_iff, List.forall_mem_map]
  exact and_iff_right rfl

mutual

/-- The errors of the folders of a tree at a path that are not listed to their ends. -/
def faults (path : String) : FileTree → List LoadError
  | .file _ => []
  | .branch listing entries => (listing.error? path).toList ++ faultsOfEntries path entries

/-- The errors of such folders below the entries of a folder at a path. -/
def faultsOfEntries (path : String) : List (FileName × FileTree) → List LoadError
  | [] => []
  | (name, tree) :: entries =>
    faults (Path.join path name.shown) tree ++ faultsOfEntries path entries

end

mutual

/-- A tree has no faults exactly if all of it is listed. -/
theorem faults_eq_nil_iff (path : String) {tree : FileTree} :
    tree.faults path = [] ↔ tree.IsListed := by
  cases tree with
  | file content => exact iff_of_true rfl trivial
  | branch listing entries =>
    rw [faults, IsListed, List.append_eq_nil_iff, Option.toList_eq_nil_iff,
      Listing.error?_eq_none_iff, faultsOfEntries_eq_nil_iff]

/-- Entries have no faults below them exactly if all below them is listed. -/
theorem faultsOfEntries_eq_nil_iff (path : String) {entries : List (FileName × FileTree)} :
    faultsOfEntries path entries = [] ↔ EntriesAreListed entries := by
  cases entries with
  | nil => exact iff_of_true rfl trivial
  | cons e entries =>
    rw [faultsOfEntries, EntriesAreListed, List.append_eq_nil_iff, faults_eq_nil_iff,
      faultsOfEntries_eq_nil_iff]

end

mutual

/-- Another order of the entries has the same faults. -/
theorem Relisted.faults_perm (path : String) {tree tree' : FileTree} :
    Relisted tree tree' → (tree.faults path).Perm (tree'.faults path)
  | .file _ => List.Perm.refl _
  | .branch hlisting h => by
    rw [faults, faults, hlisting.error?_eq]
    exact (h.faultsOfEntries_perm path).append_left _

/-- Another order of entries has the same faults below them. -/
theorem RelistedEntries.faultsOfEntries_perm (path : String)
    {entries entries' : List (FileName × FileTree)} : RelistedEntries entries entries' →
      (faultsOfEntries path entries).Perm (faultsOfEntries path entries')
  | .nil => List.Perm.refl _
  | .cons _ htree hentries => by
    rw [faultsOfEntries, faultsOfEntries]
    exact (htree.faults_perm _).append (hentries.faultsOfEntries_perm path)
  | .swap a b entries => by
    simp only [faultsOfEntries, ← List.append_assoc]
    exact List.perm_append_comm.append_right _
  | .trans h h' => (h.faultsOfEntries_perm path).trans (h'.faultsOfEntries_perm path)

end

/-- Whether all of a tree is listed does not depend on the order of its entries. -/
theorem Relisted.isListed_iff {tree tree' : FileTree} (h : Relisted tree tree') :
    tree'.IsListed ↔ tree.IsListed := by
  -- the path does not matter for whether there are faults
  have hperm := h.faults_perm ""
  rw [← faults_eq_nil_iff "", ← faults_eq_nil_iff ""]
  constructor
  · intro hnil
    rw [hnil] at hperm
    exact hperm.eq_nil
  · intro hnil
    rw [hnil] at hperm
    exact hperm.nil_eq.symm

/-! ## The walk -/

mutual

/-- A walk through folders that are listed to their ends finds all files. -/
theorem walk_of_isListed (path : String) {tree : FileTree} (h : tree.IsListed) :
    tree.walk path = .ok tree.files := by
  cases tree with
  | file content => rfl
  | branch listing entries =>
    obtain ⟨rfl, hentries⟩ := h
    rw [walk, Listing.reach, walkEntries_of_areListed path hentries (Nat.le_refl _)]
    rfl

/-- A walk through entries of such folders finds all files below them, if it reaches them all. -/
theorem walkEntries_of_areListed (path : String) {n : Nat} {entries : List (FileName × FileTree)}
    (h : EntriesAreListed entries) (hn : entries.length ≤ n) :
    walkEntries path n entries = .ok (filesOfEntries entries) := by
  cases entries with
  | nil => rw [walkEntries, filesOfEntries]
  | cons e entries =>
    cases n with
    | zero => exact absurd hn (Nat.not_succ_le_zero _)
    | succ n =>
      rw [walkEntries, walk_of_isListed _ h.1,
        walkEntries_of_areListed path h.2 (Nat.le_of_succ_le_succ hn)]
      rfl

end

mutual

/-- A walk that finds files has come to the end of every listing. -/
theorem isListed_of_walk {path : String} {tree : FileTree} {found : List ListedFile}
    (h : tree.walk path = .ok found) : tree.IsListed := by
  cases tree with
  | file content => trivial
  | branch listing entries =>
    rw [walk, bind_eq_ok_iff] at h
    obtain ⟨inner, hinner, hend⟩ := h
    -- the files are given only where the listing ends in no error
    rcases hlisting : listing.error? path with _ | e
    · obtain rfl := Listing.error?_eq_none_iff.mp hlisting
      exact ⟨rfl, areListed_of_walk (Nat.le_refl _) hinner⟩
    · rw [hlisting] at hend
      cases hend

/-- A walk through entries that reaches them all finds files only where all below them is listed. -/
theorem areListed_of_walk {path : String} {n : Nat} {entries : List (FileName × FileTree)}
    {found : List ListedFile} (hn : entries.length ≤ n)
    (h : walkEntries path n entries = .ok found) : EntriesAreListed entries := by
  cases entries with
  | nil => trivial
  | cons e entries =>
    cases n with
    | zero => exact absurd hn (Nat.not_succ_le_zero _)
    | succ n =>
      rw [walkEntries, bind_eq_ok_iff] at h
      obtain ⟨inner, hinner, h⟩ := h
      obtain ⟨others, hothers, -⟩ := bind_eq_ok_iff.mp h
      exact ⟨isListed_of_walk hinner, areListed_of_walk (Nat.le_of_succ_le_succ hn) hothers⟩

end

mutual

/-- A walk that fails has come to a folder that is not listed to its end. -/
theorem mem_faults_of_walk {path : String} {tree : FileTree} {e : LoadError}
    (h : tree.walk path = .error e) : e ∈ tree.faults path := by
  cases tree with
  | file content => cases h
  | branch listing entries =>
    rw [faults, List.mem_append]
    -- the walk fails below an entry, or at the end of the listing
    rw [walk, bind_eq_error_iff] at h
    rcases h with hinner | ⟨found, -, hend⟩
    · exact Or.inr (mem_faultsOfEntries_of_walk hinner)
    · rcases hlisting : listing.error? path with _ | e'
      · rw [hlisting] at hend
        cases hend
      · rw [hlisting] at hend
        obtain rfl := Except.error.inj hend
        exact Or.inl (List.mem_singleton_self e')

/-- A walk through entries that fails has come to such a folder below them. -/
theorem mem_faultsOfEntries_of_walk {path : String} {n : Nat}
    {entries : List (FileName × FileTree)} {e : LoadError}
    (h : walkEntries path n entries = .error e) : e ∈ faultsOfEntries path entries := by
  cases entries with
  | nil => cases h
  | cons entry entries =>
    rw [faultsOfEntries, List.mem_append]
    cases n with
    | zero => cases h
    | succ n =>
      -- it fails in the first entry, or behind it
      rw [walkEntries, bind_eq_error_iff] at h
      rcases h with hinner | ⟨inner, -, h⟩
      · exact Or.inl (mem_faults_of_walk hinner)
      · rcases bind_eq_error_iff.mp h with hothers | ⟨others, -, hok⟩
        · exact Or.inr (mem_faultsOfEntries_of_walk hothers)
        · cases hok

end

/-- A walk finds files exactly where all of a tree is listed, and then all files of it. -/
theorem walk_eq_ok_iff {path : String} {tree : FileTree} {found : List ListedFile} :
    tree.walk path = .ok found ↔ tree.IsListed ∧ found = tree.files := by
  constructor
  · intro h
    have hlisted := isListed_of_walk h
    rw [walk_of_isListed path hlisted] at h
    exact ⟨hlisted, (Except.ok.inj h).symm⟩
  · rintro ⟨hlisted, rfl⟩
    exact walk_of_isListed path hlisted

/-- Where not all of a tree is listed, a walk ends in one of its faults. -/
theorem exists_fault_of_walk (path : String) {tree : FileTree} (h : ¬ tree.IsListed) :
    ∃ e ∈ tree.faults path, tree.walk path = .error e := by
  rcases hwalk : tree.walk path with e | found
  · exact ⟨e, mem_faults_of_walk hwalk, rfl⟩
  · exact absurd (isListed_of_walk hwalk) h

/-! ## Files in order -/

/-- The documents of a tree, in the order of their paths. -/
def documents (tree : FileTree) : List ListedFile := ListedFile.documents tree.files

variable {tree : FileTree}

theorem documents_perm (tree : FileTree) :
    tree.documents.Perm (tree.files.filter ListedFile.isDocument) :=
  Sorting.sortBy_perm _ _

theorem mem_documents_iff {f : ListedFile} :
    f ∈ tree.documents ↔ f ∈ tree.files ∧ f.isDocument = true := by
  rw [tree.documents_perm.mem_iff, List.mem_filter]

/-- The documents are in the order of their paths. -/
theorem documents_ordered (tree : FileTree) :
    tree.documents.Pairwise fun a b => Path.notAfter a.1 b.1 = true :=
  Sorting.sortBy_pairwise (fun (a b : ListedFile) => Path.notAfter_total a.1 b.1)
    (fun _ _ _ => Path.notAfter_trans) _

/-- Where no two documents have one path, none stands beside its equal, so the order is strict. -/
theorem documents_ascending_of_nodup (hpaths : (tree.documents.map Prod.fst).Nodup) :
    tree.documents.Pairwise fun a b => Path.Before a.1 b.1 := by
  have hdifferent : tree.documents.Pairwise fun (a b : ListedFile) => a.1 ≠ b.1 :=
    List.pairwise_map.mp hpaths
  refine (tree.documents_ordered.and hdifferent).imp ?_
  rintro a b ⟨hordered, hne⟩
  exact (Path.notAfter_iff.mp hordered).resolve_left hne

/-- Where names are distinct, the documents are in strict order. -/
theorem documents_ascending (h : tree.HasDistinctNames) :
    tree.documents.Pairwise fun a b => Path.Before a.1 b.1 := by
  refine documents_ascending_of_nodup ?_
  rw [(tree.documents_perm.map Prod.fst).nodup_iff]
  exact (paths_nodup h).sublist (List.filter_sublist.map _)

/-- Files in strictly ascending order are one list, whichever way they were listed. -/
theorem eq_of_perm_of_ascending {files files' : List ListedFile} (hperm : files.Perm files')
    (h : files.Pairwise fun a b => Path.Before a.1 b.1)
    (h' : files'.Pairwise fun a b => Path.Before a.1 b.1) : files = files' :=
  -- two that stand in either order would each come before the other
  hperm.eq_of_pairwise (fun _ _ _ _ hab hba => absurd hba (Std.Asymm.asymm _ _ hab)) h h'

/-- If the documents can be put in strictly ascending order, the order that they are taken in is
this one. -/
theorem documents_eq {docs : List ListedFile}
    (hdocs : docs.Perm (tree.files.filter ListedFile.isDocument))
    (hascending : docs.Pairwise fun a b => Path.Before a.1 b.1) : tree.documents = docs := by
  have hperm : tree.documents.Perm docs := tree.documents_perm.trans hdocs.symm
  have hpaths : (docs.map Prod.fst).Nodup := by
    refine List.pairwise_map.mpr (hascending.imp ?_)
    rintro a b hbefore heq
    rw [heq] at hbefore
    exact Std.Asymm.asymm _ _ hbefore hbefore
  have hdocuments : (tree.documents.map Prod.fst).Nodup :=
    (hperm.map Prod.fst).nodup_iff.mpr hpaths
  exact eq_of_perm_of_ascending hperm (documents_ascending_of_nodup hdocuments) hascending

/-- Which documents there are, and in which order, does not depend on how folders list them. -/
theorem Relisted.documents_eq {tree' : FileTree} (hrelisted : Relisted tree tree')
    (h : tree.HasDistinctNames) : tree'.documents = tree.documents :=
  FileTree.documents_eq
    (tree.documents_perm.trans (hrelisted.files_perm.filter _)) (documents_ascending h)

/-- Where all of a tree is listed, its documents are what a listing of them gives. -/
theorem listDocuments_of_isListed (path : String) (h : tree.IsListed) :
    tree.listDocuments path = .ok tree.documents := by
  rw [listDocuments, walk_of_isListed path h]
  rfl

/-- Where not all of a tree is listed, a listing of its documents gives one of the faults. -/
theorem exists_fault_of_listDocuments (path : String) (h : ¬ tree.IsListed) :
    ∃ e ∈ tree.faults path, tree.listDocuments path = .error e := by
  obtain ⟨e, he, hwalk⟩ := exists_fault_of_walk path h
  refine ⟨e, he, ?_⟩
  rw [listDocuments, hwalk]
  rfl

end FileTree

end EventSheet
