import EventSheet.NameMap
import Mathlib.Data.List.Nodup

/-!
What a name map holds.

Because the names ascend strictly, an entry can be read in two ways: by looking its name up, or by
going through the list (`get?_eq_some_iff`). Hence a map is no more than its answers (`ext_get?`).
-/

set_option autoImplicit false

namespace EventSheet

namespace NameMap

variable {α : Type}

/-! ## Names and entries -/

theorem names_ascending (m : NameMap α) : m.names.Pairwise (· < ·) :=
  List.pairwise_map.mpr m.ascending

/-- Names in order are different. -/
theorem ne_of_name_lt {a b : String} (h : a < b) : a ≠ b := by
  rintro rfl
  exact String.lt_irrefl a h

theorem names_nodup (m : NameMap α) : m.names.Nodup := m.names_ascending.imp ne_of_name_lt

/-- In a list whose names ascend, looking a name up finds its entry, wherever it stands. -/
theorem find_eq_some_iff {l : List (String × α)} (h : l.Pairwise fun a b => a.1 < b.1)
    {name : String} {value : α} : find name l = some value ↔ (name, value) ∈ l := by
  -- the name stands first, or else the first name is a smaller one
  induction l with
  | nil => simp [find]
  | cons e rest ih =>
    obtain ⟨k, v⟩ := e
    obtain ⟨hfirst, hrest⟩ := List.pairwise_cons.mp h
    rw [find, List.mem_cons, Prod.mk.injEq]
    by_cases hk : k = name
    · subst hk
      -- the names behind are greater, so none of them is the same again
      have hlater : (k, value) ∉ rest := fun hmem => String.lt_irrefl k (hfirst _ hmem)
      simp [hlater, eq_comm]
    · have hother : name ≠ k := Ne.symm hk
      rw [if_neg hk, ih hrest]
      simp [hother]

/-- A map finds a value under a name exactly if it has the entry. -/
theorem get?_eq_some_iff {m : NameMap α} {name : String} {value : α} :
    m.get? name = some value ↔ (name, value) ∈ m.entries :=
  find_eq_some_iff m.ascending

/-- A name is in a map exactly if something is found under it. -/
theorem mem_names_iff {m : NameMap α} {name : String} :
    name ∈ m.names ↔ ∃ value, m.get? name = some value := by
  simp only [names, List.mem_map, get?_eq_some_iff, Prod.exists, exists_and_right,
    exists_eq_right]

/-- An entry that is set brings its own name and no other. -/
theorem contains_insert_iff {m : NameMap α} {name : String} {value : α} {n : String} :
    (m.insert name value).contains n = true ↔ n = name ∨ m.contains n = true := by
  rw [contains, contains, get?_insert]
  by_cases hname : name = n
  · simp [hname]
  · simp [hname, Ne.symm hname]

/-- Entries that are set bring their own names and no others. -/
theorem contains_insertMany_iff {m : NameMap α} {l : List (String × α)} {n : String} :
    (m.insertMany l).contains n = true ↔ n ∈ l.map Prod.fst ∨ m.contains n = true := by
  unfold insertMany
  induction l generalizing m with
  | nil => simp
  | cons e l ih =>
    rw [List.foldl_cons, ih, contains_insert_iff, List.map_cons, List.mem_cons, ← or_assoc,
      or_comm (a := n ∈ l.map Prod.fst)]

/-- Every entry of a map is one that was set, or was there before. -/
theorem mem_of_mem_insertMany {m : NameMap α} {l : List (String × α)} {e : String × α}
    (h : e ∈ (m.insertMany l).entries) : e ∈ l ∨ e ∈ m.entries := by
  unfold insertMany at h
  induction l generalizing m with
  | nil => exact Or.inr h
  | cons first l ih =>
    rcases ih h with hlater | hbefore
    · exact Or.inl (List.mem_cons_of_mem first hlater)
    -- what was there before the others were set is the first one or older
    rw [← get?_eq_some_iff, get?_insert] at hbefore
    split at hbefore
    case isTrue hname =>
      have hfirst : e = first := Prod.ext hname.symm (Option.some.inj hbefore).symm
      exact Or.inl (hfirst ▸ List.mem_cons_self)
    case isFalse => exact Or.inr (get?_eq_some_iff.mp hbefore)

/-- A map made of a list has entries of the list only. -/
theorem mem_of_mem_ofList {l : List (String × α)} {e : String × α}
    (h : e ∈ (ofList l).entries) : e ∈ l :=
  (mem_of_mem_insertMany h).resolve_right List.not_mem_nil

theorem names_mapValues {β : Type} (f : α → β) (m : NameMap α) : (m.mapValues f).names = m.names :=
  List.map_map

theorem values_mapValues {β : Type} (f : α → β) (m : NameMap α) :
    (m.mapValues f).values = m.values.map f := by
  rw [values, values, mapValues, List.map_map, List.map_map]
  rfl

/-- Looking a name up among changed values gives the changed value. -/
theorem find_map {β : Type} (f : α → β) (name : String) (l : List (String × α)) :
    find name (l.map fun e => (e.1, f e.2)) = (find name l).map f := by
  induction l with
  | nil => rfl
  | cons e l ih =>
    rw [List.map_cons, find, find, ih]
    by_cases hname : e.1 = name
    · rw [if_pos hname, if_pos hname, Option.map_some]
    · rw [if_neg hname, if_neg hname]

theorem get?_mapValues {β : Type} (f : α → β) (m : NameMap α) (name : String) :
    (m.mapValues f).get? name = (m.get? name).map f :=
  find_map f name m.entries

/-- Maps that have the same names list them alike. -/
theorem names_eq_of_mem_iff {β : Type} {m : NameMap α} {m' : NameMap β}
    (h : ∀ name, name ∈ m.names ↔ name ∈ m'.names) : m.names = m'.names := by
  have hperm : m.names.Perm m'.names :=
    (List.perm_ext_iff_of_nodup m.names_nodup m'.names_nodup).mpr h
  -- two ascending lists of the same names have them in the same order
  exact hperm.eq_of_pairwise
    (fun a b _ _ hab hba => absurd (String.lt_trans hab hba) (String.lt_irrefl a))
    m.names_ascending m'.names_ascending

/-- Two maps that answer every look-up alike are equal. -/
theorem ext_get? {m m' : NameMap α} (h : ∀ name, m.get? name = m'.get? name) : m = m' := by
  have hmem : ∀ e, e ∈ m.entries ↔ e ∈ m'.entries := fun e => by
    rw [← get?_eq_some_iff, ← get?_eq_some_iff, h]
  have hnodup : ∀ m : NameMap α, m.entries.Nodup := fun m => List.Nodup.of_map _ m.names_nodup
  -- the entries are the same as sets, and their order is that of the names
  have hperm : m.entries.Perm m'.entries :=
    (List.perm_ext_iff_of_nodup (hnodup m) (hnodup m')).mpr hmem
  have hentries : m.entries = m'.entries :=
    hperm.eq_of_pairwise
      (fun a b _ _ hab hba => absurd (String.lt_trans hab hba) (String.lt_irrefl a.1))
      m.ascending m'.ascending
  obtain ⟨entries, _⟩ := m
  subst hentries
  rfl

/-! ## Searching the values -/

section Search

variable {β : Type} {m : NameMap α} {f : α → Option β}

/-- A search through the values ends at the first name, in name order, whose value answers it. -/
theorem findSome?_values_eq_some_iff {b : β} :
    m.values.findSome? f = some b ↔ ∃ name value, m.get? name = some value ∧ f value = some b
      ∧ ∀ name' value', name' < name → m.get? name' = some value' → f value' = none := by
  rw [values, List.findSome?_map, List.findSome?_eq_some_iff]
  constructor
  · rintro ⟨before, ⟨name, value⟩, after, hsplit, hvalue, hbefore⟩
    have hascending := m.ascending
    rw [hsplit, List.pairwise_append, List.pairwise_cons] at hascending
    refine ⟨name, value, get?_eq_some_iff.mpr ?_, hvalue, fun name' value' hlt hmem => ?_⟩
    · rw [hsplit]
      exact List.mem_append_right before List.mem_cons_self
    · rw [get?_eq_some_iff, hsplit, List.mem_append, List.mem_cons] at hmem
      -- an earlier name cannot stand at or behind the entry
      rcases hmem with hmem | heq | hmem
      · exact hbefore _ hmem
      · cases heq
        exact absurd hlt (String.lt_irrefl name)
      · exact absurd (String.lt_trans hlt (hascending.2.1.1 _ hmem)) (String.lt_irrefl name')
  · rintro ⟨name, value, hname, hvalue, hearlier⟩
    obtain ⟨before, after, hsplit⟩ := List.append_of_mem (get?_eq_some_iff.mp hname)
    refine ⟨before, (name, value), after, hsplit, hvalue, fun e he => ?_⟩
    have hascending := m.ascending
    rw [hsplit, List.pairwise_append] at hascending
    have hmem : e ∈ m.entries := by
      rw [hsplit]
      exact List.mem_append_left _ he
    exact hearlier e.1 e.2 (hascending.2.2 e he _ List.mem_cons_self) (get?_eq_some_iff.mpr hmem)

/-- A search through the values finds nothing exactly if none of them answers it. -/
theorem findSome?_values_eq_none_iff :
    m.values.findSome? f = none ↔ ∀ name value, m.get? name = some value → f value = none := by
  simp only [values, List.findSome?_map, List.findSome?_eq_none_iff, get?_eq_some_iff,
    Prod.forall, Function.comp_apply]

end Search

/-! ## Other names -/

/-- The map with every entry under another name. -/
def rename (f : String → String) (m : NameMap α) : NameMap α :=
  ofList (m.entries.map fun e => (f e.1, e.2))

/-- If no name occurs twice in a list, each of its entries is found after it is inserted. -/
theorem get?_insertMany_eq_some_iff {m : NameMap α} {l : List (String × α)}
    (hl : (l.map Prod.fst).Nodup) {name : String} {value : α} :
    (m.insertMany l).get? name = some value ↔
      (name, value) ∈ l ∨ name ∉ l.map Prod.fst ∧ m.get? name = some value := by
  unfold insertMany
  -- the map so far may be any: each entry is set into what those before it made
  induction l generalizing m with
  | nil => simp
  | cons e l ih =>
    obtain ⟨k, v⟩ := e
    rw [List.map_cons, List.nodup_cons] at hl
    obtain ⟨hnew, hrest⟩ := hl
    rw [List.foldl_cons, ih hrest, get?_insert]
    by_cases hk : k = name
    · subst hk
      have hlater : (k, value) ∉ l := fun hmem =>
        hnew (List.mem_map.mpr ⟨(k, value), hmem, rfl⟩)
      simp [hnew, hlater, eq_comm]
    · simp [hk, Ne.symm hk]

/-- Of two maps, what is inserted counts first. -/
theorem get?_insertMany_entries (m m' : NameMap α) (name : String) :
    (m.insertMany m'.entries).get? name = (m'.get? name).or (m.get? name) := by
  refine Option.ext fun value => ?_
  have hnames : name ∉ m'.entries.map Prod.fst ↔ m'.get? name = none := by
    rw [Option.eq_none_iff_forall_ne_some, ← not_exists, ← mem_names_iff]
    rfl
  rw [get?_insertMany_eq_some_iff m'.names_nodup, ← get?_eq_some_iff, hnames, Option.or_eq_some_iff]

section Rename

variable {f : String → String} (hf : Function.Injective f) {m : NameMap α}

include hf

/-- What is found in a renamed map is what was there under a name that is now this one. -/
theorem get?_rename_eq_some_iff {name : String} {value : α} :
    (m.rename f).get? name = some value ↔ ∃ n, f n = name ∧ m.get? n = some value := by
  have hnodup : ((m.entries.map fun e => (f e.1, e.2)).map Prod.fst).Nodup := by
    rw [List.map_map]
    have hnames := m.names_nodup.map hf
    rw [names, List.map_map] at hnames
    exact hnames
  rw [rename, ofList, get?_insertMany_eq_some_iff hnodup, List.mem_map]
  constructor
  · rintro (⟨⟨n, v⟩, hmem, heq⟩ | ⟨-, hempty⟩)
    · obtain ⟨rfl, rfl⟩ := Prod.mk.inj heq
      exact ⟨n, rfl, get?_eq_some_iff.mpr hmem⟩
    · rw [get?_empty] at hempty
      cases hempty
  · rintro ⟨n, rfl, hn⟩
    exact Or.inl ⟨(n, value), get?_eq_some_iff.mp hn, rfl⟩

/-- What was found under a name is found under the new one. -/
theorem get?_rename (name : String) : (m.rename f).get? (f name) = m.get? name := by
  refine Option.ext fun value => ?_
  rw [get?_rename_eq_some_iff hf]
  constructor
  · rintro ⟨n, hn, hvalue⟩
    rwa [← hf hn]
  · intro hvalue
    exact ⟨name, rfl, hvalue⟩

end Rename

end NameMap

/-- A set made of a list contains what the list does. -/
theorem NameSet.contains_ofNames_iff {names : List String} {n : String} :
    (NameSet.ofNames names).contains n = true ↔ n ∈ names := by
  have hempty : ¬ (NameMap.empty : NameSet).contains n = true := Bool.false_ne_true
  rw [ofNames, NameMap.ofList, NameMap.contains_insertMany_iff, or_iff_left hempty, List.map_map]
  simp

/-- The names of a set are those that the list has. -/
theorem NameSet.mem_names_ofNames_iff {names : List String} {n : String} :
    n ∈ (NameSet.ofNames names).names ↔ n ∈ names := by
  rw [NameMap.mem_names_iff, ← NameSet.contains_ofNames_iff]
  exact Option.isSome_iff_exists.symm

end EventSheet
