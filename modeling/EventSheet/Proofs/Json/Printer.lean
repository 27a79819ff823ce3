import EventSheet.Json.Decode
import EventSheet.Proofs.Json.Layout
import EventSheet.Proofs.NameMap

/-!
What the printers write is read back.

Both forms of a value are layouts of it, the one without any blanks and the other one with a line
for every item and member. So both mean the value, as long as it nests no deeper than the reader
goes and its numbers are whole numbers of 64 bits (`Fits`).
-/

set_option autoImplicit false

namespace EventSheet.Json

/-- A value nests no deeper than a depth, and its numbers are whole numbers of 64 bits. -/
inductive Fits : Nat → Json → Prop where
  | null {depth} : Fits depth .null
  | bool {depth} (b : Bool) : Fits depth (.bool b)
  | number {depth n} : n < UInt64.size → Fits depth (.ofNat n)
  | str {depth} (s : String) : Fits depth (.str s)
  | arr {depth items} : (∀ item ∈ items, Fits depth item) → Fits (depth + 1) (.arr items)
  | obj {depth members} : (∀ m ∈ members, Fits depth m.2) → Fits (depth + 1) (.obj members)

namespace Fits

variable {depth : Nat}

theorem noMember : Fits (depth + 1) (.obj []) := .obj fun _ h => absurd h List.not_mem_nil

/-- One more member that fits one level deeper. -/
theorem member {name : String} {value : Json} {members : List (String × Json)}
    (hvalue : Fits depth value) (hrest : Fits (depth + 1) (.obj members)) :
    Fits (depth + 1) (.obj ((name, value) :: members)) := by
  cases hrest with
  | obj hmembers => exact .obj (List.forall_mem_cons.mpr ⟨hvalue, hmembers⟩)

/-- An array fits if every item is of a form that fits one level deeper. -/
theorem map {α : Type} {encode : α → Json} (h : ∀ a, Fits depth (encode a)) (l : List α) :
    Fits (depth + 1) (.arr (l.map encode)) := by
  refine .arr fun v hv => ?_
  obtain ⟨a, -, rfl⟩ := List.mem_map.mp hv
  exact h a

@[simp] theorem ofOffset (n : UInt64) : Fits depth (.ofOffset n) := .number n.toNat_lt

theorem ofStrings (l : List String) : Fits (depth + 1) (.ofStrings l) := map .str l

end Fits

@[simp] theorem fits_str {depth : Nat} {s : String} : Fits depth (.str s) := .str s

/-- An array takes one level, and its items have to fit into the others. -/
theorem fits_arr_iff {depth : Nat} {items : List Json} :
    Fits depth (.arr items) ↔ 0 < depth ∧ ∀ item ∈ items, Fits (depth - 1) item := by
  constructor
  · rintro ⟨_⟩
    exact ⟨Nat.succ_pos _, ‹_›⟩
  · rintro ⟨hdepth, hitems⟩
    rw [← Nat.sub_add_cancel hdepth]
    exact .arr hitems

/-- An object takes one level, and the values of its members have to fit into the others. -/
theorem fits_obj_iff {depth : Nat} {members : List (String × Json)} :
    Fits depth (.obj members) ↔ 0 < depth ∧ ∀ m ∈ members, Fits (depth - 1) m.2 := by
  constructor
  · rintro ⟨_⟩
    exact ⟨Nat.succ_pos _, ‹_›⟩
  · rintro ⟨hdepth, hmembers⟩
    rw [← Nat.sub_add_cancel hdepth]
    exact .obj hmembers

@[simp] theorem fits_obj_nil {depth : Nat} : Fits depth (.obj []) ↔ 0 < depth := by
  simp [fits_obj_iff]

@[simp] theorem fits_obj_cons {depth : Nat} {m : String × Json} {members : List (String × Json)} :
    Fits depth (.obj (m :: members)) ↔ Fits (depth - 1) m.2 ∧ Fits depth (.obj members) := by
  rw [fits_obj_iff, fits_obj_iff, List.forall_mem_cons]
  exact and_left_comm

/-- The items of an array are normalized one by one. -/
theorem normalizedItems_eq (items : List Json) :
    normalizedItems items = items.map normalized := by
  induction items with
  | nil => rfl
  | cons item items ih => rw [normalizedItems, ih, List.map_cons]

/-- The members of an object are normalized one by one. -/
theorem normalizedMembers_eq (members : List (String × Json)) :
    normalizedMembers members = members.map fun m => (m.1, normalized m.2) := by
  induction members with
  | nil => rfl
  | cons m members ih => rw [normalizedMembers, ih, List.map_cons]

/-- The order of members does not matter, nor do members that are left out. -/
theorem Fits.normalized {depth : Nat} {value : Json} (h : Fits depth value) :
    Fits depth value.normalized := by
  -- a normal form nests as deep as the value, for it only orders members and drops repeated ones
  induction h with
  | null => exact .null
  | bool b => exact .bool b
  | number hn => exact .number hn
  | str s => exact .str s
  | arr _ ih =>
    rw [Json.normalized, normalizedItems_eq]
    refine .arr fun item hitem => ?_
    obtain ⟨v, hv, rfl⟩ := List.mem_map.mp hitem
    exact ih v hv
  | obj _ ih =>
    rw [Json.normalized, normalizedMembers_eq]
    refine .obj fun m hm => ?_
    obtain ⟨m', hm', rfl⟩ := List.mem_map.mp (NameMap.mem_of_mem_ofList hm)
    exact ih m' hm'

/-! ## Parts between brackets -/

/-- The characters of parts with a separator between them. -/
theorem toList_intercalate_cons (separator part : String) (parts : List String) :
    (separator.intercalate (part :: parts)).toList
      = part.toList ++ (parts.map String.toList).flatMap (separator.toList ++ ·) := by
  induction parts generalizing part with
  | nil => simp
  | cons next parts ih =>
    rw [String.intercalate_cons_cons, String.toList_append, String.toList_append, ih, List.map_cons,
      List.flatMap_cons, List.append_assoc, List.append_assoc]

/-- The layout without blanks. -/
def Layout.tight : Layout :=
  let none : Blanks := ⟨[], fun _ h => absurd h List.not_mem_nil⟩
  ⟨none, none, none, none⟩

/-- A line break, and as many columns as a depth has. -/
def Layout.lineBreak (depth : Nat) : Blanks :=
  ⟨'\n' :: List.replicate (2 * depth) ' ', by
    intro c hc
    rcases List.mem_cons.mp hc with rfl | hc
    · decide
    · rw [List.eq_of_mem_replicate hc]
      decide⟩

/-- The layout of a container at a depth that has a line for each of its parts. -/
def Layout.lines (depth : Nat) : Layout :=
  ⟨lineBreak (depth + 1), lineBreak (depth + 1), ⟨[' '], List.forall_mem_singleton.mpr rfl⟩,
    lineBreak depth⟩

/-- The items of an array are printed one by one. -/
theorem compressItems_eq (items : List Json) : compressItems items = items.map compress := by
  induction items with
  | nil => rfl
  | cons item items ih => rw [compressItems, ih, List.map_cons]

/-- The members of an object are printed one by one. -/
theorem compressMembers_eq (members : List (String × Json)) :
    compressMembers members = members.map fun m => quote m.1 ++ ":" ++ compress m.2 := by
  induction members with
  | nil => rfl
  | cons m members ih => rw [compressMembers, ih, List.map_cons]

/-- The items of an array are printed one by one, each on lines of its own. -/
theorem indentItems_eq (column : Nat) (items : List Json) :
    indentItems column items = items.map (indentAt column) := by
  induction items with
  | nil => rfl
  | cons item items ih => rw [indentItems, ih, List.map_cons]

/-- The members of an object are printed one by one, each on lines of its own. -/
theorem indentMembers_eq (column : Nat) (members : List (String × Json)) :
    indentMembers column members
      = members.map fun m => quote m.1 ++ ": " ++ indentAt column m.2 := by
  induction members with
  | nil => rfl
  | cons m members ih => rw [indentMembers, ih, List.map_cons]

/-- Parts between commas, with a closing bracket, are laid out without blanks. -/
theorem toList_intercalate_comma (close : Char) (parts : List String) :
    (",".intercalate parts).toList ++ [close]
      = Layout.tight.enclosed close (parts.map String.toList) := by
  cases parts with
  | nil => rfl
  | cons part parts =>
    rw [toList_intercalate_cons, List.append_assoc]
    rfl

/-- Bracketed parts are laid out with a line for each. -/
theorem toList_bracket {opening closing : String} {first close : Char}
    (hopening : opening.toList = [first]) (hclosing : closing.toList = [close]) (depth : Nat)
    (parts : List String) :
    (bracket opening closing depth parts).toList
      = first :: (Layout.lines depth).enclosed close (parts.map String.toList) := by
  cases parts with
  | nil =>
    rw [bracket, String.toList_append, hopening, hclosing]
    rfl
  | cons part parts =>
    unfold bracket
    simp only [String.toList_append, toList_intercalate_cons, hopening, hclosing,
      String.toList_ofList, List.append_assoc]
    rfl

variable {depth : Nat} {value : Json}

/-- A whole number is printed by its digits. -/
theorem toList_compress_ofNat (n : Nat) : (compress (.ofNat n)).toList = Nat.toDigits 10 n :=
  Nat.toList_repr

/-- An array on one line is laid out without blanks. -/
theorem toList_compress_arr (items : List Json) :
    (compress (.arr items)).toList
      = '[' :: Layout.tight.enclosed ']' (items.map fun v => (compress v).toList) := by
  rw [compress, String.toList_append, String.toList_append, compressItems_eq, List.append_assoc]
  change '[' :: (_ ++ [']']) = _
  rw [toList_intercalate_comma, List.map_map]
  rfl

/-- An object on one line is laid out without blanks. -/
theorem toList_compress_obj (members : List (String × Json)) :
    (compress (.obj members)).toList
      = '{' :: Layout.tight.enclosed '}'
          (members.map fun m => Layout.tight.member m.1 (compress m.2).toList) := by
  have hmember : ∀ m : String × Json, (quote m.1 ++ ":" ++ compress m.2).toList
      = Layout.tight.member m.1 (compress m.2).toList := by
    intro m
    rw [String.toList_append, String.toList_append, List.append_assoc]
    rfl
  rw [compress, String.toList_append, String.toList_append, compressMembers_eq, List.append_assoc]
  change '{' :: (_ ++ ['}']) = _
  rw [toList_intercalate_comma, List.map_map]
  simp only [Function.comp_def, hmember]

/-- An array is laid out with a line for each item. -/
theorem toList_indentAt_arr (column : Nat) (items : List Json) :
    (indentAt column (.arr items)).toList
      = '[' :: (Layout.lines column).enclosed ']'
          (items.map fun v => (indentAt (column + 1) v).toList) := by
  rw [indentAt, indentItems_eq, toList_bracket rfl rfl, List.map_map]
  rfl

/-- An object is laid out with a line for each member. -/
theorem toList_indentAt_obj (column : Nat) (members : List (String × Json)) :
    (indentAt column (.obj members)).toList
      = '{' :: (Layout.lines column).enclosed '}'
          (members.map fun m =>
            (Layout.lines column).member m.1 (indentAt (column + 1) m.2).toList) := by
  have hmember : ∀ m : String × Json, (quote m.1 ++ ": " ++ indentAt (column + 1) m.2).toList
      = (Layout.lines column).member m.1 (indentAt (column + 1) m.2).toList := by
    intro m
    rw [String.toList_append, String.toList_append, List.append_assoc]
    rfl
  have hopening : "\x7b".toList = ['{'] := rfl
  have hclosing : "\x7d".toList = ['}'] := rfl
  rw [indentAt, indentMembers_eq, toList_bracket hopening hclosing, List.map_map]
  simp only [Function.comp_def, hmember]

/-! ## Both forms -/

/-- The form on one line means the value. -/
theorem reads_compress (h : Fits depth value) : Reads depth value (compress value).toList := by
  -- on the value: of a container, each part means what it should, and the layout does not matter
  induction h with
  | null => exact reads_null
  | bool b =>
    cases b
    · exact reads_false
    · exact reads_true
  | number hn => exact toList_compress_ofNat _ ▸ reads_ofNat hn
  | str s => exact reads_str s
  | arr _ ih =>
    rw [toList_compress_arr]
    exact reads_arr Layout.tight ih
  | obj _ ih =>
    rw [toList_compress_obj]
    exact @reads_obj _ Layout.tight _ (fun v => (compress v).toList) ih

/-- The indented form means the value, however far its container stands to the right. -/
theorem reads_indentAt (h : Fits depth value) (column : Nat) :
    Reads depth value (indentAt column value).toList := by
  -- the parts of a container stand further to the right, so the column may be any
  induction h generalizing column with
  | null =>
    rw [indentAt]
    exact reads_null
  | bool b =>
    cases b <;> rw [indentAt]
    · exact reads_false
    · exact reads_true
  | number hn => exact toList_compress_ofNat _ ▸ reads_ofNat hn
  | str s => exact reads_str s
  | arr _ ih =>
    rw [toList_indentAt_arr]
    exact reads_arr _ fun v hv => ih v hv (column + 1)
  | obj _ ih =>
    rw [toList_indentAt_obj]
    exact @reads_obj _ (Layout.lines column) _ (fun v => (indentAt (column + 1) v).toList)
      fun m hm => ih m hm (column + 1)

/-- The indented form means the value. -/
theorem reads_indented (h : Fits depth value) : Reads depth value value.indented.toList :=
  reads_indentAt h 0

end EventSheet.Json
