import EventSheet.Text.Position
import Mathlib.Data.List.Basic

/-!
Cutting a text at a byte offset.

An offset counts bytes, so it may lie within a character. Where it does not, the text falls into two
parts there (`Cut`), and these are all that the functions on offsets know of a text: cutting out a
part succeeds exactly at two such offsets in order (`slice?_eq_some_iff`).
-/

set_option autoImplicit false

namespace EventSheet.Text

/-! ## Bytes -/

/-- The bytes of two texts add up. -/
theorem byteLength_append (a b : List Char) : byteLength (a ++ b) = byteLength a + byteLength b := by
  induction a with
  | nil => simp [byteLength]
  | cons c a ih =>
    simp only [List.cons_append, byteLength, ih]
    omega

/-- A text without bytes has no characters. -/
theorem eq_nil_of_byteLength {cs : List Char} (h : byteLength cs = 0) : cs = [] := by
  cases cs with
  | nil => rfl
  | cons c cs =>
    have hc := c.utf8Size_pos
    rw [byteLength] at h
    omega

/-! ## Two parts -/

/-- A text falls into two parts at an offset. -/
structure Cut (text : List Char) (offset : Nat) (before rest : List Char) : Prop where
  /-- The parts make up the text. -/
  parts : text = before ++ rest
  /-- The offset is the one behind the first part. -/
  length : byteLength before = offset

/-- An offset at which a text falls into two parts: it is not past the end, and it cuts no
character. -/
def IsBoundary (text : List Char) (offset : Nat) : Prop :=
  ∃ before rest, Cut text offset before rest

namespace Cut

variable {text before rest before' rest' : List Char} {offset offset' : Nat}

/-- A text falls into two parts at no offset past its end. -/
theorem le (h : Cut text offset before rest) : offset ≤ byteLength text := by
  have htext := congrArg byteLength h.parts
  rw [byteLength_append, h.length] at htext
  omega

/-- Of two offsets the later has the first part of the earlier in front of it. -/
theorem exists_between (h : Cut text offset before rest) (h' : Cut text offset' before' rest')
    (hle : offset ≤ offset') :
    ∃ between, before' = before ++ between ∧ rest = between ++ rest' := by
  rcases List.append_eq_append_iff.mp (h.parts.symm.trans h'.parts) with
    ⟨between, hbefore, hrest⟩ | ⟨back, hbefore, hrest⟩
  · exact ⟨between, hbefore, hrest⟩
  · -- the first parts are the other way round, so there is nothing between them
    have hlength := h.length
    rw [hbefore, byteLength_append, h'.length] at hlength
    have hnothing : byteLength back = 0 := by omega
    obtain rfl := eq_nil_of_byteLength hnothing
    rw [List.append_nil] at hbefore
    exact ⟨[], by rw [hbefore, List.append_nil], hrest.symm⟩

end Cut

/-! ## Taking parts of a text -/

/-- At the start nothing stands in front. -/
theorem cut_zero_iff {text before rest : List Char} :
    Cut text 0 before rest ↔ before = [] ∧ text = rest := by
  constructor
  · rintro ⟨rfl, hlength⟩
    obtain rfl := eq_nil_of_byteLength hlength
    exact ⟨rfl, rfl⟩
  · rintro ⟨rfl, rfl⟩
    exact ⟨rfl, rfl⟩

/-- Behind its first character a text falls into parts as its rest does, further to the left by the
bytes of the character. -/
theorem cut_cons_iff {c : Char} {text before rest : List Char} {offset : Nat} (h : offset ≠ 0) :
    Cut (c :: text) offset before rest ↔ c.utf8Size ≤ offset
      ∧ ∃ front, before = c :: front ∧ Cut text (offset - c.utf8Size) front rest := by
  constructor
  · rintro ⟨hparts, hlength⟩
    cases before with
    | nil => exact absurd hlength.symm h
    | cons d front =>
      rw [List.cons_append, List.cons.injEq] at hparts
      obtain ⟨rfl, hparts⟩ := hparts
      rw [byteLength] at hlength
      exact ⟨by omega, front, rfl, hparts, by omega⟩
  · rintro ⟨hle, front, rfl, rfl, hlength⟩
    refine ⟨rfl, ?_⟩
    rw [byteLength]
    omega

/-- An empty text falls into parts at its start only. -/
theorem not_cut_nil {before rest : List Char} {offset : Nat} (h : offset ≠ 0) :
    ¬ Cut [] offset before rest := by
  intro hcut
  have hle := hcut.le
  rw [byteLength] at hle
  omega

/-- Dropping bytes gives the second part, where there are two. -/
theorem dropBytes?_eq_some_iff {text rest : List Char} {offset : Nat} :
    dropBytes? text offset = some rest ↔ ∃ before, Cut text offset before rest := by
  fun_induction dropBytes? text offset with
  | case1 text => simp [cut_zero_iff]
  | case2 n => simp [not_cut_nil (Nat.succ_ne_zero n)]
  | case3 c text n hle ih =>
    rw [ih]
    simp [cut_cons_iff (Nat.succ_ne_zero n), hle]
  | case4 c text n hle => simp [cut_cons_iff (Nat.succ_ne_zero n), hle]

/-- Taking bytes gives the first part, where there are two. -/
theorem takeBytes?_eq_some_iff {text part : List Char} {offset : Nat} :
    takeBytes? text offset = some part ↔ ∃ rest, Cut text offset part rest := by
  fun_induction takeBytes? text offset generalizing part with
  | case1 text => simp [cut_zero_iff, eq_comm]
  | case2 n => simp [not_cut_nil (Nat.succ_ne_zero n)]
  | case3 c text n hle ih =>
    simp only [Option.map_eq_some_iff, ih, cut_cons_iff (Nat.succ_ne_zero n), hle, true_and]
    constructor
    · rintro ⟨front, ⟨rest, hcut⟩, rfl⟩
      exact ⟨rest, front, rfl, hcut⟩
    · rintro ⟨rest, front, rfl, hcut⟩
      exact ⟨front, ⟨rest, hcut⟩, rfl⟩
  | case4 c text n hle => simp [cut_cons_iff (Nat.succ_ne_zero n), hle]

/-- A part can be cut out exactly if the text falls into parts at both of its ends, in order. -/
theorem slice?_eq_some_iff {text part : List Char} {start stop : Nat} :
    slice? text start stop = some part ↔
      ∃ before rest, Cut text start before (part ++ rest) ∧ Cut text stop (before ++ part) rest := by
  unfold slice?
  constructor
  · intro h
    split at h
    case isFalse => cases h
    case isTrue hle =>
      -- the front is dropped up to the start, and of what is left the part is taken
      obtain ⟨back, hback, hpart⟩ := Option.bind_eq_some_iff.mp h
      obtain ⟨before, hbefore⟩ := dropBytes?_eq_some_iff.mp hback
      obtain ⟨rest, rfl, hlength⟩ := takeBytes?_eq_some_iff.mp hpart
      refine ⟨before, rest, hbefore, ?_, ?_⟩
      · rw [hbefore.parts, List.append_assoc]
      · rw [byteLength_append, hbefore.length, hlength]
        omega
  · rintro ⟨before, rest, hstart, hstop⟩
    have hlength := hstop.length
    rw [byteLength_append, hstart.length] at hlength
    rw [if_pos (by omega), dropBytes?_eq_some_iff.mpr ⟨before, hstart⟩, Option.bind_some]
    exact takeBytes?_eq_some_iff.mpr ⟨rest, rfl, by omega⟩

end EventSheet.Text
