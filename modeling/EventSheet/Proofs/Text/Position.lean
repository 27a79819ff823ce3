import EventSheet.Proofs.Text.Cut
import EventSheet.Proofs.Text.Lines
import Mathlib.Data.List.Induction

/-!
Places and lines agree.

A place is reached by counting line feeds, and lines are cut where a line ends; nothing in the two
definitions ties them together. What does is where the line of a place starts
(`exists_lineStart`): the text in front of it leaves no line open, so it has one line for each line
feed that was counted, and the column counts what stands between there and the place. From this, what
is left of a line behind a place is what is left of the text until its next line end
(`Position.at_agrees`).
-/

set_option autoImplicit false

namespace EventSheet.Text

/-! ## The place behind a text -/

namespace Position

/-- The place behind a text that begins at the first place. -/
def behind (before : List Char) : Position := before.foldl after start

theorem behind_append (before between : List Char) :
    behind (before ++ between) = between.foldl after (behind before) :=
  List.foldl_append

theorem behind_concat (before : List Char) (c : Char) :
    behind (before ++ [c]) = (behind before).after c :=
  behind_append before [c]

/-- A walk of as many bytes as a text has goes past all of its characters. -/
theorem walk_append (p : Position) (before rest : List Char) :
    walk p (before ++ rest) (byteLength before) = before.foldl after p := by
  induction before generalizing p with
  | nil => cases rest <;> rfl
  | cons c before ih =>
    have hc := c.utf8Size_pos
    -- every character has a byte, so none of them is at the offset yet
    have hne : c.utf8Size + byteLength before ≠ 0 := by omega
    rw [List.cons_append, byteLength, walk, if_neg hne, Nat.add_sub_cancel_left, ih]
    rfl

/-- A walk ends with the text. -/
theorem walk_of_le (p : Position) {text : List Char} {offset : Nat}
    (h : byteLength text ≤ offset) : walk p text offset = text.foldl after p := by
  induction text generalizing p offset with
  | nil => rfl
  | cons c text ih =>
    have hc := c.utf8Size_pos
    rw [byteLength] at h
    have hne : offset ≠ 0 := by omega
    rw [walk, if_neg hne, ih _ (by omega)]
    rfl

/-- The place of an offset between two characters is the one behind the text in front of it. -/
theorem at_of_cut {text before rest : List Char} {offset : Nat} (h : Cut text offset before rest) :
    Position.at text offset = behind before := by
  obtain ⟨rfl, rfl⟩ := h
  exact walk_append start before rest

/-- Past the end of a text the place is the one behind it. -/
theorem at_of_le {text : List Char} {offset : Nat} (h : byteLength text ≤ offset) :
    Position.at text offset = behind text :=
  walk_of_le start h

/-! ## The order of places -/

/-- The order of places: by line, and by column within a line. -/
instance : LT Position := ⟨fun p q => p.line < q.line ∨ p.line = q.line ∧ p.column < q.column⟩

theorem lt_def {p q : Position} :
    p < q ↔ p.line < q.line ∨ p.line = q.line ∧ p.column < q.column := Iff.rfl

theorem lt_trans {p q r : Position} (h : p < q) (h' : q < r) : p < r := by
  rw [lt_def] at *
  omega

/-- Behind a character a place is further on. -/
theorem lt_after (p : Position) (c : Char) : p < p.after c := by
  rw [lt_def]
  unfold after
  split
  · exact Or.inl (Nat.lt_succ_self p.line)
  · exact Or.inr ⟨rfl, Nat.lt_succ_self p.column⟩

/-- Behind some characters a place is further on. -/
theorem lt_foldl_after (p : Position) {between : List Char} (h : between ≠ []) :
    p < between.foldl after p := by
  induction between generalizing p with
  | nil => exact absurd rfl h
  | cons c between ih =>
    by_cases hempty : between = []
    · subst hempty
      exact lt_after p c
    · exact lt_trans (lt_after p c) (ih (p.after c) hempty)

/-- The place behind a text comes before the one behind a longer text. -/
theorem behind_lt_behind_append (before : List Char) {between : List Char} (h : between ≠ []) :
    behind before < behind (before ++ between) := by
  rw [behind_append]
  exact lt_foldl_after _ h

/-- The line of a place does not go down. -/
theorem line_le_behind_append (before between : List Char) :
    (behind before).line ≤ (behind (before ++ between)).line := by
  by_cases hempty : between = []
  · rw [hempty, List.append_nil]
  · have hlt := behind_lt_behind_append before hempty
    rw [lt_def] at hlt
    omega

/-! ## Places within one line -/

/-- Behind more characters of its line a place is as many columns further on. -/
theorem behind_append_stretch (before : List Char) {between : List Char} (h : '\n' ∉ between) :
    behind (before ++ between)
      = ⟨(behind before).line, (behind before).column + between.length⟩ := by
  -- from the right, for the last character moves the place last
  induction between using List.reverseRecOn with
  | nil => rw [List.append_nil]; rfl
  | append_singleton between c ih =>
    rw [List.mem_append, not_or, List.mem_singleton] at h
    rw [← List.append_assoc, behind_concat, ih h.1, after, if_neg (Ne.symm h.2),
      List.length_append]
    rfl

/-- Behind a line feed a place is on a later line. -/
theorem line_lt_of_newline_mem (before : List Char) {between : List Char} (h : '\n' ∈ between) :
    (behind before).line < (behind (before ++ between)).line := by
  obtain ⟨front, back, rfl⟩ := List.append_of_mem h
  -- up to the line feed, the line feed itself, and what stands behind it
  have hsplit : before ++ (front ++ '\n' :: back) = (before ++ front ++ ['\n']) ++ back := by simp
  have hfront := line_le_behind_append before front
  have hstep : (behind (before ++ front ++ ['\n'])).line = (behind (before ++ front)).line + 1 := by
    rw [behind_concat]
    rfl
  have hback := line_le_behind_append (before ++ front ++ ['\n']) back
  rw [hsplit]
  omega

end Position

/-! ## Where a line starts -/

/-- In front of every place stand lines that have ended, and then what its own line has so far. The
place counts both. -/
theorem exists_lineStart (before : List Char) :
    ∃ done sofar, before = done ++ sofar ∧ EndsLines done ∧ '\n' ∉ sofar
      ∧ Position.behind before = ⟨(lines done).length + 1, sofar.length + 1⟩ := by
  induction before using List.reverseRecOn with
  | nil => exact ⟨[], [], rfl, Or.inl rfl, List.not_mem_nil, rfl⟩
  | append_singleton before c ih =>
    obtain ⟨done, sofar, rfl, hdone, hsofar, hbehind⟩ := ih
    by_cases hc : c = '\n'
    · -- the line of the place so far becomes one more line that has ended
      subst hc
      refine ⟨(done ++ sofar) ++ ['\n'], [], (List.append_nil _).symm, Or.inr ⟨_, rfl⟩,
        List.not_mem_nil, ?_⟩
      have hlength : (lines ((done ++ sofar) ++ ['\n'])).length = (lines done).length + 1 := by
        rw [List.append_assoc, hdone.lines_append, List.length_append,
          length_lines_of_stretch hsofar]
      rw [Position.behind_concat, hbehind, hlength]
      rfl
    · refine ⟨done, sofar ++ [c], List.append_assoc _ _ _, hdone, ?_, ?_⟩
      · rw [List.mem_append, List.mem_singleton, not_or]
        exact ⟨hsofar, Ne.symm hc⟩
      · rw [Position.behind_concat, hbehind, Position.after, if_neg hc, List.length_append]
        rfl

/-- The line of a place: what its own line has so far, and then what is left of it. There is none
behind the last line end. -/
theorem getElem?_lines_of_start {done : List Char} (hdone : EndsLines done)
    (sofar rest : List Char) :
    (lines ((done ++ sofar) ++ rest))[(lines done).length]?
      = if sofar ++ rest = [] then none else some (untilLineEnd (sofar ++ rest)) := by
  rw [List.append_assoc, hdone.lines_append, List.getElem?_append_right (Nat.le_refl _),
    Nat.sub_self, ← List.head?_eq_getElem?, lines_head?]

/-- Nothing is left of the last line exactly if the text leaves no line open. -/
theorem endsLines_append_iff {done sofar : List Char} (hdone : EndsLines done)
    (hsofar : '\n' ∉ sofar) : EndsLines (done ++ sofar) ↔ sofar = [] := by
  constructor
  · rintro (hempty | ⟨front, hfront⟩)
    · exact (List.append_eq_nil_iff.mp hempty).2
    · by_contra hne
      -- the text ends in a line feed, but its last character belongs to the open line
      obtain ⟨cs, c, hsplit⟩ := (List.eq_nil_or_concat sofar).resolve_left hne
      rw [List.concat_eq_append] at hsplit
      rw [hsplit, ← List.append_assoc] at hfront
      have hc : c = '\n' := (List.append_inj' hfront rfl).2 |> List.singleton_inj.mp
      exact hsofar (by rw [hsplit, hc]; simp)
  · rintro rfl
    rw [List.append_nil]
    exact hdone

/-- **A place and the line it names agree.** Take an offset between two characters of a text. If the
text has the line of its place, then that line without what stands before its column is what stands
in the text from the offset up to the end of the line; and it has no such line only at its end, if it
leaves no line open there. The places of such offsets ascend with them, by line and then by column,
and all offsets from the end on have one place. -/
theorem Position.at_agrees (text : List Char) :
    (∀ offset before rest, Cut text offset before rest →
      let p := Position.at text offset
      1 ≤ p.line ∧ 1 ≤ p.column
        ∧ (p.line ≤ (lines text).length →
          ∃ line, (lines text)[p.line - 1]? = some line
            ∧ line.drop (p.column - 1) = untilLineEnd rest)
        ∧ ((lines text).length < p.line ↔ rest = [] ∧ EndsLines text))
      ∧ (∀ offset offset', IsBoundary text offset → IsBoundary text offset' → offset < offset' →
        Position.at text offset < Position.at text offset')
      ∧ ∀ offset, byteLength text ≤ offset →
        Position.at text offset = Position.at text (byteLength text) := by
  refine ⟨fun offset before rest hcut => ?_, ?_, fun offset hoffset => ?_⟩
  · -- the line of the place starts behind `done`, and has `sofar` in front of the place
    obtain ⟨done, sofar, rfl, hdone, hsofar, hbehind⟩ := exists_lineStart before
    have hplace : Position.at text offset = ⟨(lines done).length + 1, sofar.length + 1⟩ :=
      (at_of_cut hcut).trans hbehind
    have hline : (lines text)[(lines done).length]?
        = if sofar ++ rest = [] then none else some (untilLineEnd (sofar ++ rest)) := by
      rw [hcut.parts]
      exact getElem?_lines_of_start hdone sofar rest
    rw [hplace]
    dsimp only
    rw [Nat.add_sub_cancel, Nat.add_sub_cancel]
    refine ⟨by omega, by omega, fun hle => ?_, ?_⟩
    · have hopen : sofar ++ rest ≠ [] := by
        intro hempty
        rw [if_pos hempty, List.getElem?_eq_none_iff] at hline
        omega
      exact ⟨_, hline.trans (if_neg hopen), drop_untilLineEnd hsofar rest⟩
    · have hnone : (lines text).length < (lines done).length + 1 ↔ sofar ++ rest = [] := by
        rw [Nat.lt_succ_iff, ← List.getElem?_eq_none_iff, hline]
        split <;> simp [*]
      rw [hnone, List.append_eq_nil_iff, and_comm]
      refine and_congr_right fun hrest => ?_
      rw [hcut.parts, hrest, List.append_nil, endsLines_append_iff hdone hsofar]
  · -- what stands in front of the later offset goes on behind the earlier one
    rintro offset offset' ⟨before, rest, hcut⟩ ⟨before', rest', hcut'⟩ hlt
    obtain ⟨between, rfl, -⟩ := hcut.exists_between hcut' (Nat.le_of_lt hlt)
    have hne : between ≠ [] := by
      rintro rfl
      have hlength := hcut'.length
      rw [List.append_nil, hcut.length] at hlength
      omega
    rw [at_of_cut hcut, at_of_cut hcut']
    exact behind_lt_behind_append before hne
  · rw [at_of_le hoffset, at_of_le (Nat.le_refl _)]

/-- Between the return and the line feed of a line end, behind a character of two bytes: nothing is
left of the line, and the place is in front of the next line. -/
theorem Position.at_agrees_return :
    let text := ['é', '\r', '\n', 'b']
    (∃ line, (lines text)[0]? = some line ∧ line.drop 2 = untilLineEnd ['\n', 'b'])
      ∧ Position.at text 3 < Position.at text 4
      ∧ Position.at text 9 = Position.at text (byteLength text) := by
  intro text
  have hreturn : Cut text 3 ['é', '\r'] ['\n', 'b'] := ⟨rfl, rfl⟩
  have hnext : Cut text 4 ['é', '\r', '\n'] ['b'] := ⟨rfl, rfl⟩
  have hplace : Position.at text 3 = ⟨1, 3⟩ := rfl
  obtain ⟨hcuts, hascending, hend⟩ := Position.at_agrees text
  refine ⟨?_, hascending 3 4 ⟨_, _, hreturn⟩ ⟨_, _, hnext⟩ (by decide), hend 9 (by decide)⟩
  obtain ⟨-, -, hline, -⟩ := hcuts 3 _ _ hreturn
  rw [hplace] at hline
  exact hline (by decide)

end EventSheet.Text
