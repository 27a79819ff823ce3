import EventSheet.Text.Position
import Mathlib.Data.List.Basic
import Mathlib.Data.List.TakeWhile

/-!
Lines, read off a text from any place in it.

`lines` goes through a text once and gathers its lines. `untilLineEnd` says of one place what is left
of its line: what stands before the next line end. The two agree on the first line (`lines_head?`),
and a text that leaves no line open has the same lines whatever follows (`EndsLines.lines_append`).
So the line of a place is known from what stands around it: as many lines as the text in front of it
has come before it, and it is what is left of its line at its own start.
-/

set_option autoImplicit false

namespace EventSheet.Text

/-! ## Line ends

A line feed ends a line by itself, a return only together with the line feed behind it. Every
function on lines tells these cases apart, and every induction here follows them. -/

/-- The return of a line end: one with a line feed directly behind it. -/
def IsReturn (c : Char) (cs : List Char) : Prop := c = '\r' ∧ ∃ rest, cs = '\n' :: rest

/-- A return is told by what is directly behind it. -/
theorem isReturn_append_iff {c : Char} {front rest : List Char} :
    IsReturn c (front ++ rest) ↔ IsReturn c front ∨ front = [] ∧ IsReturn c rest := by
  cases front with
  | nil => simp [IsReturn]
  | cons d front => simp [IsReturn]

/-- In a text without a line feed no return ends a line. -/
theorem not_isReturn_of_notMem {c : Char} {cs : List Char} (h : '\n' ∉ cs) : ¬ IsReturn c cs := by
  rintro ⟨-, rest, rfl⟩
  exact h List.mem_cons_self

/-- Induction along a text: it has come to its end, or to a line end of either form, or to a
character within a line. -/
theorem lineInduction {motive : List Char → Prop} (nil : motive [])
    (ended : ∀ cs, motive cs → motive ('\r' :: '\n' :: cs))
    (newline : ∀ cs, motive cs → motive ('\n' :: cs))
    (within : ∀ c cs, c ≠ '\n' → ¬ IsReturn c cs → motive cs → motive (c :: cs))
    (cs : List Char) : motive cs := by
  induction cs using lines.induct with
  | case1 => exact nil
  | case2 cs ih => exact ended cs ih
  | case3 cs _ ih => exact newline cs ih
  | case4 c cs hreturn hc ih =>
    refine within c cs hc ?_ ih
    rintro ⟨hreturned, rest, hrest⟩
    exact hreturn rest hreturned hrest

@[simp] theorem lines_nil : lines [] = [] := rfl

/-- A return and a line feed end a line together. -/
@[simp] theorem lines_ended (cs : List Char) : lines ('\r' :: '\n' :: cs) = [] :: lines cs := rfl

@[simp] theorem lines_newline (cs : List Char) : lines ('\n' :: cs) = [] :: lines cs := by
  simp [lines]

/-- A character within a line joins the line that comes next. -/
theorem lines_within {c : Char} {cs : List Char} (hc : c ≠ '\n') (hreturn : ¬ IsReturn c cs) :
    lines (c :: cs) = onFirst c (lines cs) := by
  rw [lines.eq_3 _ _ fun rest hreturned hrest => hreturn ⟨hreturned, rest, hrest⟩, if_neg hc]

/-- A character joins the first of some lines, whatever lines follow. -/
theorem onFirst_append {c : Char} {ls : List (List Char)} (h : ls ≠ [])
    (others : List (List Char)) : onFirst c (ls ++ others) = onFirst c ls ++ others := by
  cases ls with
  | nil => exact absurd rfl h
  | cons line ls => rfl

/-! ## What is left of a line -/

/-- What stands in a text before its first line end; all of it if no line ends in it. -/
def untilLineEnd (cs : List Char) : List Char :=
  let stretch := cs.takeWhile (· ≠ '\n')
  if '\n' ∈ cs ∧ stretch.getLast? = some '\r' then stretch.dropLast else stretch

@[simp] theorem untilLineEnd_newline (cs : List Char) : untilLineEnd ('\n' :: cs) = [] := by
  simp [untilLineEnd]

@[simp] theorem untilLineEnd_ended (cs : List Char) :
    untilLineEnd ('\r' :: '\n' :: cs) = [] := by
  simp [untilLineEnd]

/-- A character within a line is left of it, in front of the rest. -/
theorem untilLineEnd_within {c : Char} {cs : List Char} (hc : c ≠ '\n')
    (hreturn : ¬ IsReturn c cs) : untilLineEnd (c :: cs) = c :: untilLineEnd cs := by
  have hstretch : (c :: cs).takeWhile (· ≠ '\n') = c :: cs.takeWhile (· ≠ '\n') :=
    List.takeWhile_cons_of_pos (by simpa using hc)
  have hmem : '\n' ∈ c :: cs ↔ '\n' ∈ cs := by simp [Ne.symm hc]
  unfold untilLineEnd
  simp only [hstretch, hmem]
  by_cases hempty : cs.takeWhile (· ≠ '\n') = []
  · -- the line ends here: with the text, or with a line feed, and then `c` is no return before it
    have hlast : ¬ ('\n' ∈ cs ∧ c = '\r') := by
      rintro ⟨hnewline, hreturned⟩
      apply hreturn
      cases cs with
      | nil => cases hnewline
      | cons d rest =>
        by_cases hd : d = '\n'
        · exact ⟨hreturned, rest, by rw [hd]⟩
        · rw [List.takeWhile_cons_of_pos (by simpa using hd)] at hempty
          cases hempty
    rw [hempty]
    simp [hlast]
  · -- the line goes on behind the character, so its last character is the same
    obtain ⟨front, last, hsplit⟩ := (List.eq_nil_or_concat _).resolve_left hempty
    rw [List.concat_eq_append] at hsplit
    have hdrop : (c :: (front ++ [last])).dropLast = c :: front := by
      rw [← List.cons_append, List.dropLast_concat]
    rw [hsplit, List.getLast?_cons, List.getLast?_concat, Option.getD_some, hdrop,
      List.dropLast_concat]
    split <;> rfl

/-- No line feed stands before the first one. -/
theorem newline_notMem_takeWhile (cs : List Char) : '\n' ∉ cs.takeWhile (· ≠ '\n') := by
  intro hmem
  simpa using List.mem_takeWhile_imp hmem

/-- What is left of a line has no line feed. -/
theorem newline_notMem_untilLineEnd (cs : List Char) : '\n' ∉ untilLineEnd cs := by
  unfold untilLineEnd
  dsimp only
  split
  · intro hmem
    exact newline_notMem_takeWhile cs (List.dropLast_subset _ hmem)
  · exact newline_notMem_takeWhile cs

/-- Further on in a line less of it is left, and behind the return of a line end nothing, as in
front of it. -/
theorem drop_untilLineEnd {front : List Char} (hfront : '\n' ∉ front) (rest : List Char) :
    (untilLineEnd (front ++ rest)).drop front.length = untilLineEnd rest := by
  -- one character further: either it is left of the line, or it is the return of the line end
  induction front with
  | nil => rfl
  | cons c front ih =>
    rw [List.mem_cons, not_or] at hfront
    rw [List.cons_append, List.length_cons]
    by_cases hreturn : IsReturn c (front ++ rest)
    · rcases isReturn_append_iff.mp hreturn with hwithin | ⟨rfl, rfl, after, rfl⟩
      · exact absurd hwithin (not_isReturn_of_notMem hfront.2)
      · rw [List.nil_append, untilLineEnd_ended, untilLineEnd_newline, List.drop_nil]
    · rw [untilLineEnd_within (Ne.symm hfront.1) hreturn, List.drop_succ_cons]
      exact ih hfront.2

/-- A line feed within a text ends its first line there at the latest. -/
theorem length_untilLineEnd_le {front : List Char} (hfront : '\n' ∉ front) (rest : List Char) :
    (untilLineEnd (front ++ '\n' :: rest)).length ≤ front.length := by
  have hleft := drop_untilLineEnd hfront ('\n' :: rest)
  rw [untilLineEnd_newline] at hleft
  exact List.drop_eq_nil_iff.mp hleft

/-! ## The lines of a text -/

/-- A character joins the first line, or is the first line. -/
theorem head?_onFirst (c : Char) (ls : List (List Char)) :
    (onFirst c ls).head? = some (c :: ls.head?.getD []) := by
  cases ls <;> rfl

/-- The first line of a text is what stands before its first line end. -/
theorem lines_head? (cs : List Char) :
    (lines cs).head? = if cs = [] then none else some (untilLineEnd cs) := by
  induction cs using lineInduction with
  | nil => rfl
  | ended cs | newline cs => simp
  | within c cs hc hreturn ih =>
    rw [lines_within hc hreturn, untilLineEnd_within hc hreturn, head?_onFirst, ih,
      if_neg (List.cons_ne_nil _ _)]
    -- the last character of a text makes a line even if no other follows
    by_cases hcs : cs = []
    · rw [if_pos hcs, hcs]
      rfl
    · rw [if_neg hcs, Option.getD_some]

/-- A text with a character has a line. -/
theorem lines_ne_nil {cs : List Char} (h : cs ≠ []) : lines cs ≠ [] := by
  intro hlines
  have hhead := lines_head? cs
  rw [hlines, if_neg h] at hhead
  cases hhead

/-- No line has a line feed. -/
theorem newline_notMem_of_mem_lines {cs line : List Char} (h : line ∈ lines cs) :
    '\n' ∉ line := by
  induction cs using lineInduction generalizing line with
  | nil => cases h
  | ended cs ih | newline cs ih =>
    simp only [lines_ended, lines_newline, List.mem_cons] at h
    rcases h with rfl | h
    · exact List.not_mem_nil
    · exact ih h
  | within c cs hc hreturn ih =>
    rw [lines_within hc hreturn] at h
    -- the character joins the first line, or is the only one
    rcases hlines : lines cs with _ | ⟨first, others⟩
    · rw [hlines, onFirst, List.mem_singleton] at h
      simp [h, Ne.symm hc]
    · rw [hlines, onFirst, List.mem_cons] at h
      rw [hlines] at ih
      rcases h with rfl | h
      · rw [List.mem_cons, not_or]
        exact ⟨Ne.symm hc, ih List.mem_cons_self⟩
      · exact ih (List.mem_cons_of_mem _ h)

/-! ## Texts that leave no line open -/

/-- No line is left open at the end of a text: it is empty, or it ends in a line feed. -/
def EndsLines (cs : List Char) : Prop := cs = [] ∨ ∃ front, cs = front ++ ['\n']

/-- What stands behind a line feed does not change the lines before it. -/
theorem lines_append_newline (front cs : List Char) :
    lines (front ++ '\n' :: cs) = lines (front ++ ['\n']) ++ lines cs := by
  induction front using lineInduction with
  | nil => simp
  | ended front ih | newline front ih => simp [ih]
  | within c front hc hreturn ih =>
    by_cases hend : c = '\r' ∧ front = []
    · obtain ⟨rfl, rfl⟩ := hend
      simp
    · -- only a return directly before the line feed would end its line together with it
      have hopen : ∀ cs, ¬ IsReturn c (front ++ '\n' :: cs) := by
        intro cs hboth
        rcases isReturn_append_iff.mp hboth with hfront | ⟨hempty, hreturned, -⟩
        · exact hreturn hfront
        · exact hend ⟨hreturned, hempty⟩
      have hne : lines (front ++ ['\n']) ≠ [] := lines_ne_nil (by simp)
      rw [List.cons_append, List.cons_append, lines_within hc (hopen cs), ih,
        lines_within hc (hopen []), onFirst_append hne]

/-- Behind a text that leaves no line open, new lines begin. -/
theorem EndsLines.lines_append {done : List Char} (h : EndsLines done) (cs : List Char) :
    lines (done ++ cs) = lines done ++ lines cs := by
  rcases h with rfl | ⟨front, rfl⟩
  · rfl
  · rw [List.append_assoc, List.singleton_append, lines_append_newline]

/-- A stretch within a line makes one line when a line feed ends it. -/
theorem length_lines_of_stretch {front : List Char} (hfront : '\n' ∉ front) :
    (lines (front ++ ['\n'])).length = 1 := by
  induction front with
  | nil => rfl
  | cons c front ih =>
    rw [List.mem_cons, not_or] at hfront
    rw [List.cons_append]
    -- a return in front of the line feed is no character of the line
    by_cases hreturn : IsReturn c (front ++ ['\n'])
    · rcases isReturn_append_iff.mp hreturn with hwithin | ⟨rfl, rfl, -⟩
      · exact absurd hwithin (not_isReturn_of_notMem hfront.2)
      · rfl
    · have hone := ih hfront.2
      rw [lines_within (Ne.symm hfront.1) hreturn]
      rcases hlines : lines (front ++ ['\n']) with _ | ⟨first, others⟩
      · rw [hlines] at hone
        cases hone
      · rw [hlines] at hone
        exact hone

/-! ## Strings -/

/-- The first line of a string is what stands before its first line end, empty if nothing does. -/
theorem toList_firstLine (s : String) : (firstLine s).toList = untilLineEnd s.toList := by
  have hhead := lines_head? s.toList
  rw [firstLine, linesOf, List.headD_eq_head?_getD, List.head?_map, hhead]
  by_cases hempty : s.toList = []
  · rw [if_pos hempty, hempty]
    rfl
  · rw [if_neg hempty]
    exact String.toList_ofList

/-- Texts without a line feed have none together. -/
theorem newline_notMem_append {a b : String} (ha : '\n' ∉ a.toList) (hb : '\n' ∉ b.toList) :
    '\n' ∉ (a ++ b).toList := by
  rw [String.toList_append, List.mem_append, not_or]
  exact ⟨ha, hb⟩

/-- A number is written on one line. -/
theorem newline_notMem_toString (n : Nat) : '\n' ∉ (toString n).toList := by
  intro hmem
  change '\n' ∈ n.repr.toList at hmem
  rw [Nat.toList_repr] at hmem
  have hdigit := Nat.isDigit_of_mem_toDigits (by decide) (by decide) hmem
  exact absurd hdigit (by decide)

end EventSheet.Text
