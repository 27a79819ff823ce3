import EventSheet.Proofs.Text.Position
import EventSheet.Report

/-!
The carets under a shown line.

A report counts the carets by cutting the span out of the whole expression, and bounds them by what
is left of the shown line; nothing there says which columns they mark. `Span.Holds` says it: the span
holds the character at a place. What the span holds on the line that it starts in is a stretch from
its start on (`holds_iff_stretch`), and the columns of that stretch which the shown line has are just
as many as were counted (`column_iff_of_stretch`). A line end that the span runs over has characters
but no columns, so the bound is not idle.
-/

set_option autoImplicit false

namespace EventSheet

open Text (Cut IsBoundary Position byteLength lines untilLineEnd)

/-! ## Spans in a text -/

/-- A span can be cut out of a text: it runs forwards, and neither its start nor its end cuts a
character. An end past that of the text counts as the end of the text. -/
structure Span.Cuts (span : Span) (source : List Char) : Prop where
  /-- It runs forwards. -/
  forwards : span.start ≤ span.stop
  /-- It starts within the text, and between two characters. -/
  start : IsBoundary source span.start.toNat
  /-- It ends between two characters. -/
  stop : IsBoundary source (min span.stop.toNat (byteLength source))

/-- A span holds the character that stands at a place of a text. -/
def Span.Holds (span : Span) (source : List Char) (p : Position) : Prop :=
  ∃ offset before c rest, Cut source offset before (c :: rest) ∧ Position.at source offset = p
    ∧ span.start.toNat ≤ offset ∧ offset < span.stop.toNat

/-- A span that can be cut out is a part of the text. -/
theorem Span.Cuts.exists_part {span : Span} {source : List Char} (h : span.Cuts source) :
    ∃ before part rest, Cut source span.start.toNat before (part ++ rest)
      ∧ Cut source (min span.stop.toNat (byteLength source)) (before ++ part) rest := by
  obtain ⟨before, back, hstart⟩ := h.start
  obtain ⟨front, rest, hstop⟩ := h.stop
  have hforwards : span.start.toNat ≤ span.stop.toNat := UInt64.le_iff_toNat_le.mp h.forwards
  have hle := hstart.le
  obtain ⟨part, rfl, rfl⟩ := hstart.exists_between hstop (by omega)
  exact ⟨before, part, rest, hstart, hstop⟩

/-- On the line that it starts in, a span holds the characters of its part up to the first line
feed, the line feed included. -/
theorem Span.holds_iff_stretch {span : Span} {source before part rest : List Char}
    (hstart : Cut source span.start.toNat before (part ++ rest))
    (hstop : Cut source (min span.stop.toNat (byteLength source)) (before ++ part) rest)
    (column : Nat) :
    span.Holds source ⟨(Position.behind before).line, column⟩ ↔
      ∃ stretch c back, part = stretch ++ c :: back ∧ '\n' ∉ stretch
        ∧ column = (Position.behind before).column + stretch.length := by
  constructor
  · rintro ⟨offset, front, c, after, hcut, hplace, hle, hlt⟩
    obtain ⟨stretch, rfl, hback⟩ := hstart.exists_between hcut hle
    rw [Position.at_of_cut hcut] at hplace
    -- a line feed on the way would make it a later line
    have hstretch : '\n' ∉ stretch := by
      intro hmem
      have hlater := Position.line_lt_of_newline_mem before hmem
      rw [hplace] at hlater
      exact Nat.lt_irrefl _ hlater
    -- the character ends within the span's part: it is a whole one in front of the span's end
    have htotal := congrArg byteLength hcut.parts
    rw [Text.byteLength_append, hcut.length, byteLength] at htotal
    have hc := c.utf8Size_pos
    have hwithin : offset ≤ min span.stop.toNat (byteLength source) := by omega
    obtain ⟨between, hpart, hafter⟩ := hcut.exists_between hstop hwithin
    rw [List.append_assoc] at hpart
    have hpart := List.append_cancel_left hpart
    cases between with
    | nil =>
      -- then the span would end in front of the character that it holds
      rw [List.append_nil] at hpart
      have hlength := hstop.length
      rw [hpart, hcut.length] at hlength
      omega
    | cons d back =>
      rw [List.cons_append, List.cons.injEq] at hafter
      refine ⟨stretch, d, back, hpart, hstretch, ?_⟩
      rw [Position.behind_append_stretch before hstretch] at hplace
      exact (congrArg Position.column hplace).symm
  · rintro ⟨stretch, c, back, rfl, hstretch, rfl⟩
    have hcut : Cut source (byteLength (before ++ stretch)) (before ++ stretch)
        (c :: (back ++ rest)) := by
      refine ⟨?_, rfl⟩
      rw [hstart.parts]
      simp
    refine ⟨_, _, c, _, hcut, ?_, ?_, ?_⟩
    · rw [Position.at_of_cut hcut, Position.behind_append_stretch before hstretch]
    · rw [Text.byteLength_append, hstart.length]
      omega
    · have hc := c.utf8Size_pos
      have hlength := hstop.length
      rw [← List.append_assoc, Text.byteLength_append, byteLength] at hlength
      omega

/-! ## Columns of the shown line -/

namespace Report

/-- A part of the span has a character at an index before its first line feed exactly if it has one
there that is none, behind a stretch without any. -/
theorem lt_length_takeWhile_iff {part : List Char} {j : Nat} :
    j < (part.takeWhile (· ≠ '\n')).length ↔
      ∃ stretch c back, part = stretch ++ c :: back ∧ stretch.length = j ∧ '\n' ∉ stretch
        ∧ c ≠ '\n' := by
  constructor
  · intro hlt
    let first := part.takeWhile (· ≠ '\n')
    have hfirst : '\n' ∉ first := Text.newline_notMem_takeWhile part
    have hsplit : first = first.take j ++ first[j] :: first.drop (j + 1) := by
      rw [List.getElem_cons_drop, List.take_append_drop]
    refine ⟨first.take j, first[j], first.drop (j + 1) ++ part.dropWhile (· ≠ '\n'), ?_, ?_, ?_, ?_⟩
    · rw [← List.cons_append, ← List.append_assoc, ← hsplit, List.takeWhile_append_dropWhile]
    · exact List.length_take_of_le (Nat.le_of_lt hlt)
    · exact fun hmem => hfirst (List.mem_of_mem_take hmem)
    · exact ne_of_mem_of_not_mem (List.getElem_mem hlt) hfirst
  · rintro ⟨stretch, c, back, rfl, rfl, hstretch, hc⟩
    have hall : ∀ d ∈ stretch, decide (d ≠ '\n') = true := fun d hd =>
      decide_eq_true (ne_of_mem_of_not_mem hd hstretch)
    rw [List.takeWhile_append_of_pos hall, List.takeWhile_cons_of_pos (by simpa using hc),
      List.length_append, List.length_cons]
    omega

/-- The columns of the shown line at which a stretch of the span stands: as many from its start on
as it has characters in front of its line feed, but no more than are left of the line. -/
theorem column_iff_of_stretch {sofar part rest : List Char} (hsofar : '\n' ∉ sofar) (column : Nat) :
    let line := untilLineEnd (sofar ++ (part ++ rest))
    let covered := (part.takeWhile (· ≠ '\n')).length
    (column ≤ line.length ∧ ∃ stretch c back, part = stretch ++ c :: back ∧ '\n' ∉ stretch
        ∧ column = sofar.length + 1 + stretch.length)
      ↔ sofar.length + 1 ≤ column
        ∧ column < sofar.length + 1 + min covered (line.length - sofar.length) := by
  intro line covered
  constructor
  · rintro ⟨hcolumn, stretch, c, back, rfl, hstretch, rfl⟩
    -- the line feed itself has no column on the line
    have hc : c ≠ '\n' := by
      rintro rfl
      have hboth : '\n' ∉ sofar ++ stretch := by
        rw [List.mem_append, not_or]
        exact ⟨hsofar, hstretch⟩
      have hle := Text.length_untilLineEnd_le hboth (back ++ rest)
      have hline : line = untilLineEnd ((sofar ++ stretch) ++ '\n' :: (back ++ rest)) := by
        simp [line]
      rw [← hline, List.length_append] at hle
      omega
    have hcovered : stretch.length < covered :=
      lt_length_takeWhile_iff.mpr ⟨stretch, c, back, rfl, rfl, hstretch, hc⟩
    omega
  · rintro ⟨hge, hlt⟩
    have hcovered : column - (sofar.length + 1) < covered := by omega
    obtain ⟨stretch, c, back, hpart, hlength, hstretch, -⟩ := lt_length_takeWhile_iff.mp hcovered
    exact ⟨by omega, stretch, c, back, hpart, hstretch, by omega⟩

/-! ## The number of carets -/

/-- What carets tell of a span that starts at a place of a line. -/
structure CaretsTell (source : List Char) (span : Span) (p : Position) (line : List Char)
    (carets : Nat) : Prop where
  /-- There is a caret. -/
  pos : 1 ≤ carets
  /-- Only a single caret may stand behind the line. -/
  within : carets = 1 ∨ p.column - 1 + carets ≤ line.length
  /-- If the span can be cut out, there is a caret for every column of the line that it covers, and
  these are so many columns from the place on. -/
  covering : span.Cuts source → ∃ covered, carets = max 1 covered
    ∧ ∀ column, column ≤ line.length ∧ span.Holds source ⟨p.line, column⟩
      ↔ p.column ≤ column ∧ column < p.column + covered
  /-- If the span is reversed, starts past the end or cuts a character, there is one caret. -/
  single : ¬ span.Cuts source → carets = 1

/-- Nothing is cut out along a span that cannot be. -/
theorem slice?_eq_none_of_not_cuts {source : List Char} {span : Span} (h : ¬ span.Cuts source) :
    Text.slice? source span.start.toNat (min span.stop.toNat (byteLength source)) = none := by
  rcases hslice : Text.slice? source span.start.toNat (min span.stop.toNat (byteLength source))
    with _ | part
  · rfl
  · obtain ⟨before, rest, hstart, hstop⟩ := Text.slice?_eq_some_iff.mp hslice
    have hlength := hstop.length
    rw [Text.byteLength_append, hstart.length] at hlength
    have hforwards : span.start ≤ span.stop := UInt64.le_iff_toNat_le.mpr (by omega)
    exact absurd ⟨hforwards, ⟨_, _, hstart⟩, ⟨_, _, hstop⟩⟩ h

/-- Under a span that cannot be cut out there is one caret. -/
theorem caretCount_of_not_cuts {source : List Char} {span : Span} (h : ¬ span.Cuts source)
    (column lineLength : Nat) : caretCount source span column lineLength = 1 := by
  rw [caretCount, slice?_eq_none_of_not_cuts h]
  simp

/-- The carets under the line of a span mark what the span covers of the line. -/
theorem caretsTell_caretCount {source line : List Char} {span : Span} {p : Position}
    (hp : Position.at source span.start.toNat = p) (hline : (lines source)[p.line - 1]? = some line) :
    CaretsTell source span p line (caretCount source span p.column line.length) where
  pos := by
    rw [caretCount]
    omega
  within := by
    rw [caretCount]
    omega
  covering := by
    intro hcuts
    obtain ⟨before, part, rest, hstart, hstop⟩ := hcuts.exists_part
    obtain ⟨done, sofar, rfl, hdone, hsofar, hbehind⟩ := Text.exists_lineStart before
    have hplace : p = ⟨(lines done).length + 1, sofar.length + 1⟩ := by
      rw [← hp, Position.at_of_cut hstart, hbehind]
    -- the line that was looked up is the one in which the span starts
    have hshown : line = untilLineEnd (sofar ++ (part ++ rest)) := by
      have hget := Text.getElem?_lines_of_start hdone sofar (part ++ rest)
      rw [← hstart.parts] at hget
      rw [hplace] at hline
      change (lines source)[(lines done).length]? = some line at hline
      rw [hline] at hget
      split at hget
      · cases hget
      · exact Option.some.inj hget
    have hslice := Text.slice?_eq_some_iff.mpr ⟨_, rest, hstart, hstop⟩
    refine ⟨min (part.takeWhile (· ≠ '\n')).length (line.length - (p.column - 1)), ?_, ?_⟩
    · rw [caretCount, hslice]
    · intro column
      have hholds := Span.holds_iff_stretch hstart hstop column
      rw [hbehind] at hholds
      rw [hplace, hholds, hshown]
      exact column_iff_of_stretch hsofar column
  single := fun hcuts => caretCount_of_not_cuts hcuts _ _

/-! ## The shown line in a report -/

/-- The column of an output that is written next. -/
def nextColumn (output : String) : Nat := (Position.behind output.toList).column

/-- Behind a line break columns count from one. -/
theorem nextColumn_line (output : String) {row : String} (hrow : '\n' ∉ row.toList) :
    nextColumn (output ++ "\n" ++ row) = row.length + 1 := by
  have hbreak : (Position.behind (output ++ "\n").toList).column = 1 := by
    rw [String.toList_append]
    exact congrArg Position.column (Position.behind_concat output.toList '\n')
  rw [nextColumn, String.toList_append, Position.behind_append_stretch _ hrow]
  change (Position.behind (output ++ "\n").toList).column + row.toList.length = _
  rw [hbreak, String.length_toList]
  omega

theorem length_copies (n : Nat) (c : Char) : (copies n c).length = n := by
  rw [copies, String.length_ofList, List.length_replicate]

theorem eq_of_mem_copies {n : Nat} {c d : Char} (h : d ∈ (copies n c).toList) : d = c := by
  rw [copies, String.toList_ofList] at h
  exact List.eq_of_mem_replicate h

/-- A report has the long form of each of its diagnostics. -/
theorem exists_render_eq (source : String) {diagnostics : List Diagnostic} {d : Diagnostic}
    (hd : d ∈ diagnostics) :
    ∃ above below, render source diagnostics = above ++ renderOne source.toList d ++ below := by
  obtain ⟨front, back, rfl⟩ := List.append_of_mem hd
  let one := fun d => renderOne source.toList d ++ "\n"
  let count := (front ++ d :: back).length
  let plural := if count = 1 then "" else "s"
  let total := s!"error: aborting due to {count} previous error{plural}\n"
  have hrender : render source (front ++ d :: back)
      = String.join ((front ++ d :: back).map one) ++ total := by
    have hsome : (front ++ d :: back).isEmpty = false := by simp
    rw [render, hsome]
    rfl
  have hsplit : String.join ((front ++ d :: back).map one)
      = String.join (front.map one) ++ renderOne source.toList d
        ++ ("\n" ++ String.join (back.map one)) := by
    rw [List.map_append, List.map_cons, String.join_append, String.join_cons]
    simp only [one, String.append_assoc]
  refine ⟨String.join (front.map one), "\n" ++ String.join (back.map one) ++ total, ?_⟩
  rw [hrender, hsplit, String.append_assoc]

/-- A shown line stands behind a gutter with its number. The line of carets has a gutter of the same
width, and then blanks up to the column of the place. -/
theorem exists_excerpt_eq {source line : List Char} {d : Diagnostic}
    (hline : (lines source)[(place source d).line - 1]? = some line) :
    let p := place source d
    ∃ front gutter blank, excerpt source d = front ++ "\n" ++ gutter ++ String.ofList line ++ "\n"
        ++ blank ++ copies (caretCount source d.span p.column line.length) '^' ++ "\n"
      ∧ '\n' ∉ gutter.toList ∧ '\n' ∉ blank.toList ∧ '^' ∉ blank.toList
      ∧ blank.length = gutter.length + (p.column - 1) := by
  intro p
  let number := toString p.line
  let margin := copies number.length ' '
  refine ⟨margin ++ " |", number ++ " | ", margin ++ " | " ++ copies (p.column - 1) ' ', ?_, ?_, ?_,
    ?_, ?_⟩
  · unfold excerpt
    dsimp only
    rw [hline]
    simp [margin, number, p, toString, String.append_assoc]
  · exact Text.newline_notMem_append (Text.newline_notMem_toString p.line) (by decide)
  · refine Text.newline_notMem_append (Text.newline_notMem_append ?_ (by decide)) ?_
    · intro hmem
      exact absurd (eq_of_mem_copies hmem) (by decide)
    · intro hmem
      exact absurd (eq_of_mem_copies hmem) (by decide)
  · intro hmem
    simp only [String.toList_append, List.mem_append] at hmem
    rcases hmem with (hmem | hmem) | hmem
    · exact absurd (eq_of_mem_copies hmem) (by decide)
    · exact absurd hmem (by decide)
    · exact absurd (eq_of_mem_copies hmem) (by decide)
  · simp only [String.length_append, margin, length_copies]

/-- **The carets under a shown line mark what the span covers of it.** A report gives the place of
each of its diagnostics, and then shows the line of that place, if the expression has it. Of the line
of carets below, the first caret stands in the column of the output in which the place's column of
the shown line stands, and the number of carets is told by the span. -/
theorem render_carets (source : String) {diagnostics : List Diagnostic} {d : Diagnostic}
    (hd : d ∈ diagnostics) :
    let text := source.toList
    let p := place text d
    let told := s!" --> expression:{p.line}:{p.column}\n"
    ∃ above below, render source diagnostics = above ++ told ++ excerpt text d ++ below
      ∧ ((lines text)[p.line - 1]? = none ∧ excerpt text d = ""
        ∨ ∃ line front blank carets, (lines text)[p.line - 1]? = some line
          ∧ excerpt text d
            = front ++ String.ofList line ++ "\n" ++ blank ++ copies carets '^' ++ "\n"
          ∧ '\n' ∉ line ∧ '\n' ∉ blank.toList ∧ '^' ∉ blank.toList
          ∧ nextColumn (above ++ told ++ front ++ String.ofList line ++ "\n" ++ blank)
            = nextColumn (above ++ told ++ front) + (p.column - 1)
          ∧ CaretsTell text d.span p line carets) := by
  intro text p told
  obtain ⟨before, after, hrender⟩ := exists_render_eq source hd
  let heading := s!"error[{d.code.short}]: {Text.firstLine d.message}\n"
  let notes := (Text.laterLines d.message).map fun line => s!"   = note: {line}\n"
  let helps := d.suggestions.map fun s => s!"   = help: {s.message} '{s.replacement}'\n"
  have hone : renderOne text d
      = heading ++ told ++ excerpt text d ++ String.join notes ++ String.join helps := rfl
  refine ⟨before ++ heading, String.join notes ++ String.join helps ++ after, ?_, ?_⟩
  · rw [hrender, hone]
    simp only [String.append_assoc]
  rcases hline : (lines text)[p.line - 1]? with _ | line
  · refine Or.inl ⟨rfl, ?_⟩
    unfold excerpt
    dsimp only
    rw [hline]
  · obtain ⟨front, gutter, blank, hexcerpt, hgutter, hblank, hcaret, hlength⟩ :=
      exists_excerpt_eq hline
    have hshown : '\n' ∉ line := Text.newline_notMem_of_mem_lines (List.mem_of_getElem? hline)
    refine Or.inr ⟨line, front ++ "\n" ++ gutter, blank, _, rfl, hexcerpt, hshown, hblank, hcaret, ?_,
      caretsTell_caretCount rfl hline⟩
    -- the shown line and the carets are on rows of their own, so only the gutters count
    have hrow : nextColumn (before ++ heading ++ told ++ (front ++ "\n" ++ gutter))
        = gutter.length + 1 := by
      have hbehind := nextColumn_line (before ++ heading ++ told ++ front) hgutter
      simpa only [String.append_assoc] using hbehind
    rw [nextColumn_line _ hblank, hrow, hlength]
    exact Nat.add_right_comm _ _ _

/-- An unknown call at the end of a line, with a span that runs over the line end. -/
def overLineEnd : Diagnostic := (Problem.unknownFunction "Foo" []).at ⟨5, 20⟩

/-- The call has six characters, and so many carets: the line end that the span covers as well has no
column. The character of two bytes in front of it has one column. -/
theorem render_carets_overLineEnd :
    let source := "é + Foo(1)\r\n"
    let told := " --> expression:1:5\n"
    ∃ above front blank below, render source [overLineEnd]
        = above ++ told ++ (front ++ "é + Foo(1)" ++ "\n" ++ blank ++ "^^^^^^" ++ "\n") ++ below
      ∧ nextColumn (above ++ told ++ front ++ "é + Foo(1)" ++ "\n" ++ blank)
        = nextColumn (above ++ told ++ front) + 4 := by
  intro source told
  have hplace : place source.toList overLineEnd = ⟨1, 5⟩ := by decide
  have hlines : (lines source.toList)[0]? = some "é + Foo(1)".toList := by decide
  have hcuts : overLineEnd.span.Cuts source.toList :=
    ⟨by decide, ⟨"é + ".toList, "Foo(1)\r\n".toList, by decide, by decide⟩,
      ⟨source.toList, [], by decide, by decide⟩⟩
  have hlast : overLineEnd.span.Holds source.toList ⟨1, 10⟩ :=
    ⟨10, "é + Foo(1".toList, ')', "\r\n".toList, ⟨by decide, by decide⟩, by decide, by decide,
      by decide⟩
  obtain ⟨above, below, hrender, hshown⟩ := render_carets source (List.mem_singleton_self overLineEnd)
  rw [hplace] at hrender hshown
  rcases hshown with ⟨hnone, -⟩ |
    ⟨line, front, blank, carets, hline, hexcerpt, -, -, -, hcolumn, htell⟩
  · exact absurd (hlines.symm.trans hnone) (Option.some_ne_none _)
  · obtain rfl := Option.some.inj (hlines.symm.trans hline)
    obtain ⟨covered, hcarets, hcolumns⟩ := htell.covering hcuts
    -- the last column that is covered is the tenth, of the closing bracket
    have hsix : carets = 6 := by
      have hten := (hcolumns 10).mp ⟨by decide, hlast⟩
      have heleven : ¬ (5 ≤ 11 ∧ 11 < 5 + covered) := fun h =>
        absurd ((hcolumns 11).mpr h).1 (by decide)
      dsimp only at hten
      omega
    rw [hexcerpt, hsix] at hrender
    exact ⟨above, front, blank, below, hrender, hcolumn⟩

end Report

end EventSheet
