import EventSheet.Proofs.CommandLine.Output
import EventSheet.Proofs.Text.Lines

/-!
Reports with one line for each diagnostic.

A message may have several lines, and it repeats names and tags that come from elsewhere, so any
part of it may break a line. The two reports that are read line by line show its first line only, and
everything else that they write is free of line breaks. So splitting such a report gives its
diagnostics back, one by one (`one_line_each`).
-/

set_option autoImplicit false

namespace EventSheet.CommandLine

open Text (untilLineEnd newline_notMem_append)

/-- The line that tells of a diagnostic at a place: the first line of its message, and its code. -/
def tellingLine (whereabouts : String) (d : Diagnostic) : List Char :=
  whereabouts.toList ++ ":error: ".toList ++ untilLineEnd d.message.toList
    ++ s!" [{d.code.short}]".toList

/-! ## No part of the line breaks it -/

theorem newline_notMem_short (c : Code) : '\n' ∉ c.short.toList := by
  cases c with
  | returnTypeMismatch mismatch => cases mismatch <;> decide
  | _ => decide

theorem newline_notMem_span (span : Span) : '\n' ∉ (toString span).toList :=
  newline_notMem_append
    (newline_notMem_append (Text.newline_notMem_toString span.start.toNat) (by decide))
    (Text.newline_notMem_toString span.stop.toNat)

theorem newline_notMem_place (p : Text.Position) : '\n' ∉ s!"{p.line}:{p.column}".toList :=
  newline_notMem_append (newline_notMem_append (Text.newline_notMem_toString p.line) (by decide))
    (Text.newline_notMem_toString p.column)

/-- The line breaks nowhere if what says where does not. -/
theorem newline_notMem_tellingLine {whereabouts : String} (h : '\n' ∉ whereabouts.toList)
    (d : Diagnostic) : '\n' ∉ tellingLine whereabouts d := by
  have hcode : '\n' ∉ s!" [{d.code.short}]".toList :=
    newline_notMem_append (newline_notMem_append (by decide) (newline_notMem_short d.code))
      (by decide)
  have herror : '\n' ∉ ":error: ".toList := by decide
  simp only [tellingLine, List.mem_append, not_or]
  exact ⟨⟨⟨h, herror⟩, Text.newline_notMem_untilLineEnd _⟩, hcode⟩

/-! ## The written lines -/

/-- The compact report of a diagnostic says its place. -/
theorem toList_compactOne (source : List Char) (d : Diagnostic) :
    let p := Report.place source d
    (Report.compactOne source d).toList = tellingLine s!"{p.line}:{p.column}" d := by
  intro p
  simp [Report.compactOne, tellingLine, p, toString, Text.toList_firstLine]

/-- Without the text there are no places, and the span is said. -/
theorem toList_plainLine (d : Diagnostic) :
    (plainLine d).toList = tellingLine (toString d.span) d ++ ['\n'] := by
  simp [plainLine, tellingLine, toString, Text.toList_firstLine]

/-- Lines that are ended one by one are the parts between the line ends, and behind the last end
stands nothing. -/
theorem splitOn_ended {parts : List (List Char)} (h : ∀ part ∈ parts, '\n' ∉ part) :
    (parts.flatMap (· ++ ['\n'])).splitOn '\n' = parts ++ [[]] := by
  -- ended lines are lines with breaks between them, where an empty one is the last
  have hjoin : parts.flatMap (· ++ ['\n']) = ['\n'].intercalate (parts ++ [[]]) := by
    induction parts with
    | nil => rfl
    | cons part parts ih =>
      have hrest := ih fun p hp => h p (List.mem_cons_of_mem part hp)
      cases parts with
      | nil => simp [List.intercalate]
      | cons next parts =>
        rw [List.flatMap_cons, hrest]
        simp [List.intercalate]
  rw [hjoin]
  apply List.splitOn_intercalate
  · intro part hpart
    rcases List.mem_append.mp hpart with hpart | hpart
    · exact h part hpart
    · rw [List.mem_singleton.mp hpart]
      exact List.not_mem_nil
  · simp

/-! ## The two reports -/

/-- The compact report is the lines with breaks between them. -/
theorem splitOn_compact (source : String) {diagnostics : List Diagnostic} (h : diagnostics ≠ []) :
    (Report.compact source diagnostics).toList.splitOn '\n'
      = diagnostics.map fun d =>
          let p := Report.place source.toList d
          tellingLine s!"{p.line}:{p.column}" d := by
  have hlines : (diagnostics.map (Report.compactOne source.toList)).map String.toList
      = diagnostics.map fun d =>
          let p := Report.place source.toList d
          tellingLine s!"{p.line}:{p.column}" d := by
    rw [List.map_map]
    exact List.map_congr_left fun d _ => toList_compactOne source.toList d
  have hbreak : "\n".toList = ['\n'] := rfl
  rw [Report.compact, String.toList_intercalate, hlines, hbreak]
  apply List.splitOn_intercalate
  · intro part hpart
    obtain ⟨d, -, rfl⟩ := List.mem_map.mp hpart
    exact newline_notMem_tellingLine (newline_notMem_place _) d
  · -- without diagnostics there would still be one part, the empty text
    rw [ne_eq, List.map_eq_nil_iff]
    exact h

/-- What is written of an outcome is the lines, each with a break behind it. -/
theorem splitOn_outcomeText (outcome : Outcome) :
    (outcomeText .text none outcome).toList.splitOn '\n'
      = outcome.diagnostics.map (fun d => tellingLine (toString d.span) d) ++ [[]] := by
  have hlines : (outcomeText .text none outcome).toList
      = (outcome.diagnostics.map fun d => tellingLine (toString d.span) d).flatMap (· ++ ['\n']) := by
    rw [outcomeText, String.toList_join, List.flatMap_map, List.flatMap_map]
    exact List.flatMap_congr fun d _ => toList_plainLine d
  rw [hlines]
  apply splitOn_ended
  intro part hpart
  obtain ⟨d, -, rfl⟩ := List.mem_map.mp hpart
  exact newline_notMem_tellingLine (newline_notMem_span d.span) d

/-! ## Runs in the text format -/

variable {s : Surroundings} {invocation : Invocation} {outcome : Outcome}

/-- A check without the text of the expression writes its outcome, and an error elsewhere. -/
theorem Checks.output_eq (h : Checks s invocation outcome) (hformat : invocation.format = .text)
    {treePath scopePath : Option String} {tag : String}
    (hcommand : invocation.command = .validate treePath none tag scopePath) :
    (complete .text (Result.ofExcept (runCommand s invocation))).output
      = outcomeText .text none outcome := by
  obtain ⟨_, sourcePath, _, _, source, hvalidate, hsource, hrun⟩ := h.runCommand_eq
  rw [hcommand, Command.validate.injEq] at hvalidate
  obtain ⟨-, rfl, -, -⟩ := hvalidate
  obtain rfl : none = source := Except.ok.inj hsource
  rw [hrun, hformat, Result.ofExcept]
  -- an invalid outcome ends in an error, which is not part of the output in this format
  cases outcome.isValid <;> rfl

/-- The format of a result does not matter to the check. -/
theorem Checks.withFormat (h : Checks s invocation outcome) (format : OutputFormat) :
    Checks s { invocation with format := format } outcome := by
  cases h with
  | intro hcommand hregistry hexpected htree hsource hscope =>
    exact .intro hcommand hregistry hexpected htree hsource hscope

/-- **One line for each diagnostic.** The compact report of some diagnostics splits at its line
breaks into as many parts, one for each: the line and the column where it starts, the first line of
its message and its code. What is written of an outcome in the text format, without the text of the
expression, is a line for each of its diagnostics, with its span instead, and each line ended; and
this is what a run writes that checks a tree so. -/
theorem one_line_each :
    (∀ source diagnostics, diagnostics ≠ [] →
      (Report.compact source diagnostics).toList.splitOn '\n'
        = diagnostics.map fun d =>
            let p := Report.place source.toList d
            tellingLine s!"{p.line}:{p.column}" d)
      ∧ (∀ outcome, (outcomeText .text none outcome).toList.splitOn '\n'
        = outcome.diagnostics.map (fun d => tellingLine (toString d.span) d) ++ [[]])
      ∧ ∀ s arguments invocation treePath tag scopePath outcome,
        parse s.environment.catalogDirectory arguments = .run invocation →
        invocation.format = .text →
        invocation.command = .validate treePath none tag scopePath →
        Checks s invocation outcome →
        (run s arguments).output = outcomeText .text none outcome := by
  refine ⟨fun source diagnostics h => splitOn_compact source h, splitOn_outcomeText, ?_⟩
  intro s arguments invocation treePath tag scopePath outcome hrequest hformat hcommand hchecks
  rw [run, hrequest, answer, hformat]
  exact hchecks.output_eq hformat hcommand

/-- A name that breaks a line is cut off there, in each of two diagnostics. The call of the unknown
function is checked in the text format as well. -/
theorem one_line_each_broken :
    let d := (Problem.unknownFunction "Foo\nBar" []).at ⟨3, 6⟩
    let line := "2:1:error: Cannot find an expression with this name: Foo [E010]".toList
    (Report.compact "é\nFoo()" [d, d]).toList.splitOn '\n' = [line, line]
      ∧ ∃ outcome, outcome.isValid = false
        ∧ (run .withCall ["--catalog", "config", "validate", "-o", "text"]).output
          = outcomeText .text none outcome := by
  intro d line
  obtain ⟨hcompact, -, hrun⟩ := one_line_each
  constructor
  · rw [hcompact "é\nFoo()" [d, d] (List.cons_ne_nil _ _)]
    decide +kernel
  · -- the run is known to check in another format, and the format does not matter to the check
    obtain ⟨outcome, hchecks, hvalid⟩ := Surroundings.withCall_checks
    have hrequest : parse none ["--catalog", "config", "validate", "-o", "text"]
        = .run ⟨some "config", .text, .validate none none "unknown" none⟩ := by decide +kernel
    exact ⟨outcome, hvalid,
      hrun .withCall _ _ none "unknown" none outcome hrequest rfl rfl (hchecks.withFormat .text)⟩

end EventSheet.CommandLine
