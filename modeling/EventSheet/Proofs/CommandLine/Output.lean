import EventSheet.CommandLine.Run
import EventSheet.Proofs.Check.Refusal
import EventSheet.Proofs.Expr.Reader
import EventSheet.Proofs.Json.Printer

/-!
What a run writes in the JSON format.

Every result is one value, written in the indented form and read back as that value, and so is every
error, in the form on one line. A run writes one of the two and with that one document, apart from
one case: a check that finds something wrong has a result and then fails. It writes its outcome and
the error below it, and the two together are no document (`run_json_output`).
-/

set_option autoImplicit false

namespace EventSheet.CommandLine

open Json (depthLimit)

/-- A text is one JSON document and a line break. -/
def IsDocument (text : String) : Prop :=
  ∃ body value, text = body ++ "\n" ∧ Json.parse body = .ok value

/-- A run comes to check a tree, and the check has an outcome: everything that the command needs can
be read. -/
inductive Checks (s : Surroundings) (invocation : Invocation) : Outcome → Prop where
  | intro {treePath sourcePath tag scopePath r expected e source objects} :
      invocation.command = .validate treePath sourcePath tag scopePath →
      registry s (directory s invocation.catalog) = .ok r →
      ValueType.ofExpectedTag tag = .ok expected →
      tree s treePath = .ok e →
      sourceText s sourcePath = .ok source →
      scope s (directory s invocation.catalog) scopePath = .ok objects →
      Checks s invocation (validate r objects.toScope expected e)

/-! ## Results as values -/

section Values

variable {depth : Nat}

theorem fits_diagnosticJson (d : Diagnostic) : Json.Fits (depth + 2) (diagnosticJson d) :=
  .member (.str _) <| .member (.str _) <| .member (.str _) <| .member (.ofOffset _) <|
    .member (.ofOffset _) <| .member (.ofStrings _) .noMember

theorem fits_objectVariable (v : ObjectVariable) : Json.Fits (depth + 2) v.toJson :=
  have hspan : Json.Fits (depth + 1) v.span.toJson :=
    .member (.ofOffset _) <| .member (.ofOffset _) .noMember
  .member (.str _) <| .member (.str _) <| .member hspan .noMember

theorem fits_outcomeJson (o : Outcome) : Json.Fits (depth + 4) (outcomeJson o) := by
  apply Json.Fits.normalized
  exact .member (.bool _) <| .member (.str _) <| .member (.map fits_diagnosticJson _) <|
    .member (.map fits_objectVariable _) .noMember

/-- A function is an object with a list of parameters. -/
theorem fits_signature (f : Signature) : Json.Fits (depth + 3) f.toJson := by
  have hparameter : ∀ p : Parameter, Json.Fits (depth + 1) (p.toJson "type_tag") := fun p =>
    .member (.str _) <| .member (.str _) <| .member (.str _) <| .member (.bool _) <|
      .member (.bool _) .noMember
  have hcapability : Json.Fits (depth + 2) (.ofOption .str f.requiredCapability) := by
    rcases f.requiredCapability with _ | capability
    · exact .null
    · exact .str capability
  exact .member (.str _) <| .member (.str _) <| .member (.map hparameter _) <|
    .member hcapability <| .member (.str _) <| .member (.str _) .noMember

theorem fits_objectType (t : ObjectType) : Json.Fits (depth + 2) t.toJson :=
  .member (.ofStrings _) <| .member (.str _) <| .member (.bool _) <| .member (.str _) .noMember

end Values

/-! ## Documents -/

/-- An error as the JSON line that tells it. -/
theorem fits_error (e : String) : Json.Fits depthLimit (.obj [("error", .str e)]) :=
  .member (.str e) .noMember

variable {v w : Json}

/-- A value in the indented form is a document. -/
theorem isDocument_indented (h : Json.Fits depthLimit v) : IsDocument (v.indented ++ "\n") :=
  ⟨_, v, rfl, Json.parseWithin_of_reads (Json.reads_indented h)⟩

/-- A value on one line is a document. -/
theorem isDocument_compress (h : Json.Fits depthLimit v) : IsDocument (v.compress ++ "\n") :=
  ⟨_, v, rfl, Json.parseWithin_of_reads (Json.reads_compress h)⟩

/-- A value and another one below it are no single document. -/
theorem not_isDocument_lines (hv : Json.Fits depthLimit v) (hw : Json.Fits depthLimit w) :
    ¬ IsDocument (v.indented ++ "\n" ++ w.compress ++ "\n") := by
  rintro ⟨body, value, htext, hparse⟩
  obtain rfl := (String.append_left_inj "\n").mp htext
  rw [Json.parse, Json.parseWithin_lines (Json.reads_indented hv) (Json.reads_compress hw)]
    at hparse
  cases hparse

/-! ## Runs -/

variable {s : Surroundings} {invocation : Invocation} {outcome : Outcome}

/-- A check that has an outcome has a result, and fails if the outcome is not valid. The result goes
with the text of the expression, if the command names one. -/
theorem Checks.runCommand_eq (h : Checks s invocation outcome) :
    ∃ treePath sourcePath tag scopePath source,
      invocation.command = .validate treePath sourcePath tag scopePath
        ∧ sourceText s sourcePath = .ok source
        ∧ runCommand s invocation = .ok ⟨outcomeText invocation.format source outcome,
          if outcome.isValid then none else some "Validation failed"⟩ := by
  cases h with
  | @intro _ _ _ _ r expected e source objects hcommand hregistry hexpected htree hsource hscope =>
    refine ⟨_, _, _, _, source, hcommand, hsource, ?_⟩
    rw [runCommand, hregistry, hcommand]
    change runValidate _ _ _ _ _ _ _ _ = _
    rw [runValidate, hexpected, htree, hsource, hscope]
    rfl

/-- A command that has a result has checked a tree, or has listed something. -/
theorem runCommand_ok {result : Result} (hformat : invocation.format = .json)
    (h : runCommand s invocation = .ok result) :
    (∃ outcome, Checks s invocation outcome)
      ∨ ∃ v, Json.Fits depthLimit v ∧ result = ⟨v.indented ++ "\n", none⟩ := by
  obtain ⟨r, hregistry, h⟩ := bind_eq_ok_iff.mp h
  -- a check has an outcome; the two other commands list something
  cases hcommand : invocation.command with
  | validate treePath sourcePath tag scopePath =>
    rw [hcommand] at h
    obtain ⟨expected, hexpected, h⟩ := bind_eq_ok_iff.mp h
    obtain ⟨e, htree, h⟩ := bind_eq_ok_iff.mp h
    obtain ⟨source, hsource, h⟩ := bind_eq_ok_iff.mp h
    obtain ⟨objects, hscope, -⟩ := bind_eq_ok_iff.mp h
    rw [mapError_eq_ok_iff] at hexpected
    exact Or.inl ⟨_, .intro hcommand hregistry hexpected htree hsource hscope⟩
  | functions owner kind =>
    rw [hcommand, hformat] at h
    exact Or.inr ⟨_, .map fits_signature _, (Except.ok.inj h).symm⟩
  | objects =>
    rw [hcommand, hformat] at h
    exact Or.inr ⟨_, .map fits_objectType _, (Except.ok.inj h).symm⟩

/-- How a run ends that checks a tree: with the outcome, and with the failure below it if the
outcome is not valid. -/
theorem Checks.complete_eq (h : Checks s invocation outcome) (hformat : invocation.format = .json) :
    complete .json (Result.ofExcept (runCommand s invocation))
      = if outcome.isValid then ⟨0, (outcomeJson outcome).indented ++ "\n", ""⟩
        else ⟨1, (outcomeJson outcome).indented ++ "\n"
          ++ (Json.obj [("error", .str "Validation failed")]).compress ++ "\n", ""⟩ := by
  obtain ⟨-, -, -, -, source, -, -, hrun⟩ := h.runCommand_eq
  rw [hrun, hformat, Result.ofExcept, outcomeText]
  -- the result is written first, and the failure below it if there is one
  cases outcome.isValid <;> rfl

/-- What a run writes that checks no tree, or one that is valid. -/
theorem isDocument_complete (hformat : invocation.format = .json)
    (hvalid : ∀ outcome, Checks s invocation outcome → outcome.isValid = true) :
    IsDocument (complete .json (Result.ofExcept (runCommand s invocation))).output := by
  rcases hrun : runCommand s invocation with e | result
  · -- no result stands above the error
    change IsDocument ("" ++ _ ++ "\n")
    rw [String.empty_append]
    exact isDocument_compress (fits_error e)
  rcases runCommand_ok hformat hrun with ⟨outcome, hchecks⟩ | ⟨v, hfits, rfl⟩
  · rw [← hrun, hchecks.complete_eq hformat, if_pos (hvalid outcome hchecks)]
    exact isDocument_indented (fits_outcomeJson outcome)
  · exact isDocument_indented hfits

/-- A run in the JSON format writes what its command comes to. -/
theorem run_eq_complete {arguments : List String}
    (hrequest : parse s.environment.catalogDirectory arguments = .run invocation)
    (hformat : invocation.format = .json) :
    run s arguments = complete .json (Result.ofExcept (runCommand s invocation)) := by
  rw [run, hrequest, answer, hformat]

/-- **JSON output is one document, unless a check finds something wrong.** A run in the JSON format
writes one JSON document and a line break exactly if it does not come to check a tree that is not
valid. If it does, it writes two documents: the outcome, and below it the error that the check has
failed. -/
theorem run_json_output (s : Surroundings) (arguments : List String) {invocation : Invocation}
    (hrequest : parse s.environment.catalogDirectory arguments = .run invocation)
    (hformat : invocation.format = .json) :
    let completion := run s arguments
    (IsDocument completion.output
        ↔ ∀ outcome, Checks s invocation outcome → outcome.isValid = true)
      ∧ (∀ outcome, Checks s invocation outcome → outcome.isValid = true →
        completion.status = 0
          ∧ ∃ body, completion.output = body ++ "\n"
            ∧ Json.parse body = .ok (outcomeJson outcome))
      ∧ ∀ outcome, Checks s invocation outcome → outcome.isValid = false →
        completion.status = 1
          ∧ ∃ first second, completion.output = first ++ "\n" ++ second ++ "\n"
            ∧ Json.parse first = .ok (outcomeJson outcome)
            ∧ Json.parse second = .ok (.obj [("error", .str "Validation failed")]) := by
  intro completion
  have hrun : completion = _ := run_eq_complete hrequest hformat
  refine ⟨⟨fun hdocument outcome hchecks => ?_, fun hvalid => ?_⟩, fun outcome hchecks hvalid => ?_,
    fun outcome hchecks hvalid => ?_⟩
  · -- a tree that is not valid would make two documents
    rw [← Bool.not_eq_false]
    intro hinvalid
    rw [hrun, hchecks.complete_eq hformat, if_neg (by simp [hinvalid])] at hdocument
    exact not_isDocument_lines (fits_outcomeJson outcome) (fits_error _) hdocument
  · rw [hrun]
    exact isDocument_complete hformat hvalid
  · rw [hrun, hchecks.complete_eq hformat, if_pos hvalid]
    exact ⟨rfl, _, rfl, Json.parseWithin_of_reads (Json.reads_indented (fits_outcomeJson outcome))⟩
  · rw [hrun, hchecks.complete_eq hformat, if_neg (by simp [hvalid])]
    exact ⟨rfl, _, _, rfl,
      Json.parseWithin_of_reads (Json.reads_indented (fits_outcomeJson outcome)),
      Json.parseWithin_of_reads (Json.reads_compress (fits_error _))⟩

/-! ### A call of an unknown function -/

/-- A catalog without functions, and on standard input a call of one. -/
def Surroundings.withCall : Surroundings :=
  let catalog : FileTree := .folder [("catalog.yaml", .file (.ok "platform: game\n"))]
  let call := "\x7b\"kind\":\"function_call\",\"function_name\":\"Foo\","
    ++ "\"span\":\x7b\"start\":0,\"end\":5\x7d\x7d"
  ⟨⟨none, none⟩, ⟨.folder [("config", catalog)], []⟩, .piped (.ok call)⟩

/-- The catalog makes a registry that does not know the function. -/
theorem Surroundings.registry_withCall :
    ∃ r, registry .withCall "config" = .ok r ∧ r.lookup .expression .global "Foo" = none := by
  have hlookup : (registry .withCall "config").toOption.map
      (fun r => r.lookup .expression .global "Foo") = some none := by decide +kernel
  obtain ⟨r, hr, hnone⟩ := Option.map_eq_some_iff.mp hlookup
  exact ⟨r, Expr.ok_of_toOption hr, hnone⟩

/-- What stands on standard input is read as the call. -/
theorem Surroundings.tree_withCall :
    tree .withCall none = .ok (.call (.free "Foo" ⟨0, 5⟩) []) := by
  -- the text is evaluated as a JSON value only, and that is one of the written forms of the call
  have hwritten : Expr.Written (.call (.free "Foo" ⟨0, 5⟩) []) (.obj
      [("kind", .str "function_call"), ("function_name", .str "Foo"),
        ("span", (Span.mk 0 5).toJson)]) :=
    .call rfl (.inr ⟨rfl, rfl⟩) (.inr ⟨rfl, rfl⟩) rfl (.inr ⟨rfl, rfl⟩) .nil rfl
      (Span.written_toJson ⟨0, 5⟩) (.inr ⟨rfl, rfl⟩) (Span.written_toJson .origin)
  rw [tree, withCall]
  dsimp only
  rw [Expr.ofText, hwritten.parse_eq (Expr.ok_of_toOption (by decide +kernel))]
  rfl

/-- A check of the tree on standard input. -/
def checkArguments : List String := ["--catalog", "config", "validate", "--format", "json"]

/-- The arguments ask for a check. -/
theorem parse_checkArguments :
    parse none checkArguments
      = .run ⟨some "config", .json, .validate none none "unknown" none⟩ := by decide +kernel

/-- The check comes to an outcome, which is not valid. -/
theorem Surroundings.withCall_checks :
    ∃ outcome, Checks .withCall ⟨some "config", .json, .validate none none "unknown" none⟩ outcome
      ∧ outcome.isValid = false := by
  obtain ⟨r, hregistry, hnone⟩ := registry_withCall
  have hscope : scope .withCall "config" none = .ok .empty := by
    rw [scope, if_neg (by decide +kernel)]
  refine ⟨_, .intro rfl hregistry rfl tree_withCall rfl hscope, ?_⟩
  have hunknown : Check.resolve (Check.setting r ProjectScope.empty.toScope)
      (.free "Foo" ⟨0, 5⟩) = none := hnone
  have hrefused : Refused r ProjectScope.empty.toScope (.free "Foo" ⟨0, 5⟩) 0 :=
    .unknown (Check.resolve_eq_none_iff.mp hunknown)
  rw [validate_call_of_refused hrefused, Check.checkCall_of_unknown hunknown]
  rfl

/-- A list of functions is one document, even if there are none. The check of the call fails. -/
theorem run_json_output_withCall :
    IsDocument (run .withCall ["--catalog", "config", "functions", "-o", "json"]).output
      ∧ (run .withCall checkArguments).status = 1
      ∧ ∃ first second, (run .withCall checkArguments).output = first ++ "\n" ++ second ++ "\n"
        ∧ Json.parse second = .ok (.obj [("error", .str "Validation failed")]) := by
  have hrequest : parse none ["--catalog", "config", "functions", "-o", "json"]
      = .run ⟨some "config", .json, .functions .global .expression⟩ := by decide +kernel
  constructor
  · apply (run_json_output .withCall _ hrequest rfl).1.mpr
    intro outcome hchecks
    cases hchecks with
    | intro hcommand => cases hcommand
  · obtain ⟨outcome, hchecks, hvalid⟩ := Surroundings.withCall_checks
    obtain ⟨hstatus, first, second, houtput, -, hsecond⟩ :=
      (run_json_output .withCall _ parse_checkArguments rfl).2.2 outcome hchecks hvalid
    exact ⟨hstatus, first, second, houtput, hsecond⟩

/-- The call is reported, and then the failure: the output is no document. -/
theorem run_checkArguments_not_isDocument :
    ¬ IsDocument (run .withCall checkArguments).output := by
  obtain ⟨outcome, hchecks, hvalid⟩ := Surroundings.withCall_checks
  rw [run_eq_complete parse_checkArguments rfl, hchecks.complete_eq rfl, if_neg (by simp [hvalid])]
  exact not_isDocument_lines (fits_outcomeJson outcome) (fits_error _)

end EventSheet.CommandLine
