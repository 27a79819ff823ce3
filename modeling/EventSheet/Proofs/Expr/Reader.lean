import EventSheet.Expr.Reader
import EventSheet.Proofs.Expr.Json
import EventSheet.Proofs.Json.Printer
import EventSheet.Proofs.Json.Reader

/-!
Trees and their texts.

Reading a tree from a text judges the kind of the outermost node early, but reads every text of a
written form like the JSON reader (`readRootMembers_eq`). So the written forms of a tree are
also its texts. Encoding what was decoded is a normal form, and what is printed of it is read back
as long as the tree nests no deeper than the reader goes (`fits_toJson_iff`).
-/

set_option autoImplicit false

namespace EventSheet.Expr

open Json (Has Lacks skipBlank readMembers readValue)

variable {fuel depth : Nat} {first judged : Bool} {cs rest : List Char}
  {members : List (String × Json)}

theorem ok_of_toOption {ε α : Type} {x : Except ε α} {a : α} (h : x.toOption = some a) :
    x = .ok a := by
  cases x with
  | error e => cases h
  | ok b => exact congrArg _ (Option.some.inj h)

/-! ## Reading the outermost record -/

theorem onText_ok {α : Type} {x : Except Json.Stop α} {a : α} (h : x = .ok a) :
    onText x = .ok a := by
  rw [h]
  rfl

/-- A member of another name is read as the JSON reader reads it. -/
theorem readRootMembers_cons {name : String} {start : List Char} {behind : List Char}
    {value : Json × List Char} (hname : Json.readName first cs = .ok (some name, start))
    (hkind : name ≠ "kind") (hcolon : Json.readColon start = .ok behind)
    (hvalue : readValue fuel (Json.depthLimit - 1) behind = .ok value)
    (htail : readRootMembers fuel false judged value.2 = .ok (members, rest)) :
    readRootMembers (fuel + 1) first judged cs = .ok ((name, value.1) :: members, rest) := by
  rw [readRootMembers, onText_ok hname]
  refine bind_eq_ok_iff.mpr ⟨_, rfl, ?_⟩
  simp only [if_neg hkind]
  refine bind_eq_ok_iff.mpr ⟨behind, onText_ok hcolon, ?_⟩
  refine bind_eq_ok_iff.mpr ⟨value, onText_ok hvalue, ?_⟩
  exact bind_eq_ok_iff.mpr ⟨(members, rest), htail, rfl⟩

/-- A string that names a kind is read as one, whatever fuel and depth are left. -/
theorem readKind_eq {kind : String} (hisKind : isKind kind)
    (h : readValue fuel depth cs = .ok (.str kind, rest)) :
    readKind fuel cs = .ok (kind, rest) := by
  cases fuel with
  | zero =>
    rw [readValue] at h
    cases h
  | succ fuel =>
    -- the kind is read without depth to spare, which only a container would need
    obtain ⟨hbracket, hbrace⟩ := Json.readValue_str h
    have hstart : startsContainer cs = false := by
      rw [startsContainer]
      split
      case h_1 c behind hopen =>
        have hc : c ≠ '{' ∧ c ≠ '[' :=
          ⟨fun hc => hbrace behind (hc ▸ hopen), fun hc => hbracket behind (hc ▸ hopen)⟩
        simp [hc]
      case h_2 => rfl
    rw [readKind, hstart, Json.readValue_scalar hbracket hbrace fuel fuel 0 depth, h]
    exact if_pos hisKind

/-- Whether the members to be read hold the kind as the reader wants it: no more of it, or one kind if
none has been judged. -/
def KindsFit (judged : Bool) (members : List (String × Json)) : Prop :=
  Lacks members "kind"
    ∨ judged = false ∧ ∃ kind, isKind kind ∧ Has members "kind" (.str kind)

/-- Members whose kinds fit are read as the JSON reader reads them. -/
theorem readRootMembers_eq
    (h : readMembers fuel (Json.depthLimit - 1) first cs = .ok (members, rest))
    (hkinds : KindsFit judged members) :
    readRootMembers (fuel + 1) first judged cs = .ok (members, rest) := by
  induction fuel generalizing first judged cs members with
  | zero =>
    rw [readMembers] at h
    cases h
  | succ fuel ih =>
    obtain ⟨⟨_, start⟩, hname, ⟨rfl, hr⟩ | ⟨name, rfl, behind, hcolon, value, hvalue, tail, htail,
      hr⟩⟩ := Json.readMembers_ok_iff.mp h
    · cases hr
      rw [readRootMembers, onText_ok hname]
      rfl
    · cases hr
      -- no kind is left to read, or one is and none has been judged yet
      rcases hkinds with hlacks | ⟨rfl, kind, hisKind, hhas⟩
      · obtain ⟨hother, hlacks⟩ := Json.lacks_cons_iff.mp hlacks
        exact readRootMembers_cons hname hother hcolon (Json.readValue_succ hvalue)
          (ih htail (.inl hlacks))
      · rcases hhas.of_cons with ⟨hkind, hlacks⟩ | ⟨hother, hhas⟩
        · -- the kind itself: from here on it has been judged
          obtain ⟨value, later⟩ := value
          cases hkind
          rw [readRootMembers, onText_ok hname]
          refine bind_eq_ok_iff.mpr ⟨_, rfl, ?_⟩
          simp only [if_pos]
          refine bind_eq_ok_iff.mpr ⟨behind, onText_ok hcolon, ?_⟩
          refine bind_eq_ok_iff.mpr ⟨_, readKind_eq hisKind (Json.readValue_succ hvalue), ?_⟩
          exact bind_eq_ok_iff.mpr ⟨_, ih htail (.inl hlacks), rfl⟩
        · exact readRootMembers_cons hname hother hcolon (Json.readValue_succ hvalue)
            (ih htail (.inr ⟨rfl, kind, hisKind, hhas⟩))

/-! ## Whole texts -/

/-- The kind of a written form is one of the kinds. -/
theorem Written.exists_kind {e : Expr} (h : Written e (.obj members)) :
    ∃ kind, isKind kind ∧ Has members "kind" (.str kind) := by
  cases h with
  | call kind => exact ⟨_, by decide, kind⟩
  | identifier kind => exact ⟨_, by decide, kind⟩
  | empty kind => exact ⟨_, by decide, kind⟩
  | number kind => exact ⟨_, by decide, kind⟩
  | text kind => exact ⟨_, by decide, kind⟩
  | «variable» kind => exact ⟨_, by decide, kind⟩
  | operator kind => exact ⟨_, by decide, kind⟩
  | unary kind => exact ⟨_, by decide, kind⟩
  | sub kind => exact ⟨_, by decide, kind⟩

/-- A text of a written form is read as the tree. -/
theorem Written.parse_eq {e : Expr} {v : Json} {text : String} (h : Written e v)
    (hread : Json.parse text = .ok v) : parse text = .ok e := by
  obtain ⟨⟨v, behind⟩, hvalue, hread⟩ := bind_eq_ok_iff.mp hread
  obtain ⟨_, hend, hv⟩ := bind_eq_ok_iff.mp hread
  cases hv
  -- a written form is an object, which the reader of trees opens itself
  obtain ⟨members, rfl⟩ : ∃ members, v = .obj members := by
    cases h <;> exact ⟨_, rfl⟩
  obtain ⟨inside, inner, hopen, hdepth, hmembers⟩ := Json.readValue_obj hvalue
  cases hdepth
  have hroot : readRoot (text.toList.length + 1) text.toList = .ok (.obj members, behind) := by
    rw [readRoot, hopen]
    exact bind_eq_ok_iff.mpr
      ⟨_, readRootMembers_eq hmembers (.inr ⟨rfl, h.exists_kind⟩), rfl⟩
  rw [parse]
  refine bind_eq_ok_iff.mpr ⟨_, hroot, ?_⟩
  simp only [h.ofJson?_eq]
  exact bind_eq_ok_iff.mpr ⟨(), onText_ok hend, rfl⟩

/-! ## Printed trees -/

mutual

/-- How deep objects and arrays nest in the encoding of a tree. A node is an object with a span in
it, and arguments stand in an array of their own. -/
def nesting : Expr → Nat
  | .call _ arguments => nestingOfList arguments + 2
  | .identifier .. | .empty _ | .number .. | .text .. | .variable .. => 2
  | .operator _ left right _ => max left.nesting right.nesting + 1
  | .unary _ operand _ => operand.nesting + 1
  | .sub inner _ => inner.nesting + 1

/-- How deep they nest in the encoding of the trees of a list. -/
def nestingOfList : List Expr → Nat
  | [] => 0
  | e :: es => max e.nesting (nestingOfList es)

end

/-- Every node is an object. -/
theorem nesting_pos (e : Expr) : 0 < e.nesting := by
  cases e <;> simp [nesting]

@[simp] theorem fits_span_iff {depth : Nat} {s : Span} :
    Json.Fits depth s.toJson ↔ 0 < depth := by
  simp [Span.toJson]

mutual

/-- The encoding of a tree fits into exactly the depths from its nesting on. -/
theorem fits_toJson_iff {depth : Nat} : ∀ e : Expr,
    Json.Fits depth e.toJson ↔ e.nesting ≤ depth
  | .call c arguments => by
    -- the array of arguments takes the second of the two levels
    have harguments : (∀ v ∈ toJsonList arguments, Json.Fits (depth - 2) v)
        ↔ nestingOfList arguments ≤ depth - 2 := fits_toJsonList_iff arguments
    simp only [toJson, nesting, Json.fits_obj_cons, Json.fits_obj_nil, Json.fits_str,
      Json.fits_arr_iff, Nat.sub_sub, harguments, fits_span_iff, true_and]
    omega
  | .identifier .. | .empty _ | .number .. | .text .. | .variable .. => by
    simp only [toJson, nesting, Json.fits_obj_cons, Json.fits_obj_nil, Json.fits_str,
      fits_span_iff, true_and]
    omega
  | .operator _ left right _ => by
    -- where a part fits, so does the span beside it
    have hleft := nesting_pos left
    simp only [toJson, nesting, Json.fits_obj_cons, Json.fits_obj_nil, Json.fits_str,
      fits_span_iff, fits_toJson_iff left, fits_toJson_iff right, true_and]
    omega
  | .unary _ inner _ | .sub inner _ => by
    have hinner := nesting_pos inner
    simp only [toJson, nesting, Json.fits_obj_cons, Json.fits_obj_nil, Json.fits_str,
      fits_span_iff, fits_toJson_iff inner, true_and]
    omega

/-- The encodings of trees all fit into exactly the depths from the greatest nesting on. -/
theorem fits_toJsonList_iff {depth : Nat} : ∀ es : List Expr,
    (∀ v ∈ toJsonList es, Json.Fits depth v) ↔ nestingOfList es ≤ depth
  | [] => by simp [toJsonList, nestingOfList]
  | e :: es => by
    rw [toJsonList, List.forall_mem_cons, fits_toJson_iff e, fits_toJsonList_iff es, nestingOfList,
      Nat.max_le]

end

/-- Either printed form of a written form is read as the tree, if it nests no deeper than the reader
goes. -/
theorem Written.parse_printed {e : Expr} {v : Json} (h : Written e v)
    (hfits : Json.Fits Json.depthLimit v) :
    parse v.compress = .ok e ∧ parse v.indented = .ok e :=
  ⟨h.parse_eq (Json.parseWithin_of_reads (Json.reads_compress hfits)),
    h.parse_eq (Json.parseWithin_of_reads (Json.reads_indented hfits))⟩

/-! ## The round trip -/

/-- The JSON form of trees loses nothing. The encoding of a tree is one of its written forms, a call
may leave out what holds a default, and any node or span may have members that it does not know;
whatever is written so, node by node, is decoded as the tree, and so is each text of it. So encoding
what was decoded gives a normal form. Both printed forms of what is written so are texts of it where
it nests no deeper than the reader goes. -/
theorem ofJson?_written :
    (∀ e : Expr, Written e e.toJson ∧ ofJson? e.toJson = some e)
      ∧ (∀ (e : Expr) (v : Json), Written e v →
        ofJson? v = some e ∧ ∀ text, Json.parse text = .ok v → parse text = .ok e)
      ∧ (∀ (e : Expr) (members : List (String × Json)) (name : String),
        Written e (.obj members) → name ∈ e.defaulted →
          Written e (.obj (Json.without name members)))
      ∧ (∀ (e : Expr) (before later : List (String × Json)) (m : String × Json),
        Written e (.obj (before ++ later)) → m.1 ∉ e.knownNames →
          Written e (.obj (before ++ m :: later)))
      ∧ (∀ (s : Span) (before later : List (String × Json)) (m : String × Json),
        s.Written (.obj (before ++ later)) → m.1 ∉ ["start", "end"] →
          s.Written (.obj (before ++ m :: later)))
      ∧ (∀ (v : Json) (e : Expr), ofJson? v = some e → ofJson? e.toJson = ofJson? v)
      ∧ (∀ (e : Expr) (v : Json), Written e v → Json.Fits Json.depthLimit v →
        parse v.compress = .ok e ∧ parse v.indented = .ok e)
      ∧ ∀ e : Expr, e.nesting ≤ Json.depthLimit →
        parse e.toJson.compress = .ok e ∧ parse e.toJson.indented = .ok e := by
  have hencoding (e : Expr) : ofJson? e.toJson = some e := (written_toJson e).ofJson?_eq
  refine ⟨fun e => ⟨written_toJson e, hencoding e⟩, ?_, ?_, ?_, ?_, ?_, ?_, ?_⟩
  · intro e v h
    exact ⟨h.ofJson?_eq, fun _ hread => h.parse_eq hread⟩
  · intro e members name h hname
    exact h.without hname
  · intro e before later m h hm
    exact h.insert hm
  · intro s before later m h hm
    exact h.insert hm
  · intro v e h
    rw [hencoding, h]
  · intro e v h hfits
    exact h.parse_printed hfits
  · intro e hnesting
    exact (written_toJson e).parse_printed ((fits_toJson_iff e).mpr hnesting)

/-- A call that leaves out its receivers and the span of none. In its argument stands an operator,
which numbers do not have, and its span has a member of its own. What is printed of the call is read
as the call. -/
theorem ofJson?_written_max :
    ofJson? (.obj [("span", .obj [("end", .ofOffset 6), ("line", .null), ("start", .ofOffset 0)]),
        ("kind", .str "function_call"), ("name", .bool true), ("function_name", .str "Max"),
        ("parameters", .arr [.obj [("kind", .str "number"), ("op", .str "-"),
          ("value", .str "1"), ("span", .obj [("start", .ofOffset 4), ("end", .ofOffset 5)])]])])
      = some (.call ⟨"", "", "Max", ⟨0, 6⟩, .origin⟩ [.number "1" ⟨4, 5⟩])
    ∧ parse ("\x7b\"span\":\x7b\"end\":6,\"line\":null,\"start\":0\x7d,"
        ++ "\"kind\":\"function_call\",\"name\":true,\"function_name\":\"Max\","
        ++ "\"parameters\":[\x7b\"kind\":\"number\",\"op\":\"-\",\"value\":\"1\","
        ++ "\"span\":\x7b\"start\":4,\"end\":5\x7d\x7d]\x7d")
      = .ok (.call ⟨"", "", "Max", ⟨0, 6⟩, .origin⟩ [.number "1" ⟨4, 5⟩])
    ∧ parse (toJson (.call ⟨"", "", "Max", ⟨0, 6⟩, .origin⟩ [.number "1" ⟨4, 5⟩])).compress
      = .ok (.call ⟨"", "", "Max", ⟨0, 6⟩, .origin⟩ [.number "1" ⟨4, 5⟩]) := by
  have hspan : (Span.mk 0 6).Written
      (.obj [("end", .ofOffset 6), ("line", .null), ("start", .ofOffset 0)]) :=
    ofJson?_written.2.2.2.2.1 _ [("end", .ofOffset 6)] [("start", .ofOffset 0)] ("line", .null)
      ⟨_, rfl, rfl, rfl⟩ (by decide)
  have hargument : Written (.number "1" ⟨4, 5⟩) (.obj [("kind", .str "number"), ("op", .str "-"),
      ("value", .str "1"), ("span", .obj [("start", .ofOffset 4), ("end", .ofOffset 5)])]) :=
    ofJson?_written.2.2.2.1 _ [("kind", .str "number")]
      [("value", .str "1"), ("span", .obj [("start", .ofOffset 4), ("end", .ofOffset 5)])]
      ("op", .str "-") (.number rfl rfl rfl (Span.written_toJson ⟨4, 5⟩)) (by decide)
  have hprinted := (ofJson?_written.2.2.2.2.2.2.2
    (.call ⟨"", "", "Max", ⟨0, 6⟩, .origin⟩ [.number "1" ⟨4, 5⟩]) (by decide)).1
  refine (ofJson?_written.2.1 _ _ ?_).imp_right fun htexts => ⟨htexts _ ?_, hprinted⟩
  · exact .call rfl (.inr ⟨rfl, rfl⟩) (.inr ⟨rfl, rfl⟩) rfl (.inl rfl) (.cons hargument .nil) rfl
      hspan (.inr ⟨rfl, rfl⟩) (Span.written_toJson .origin)
  · -- the text differs from the printed form in its order, so it is read by evaluation
    exact ok_of_toOption (by decide +kernel)

end EventSheet.Expr
