import EventSheet.Expr.Json
import EventSheet.Proofs.Json.Members

/-!
Written forms of expression trees.

A tree can be written as a JSON value in many ways: members may stand in any order, members that the
node does not know may stand among them, and a call may leave out what has its default value. The
written forms of a tree are given by one rule for each node (`Written`), and whatever is written so
is decoded as the tree (`Written.ofJson?_eq`). The encoding is one of them.
-/

set_option autoImplicit false

namespace EventSheet

open Json (Has HasUnless Lacks required? optional?)

/-! ## Spans -/

namespace Json

/-- An offset is read back, for it fits into 64 bits. -/
@[simp] theorem offset?_ofOffset (n : UInt64) : (ofOffset n).offset? = some n := by
  have hsize : n.toNat < UInt64.size := n.toNat_lt
  rw [ofOffset, ofNat]
  change (if n.toNat < UInt64.size then some n.toNat.toUInt64 else none) = some n
  rw [if_pos hsize]
  exact congrArg some (UInt64.ofNat_toNat)

end Json

namespace Span

/-- The written forms of a span: objects with both offsets. -/
def Written (s : Span) (v : Json) : Prop :=
  ∃ members, v = .obj members ∧ Has members "start" (.ofOffset s.start)
    ∧ Has members "end" (.ofOffset s.stop)

/-- The encoding of a span is one of its written forms. -/
theorem written_toJson (s : Span) : s.Written s.toJson := by
  refine ⟨_, rfl, ?_, ?_⟩ <;> rfl

/-- What a span does not know may stand among its members. -/
theorem Written.insert {s : Span} {before later : List (String × Json)} {m : String × Json}
    (h : s.Written (.obj (before ++ later))) (hm : m.1 ∉ ["start", "end"]) :
    s.Written (.obj (before ++ m :: later)) := by
  obtain ⟨_, hmembers, hstart, hstop⟩ := h
  cases hmembers
  -- neither offset is the member that is put in
  have hne {name : String} (hname : name ∈ ["start", "end"]) : m.1 ≠ name :=
    fun heq => hm (heq ▸ hname)
  exact ⟨_, rfl, (Json.filter_insert (hne (by decide))).trans hstart,
    (Json.filter_insert (hne (by decide))).trans hstop⟩

/-- A written form of a span is decoded as the span. -/
theorem Written.ofJson?_eq {s : Span} {v : Json} (h : s.Written v) : ofJson? v = some s := by
  obtain ⟨members, rfl, hstart, hstop⟩ := h
  simp only [ofJson?, Json.record?, hstart.required?, hstop.required?, Json.offset?_ofOffset,
    Option.bind_eq_bind, Option.bind_some, Option.pure_def]

end Span

/-! ## Trees -/

namespace Expr

mutual

/-- The written forms of a tree. A node is an object with its kind and its members; what it does not
know may stand beside them. A call need not have the members that hold a default. -/
inductive Written : Expr → Json → Prop
  | call {c : Callee} {arguments : List Expr} {members : List (String × Json)} {items : List Json}
    {span nameSpan : Json}
    (kind : Has members "kind" (.str "function_call"))
    (objectName : HasUnless (c.objectName = "") members "object_name" (.str c.objectName))
    (behaviorName : HasUnless (c.behaviorName = "") members "behavior_name" (.str c.behaviorName))
    (functionName : Has members "function_name" (.str c.functionName))
    (parameters : HasUnless (arguments = []) members "parameters" (.arr items))
    (writtenItems : WrittenAll arguments items)
    (hasSpan : Has members "span" span) (writtenSpan : c.span.Written span)
    (objectNameSpan : HasUnless (c.objectNameSpan = .origin) members "object_name_span" nameSpan)
    (writtenNameSpan : c.objectNameSpan.Written nameSpan) :
    Written (.call c arguments) (.obj members)
  | identifier {name : String} {s : Span} {members : List (String × Json)} {span : Json}
    (kind : Has members "kind" (.str "identifier")) (hasName : Has members "name" (.str name))
    (hasSpan : Has members "span" span) (writtenSpan : s.Written span) :
    Written (.identifier name s) (.obj members)
  | empty {s : Span} {members : List (String × Json)} {span : Json}
    (kind : Has members "kind" (.str "empty"))
    (hasSpan : Has members "span" span) (writtenSpan : s.Written span) :
    Written (.empty s) (.obj members)
  | number {value : String} {s : Span} {members : List (String × Json)} {span : Json}
    (kind : Has members "kind" (.str "number")) (hasValue : Has members "value" (.str value))
    (hasSpan : Has members "span" span) (writtenSpan : s.Written span) :
    Written (.number value s) (.obj members)
  | text {value : String} {s : Span} {members : List (String × Json)} {span : Json}
    (kind : Has members "kind" (.str "text")) (hasValue : Has members "value" (.str value))
    (hasSpan : Has members "span" span) (writtenSpan : s.Written span) :
    Written (.text value s) (.obj members)
  | variable {name : String} {s : Span} {members : List (String × Json)} {span : Json}
    (kind : Has members "kind" (.str "variable")) (hasName : Has members "name" (.str name))
    (hasSpan : Has members "span" span) (writtenSpan : s.Written span) :
    Written (.variable name s) (.obj members)
  | operator {op : String} {left right : Expr} {s : Span} {members : List (String × Json)}
    {leftValue rightValue span : Json}
    (kind : Has members "kind" (.str "operator")) (hasOp : Has members "op" (.str op))
    (hasLeft : Has members "left" leftValue) (writtenLeft : Written left leftValue)
    (hasRight : Has members "right" rightValue) (writtenRight : Written right rightValue)
    (hasSpan : Has members "span" span) (writtenSpan : s.Written span) :
    Written (.operator op left right s) (.obj members)
  | unary {op : String} {operand : Expr} {s : Span} {members : List (String × Json)}
    {value span : Json}
    (kind : Has members "kind" (.str "unary_operator")) (hasOp : Has members "op" (.str op))
    (hasOperand : Has members "operand" value) (writtenOperand : Written operand value)
    (hasSpan : Has members "span" span) (writtenSpan : s.Written span) :
    Written (.unary op operand s) (.obj members)
  | sub {inner : Expr} {s : Span} {members : List (String × Json)} {value span : Json}
    (kind : Has members "kind" (.str "sub_expression"))
    (hasInner : Has members "inner" value) (writtenInner : Written inner value)
    (hasSpan : Has members "span" span) (writtenSpan : s.Written span) :
    Written (.sub inner s) (.obj members)

/-- The written forms of a list of trees, item by item. -/
inductive WrittenAll : List Expr → List Json → Prop
  | nil : WrittenAll [] []
  | cons {e : Expr} {v : Json} {es : List Expr} {vs : List Json} (head : Written e v)
    (tail : WrittenAll es vs) : WrittenAll (e :: es) (v :: vs)

end

/-! ## The encoding, and what may be changed in it -/

mutual

/-- The encoding of a tree is one of its written forms. -/
theorem written_toJson : ∀ e : Expr, Written e e.toJson
  | .call c arguments => by
    rw [toJson]
    exact .call rfl (.inl rfl) (.inl rfl) rfl (.inl rfl) (writtenAll_toJsonList arguments) rfl
      c.span.written_toJson (.inl rfl) c.objectNameSpan.written_toJson
  | .identifier _ s => by
    rw [toJson]
    exact .identifier rfl rfl rfl s.written_toJson
  | .empty s => by
    rw [toJson]
    exact .empty rfl rfl s.written_toJson
  | .number _ s => by
    rw [toJson]
    exact .number rfl rfl rfl s.written_toJson
  | .text _ s => by
    rw [toJson]
    exact .text rfl rfl rfl s.written_toJson
  | .variable _ s => by
    rw [toJson]
    exact .variable rfl rfl rfl s.written_toJson
  | .operator _ left right s => by
    rw [toJson]
    exact .operator rfl rfl rfl (written_toJson left) rfl (written_toJson right) rfl
      s.written_toJson
  | .unary _ operand s => by
    rw [toJson]
    exact .unary rfl rfl rfl (written_toJson operand) rfl s.written_toJson
  | .sub inner s => by
    rw [toJson]
    exact .sub rfl rfl (written_toJson inner) rfl s.written_toJson

/-- The encodings of some trees are written forms of them, item by item. -/
theorem writtenAll_toJsonList : ∀ es : List Expr, WrittenAll es (toJsonList es)
  | [] => .nil
  | e :: es => by
    rw [toJsonList]
    exact .cons (written_toJson e) (writtenAll_toJsonList es)

end

/-- The names of the members that a tree's root knows. -/
def knownNames : Expr → List String
  | .call .. => ["kind", "object_name", "behavior_name", "function_name", "parameters", "span",
      "object_name_span"]
  | .identifier .. => ["kind", "name", "span"]
  | .empty .. => ["kind", "span"]
  | .number .. => ["kind", "value", "span"]
  | .text .. => ["kind", "value", "span"]
  | .variable .. => ["kind", "name", "span"]
  | .operator .. => ["kind", "op", "left", "right", "span"]
  | .unary .. => ["kind", "op", "operand", "span"]
  | .sub .. => ["kind", "inner", "span"]

/-- The names of the members that hold a default. -/
def defaulted : Expr → List String
  | .call c arguments =>
    (if c.objectName = "" then ["object_name"] else [])
      ++ (if c.behaviorName = "" then ["behavior_name"] else [])
      ++ (if arguments = [] then ["parameters"] else [])
      ++ (if c.objectNameSpan = .origin then ["object_name_span"] else [])
  | _ => []

/-- A node reads no members but those of the names it knows. -/
theorem Written.congr {e : Expr} {members others : List (String × Json)}
    (h : Written e (.obj members))
    (hsame : ∀ name ∈ e.knownNames,
      others.filter (fun m => m.1 = name) = members.filter fun m => m.1 = name) :
    Written e (.obj others) := by
  -- the rule of a node names its members one by one, and each is found in the others as well
  cases h with
  | call kind objectName behaviorName functionName parameters writtenItems hasSpan writtenSpan
      objectNameSpan writtenNameSpan =>
    simp only [knownNames, List.forall_mem_cons] at hsame
    obtain ⟨hkind, hobject, hbehavior, hfunction, hparameters, hspan, hnameSpan, -⟩ := hsame
    exact .call (hkind.trans kind) (objectName.congr hobject) (behaviorName.congr hbehavior)
      (hfunction.trans functionName) (parameters.congr hparameters) writtenItems
      (hspan.trans hasSpan) writtenSpan (objectNameSpan.congr hnameSpan) writtenNameSpan
  | identifier kind hasName hasSpan writtenSpan =>
    simp only [knownNames, List.forall_mem_cons] at hsame
    obtain ⟨hkind, hname, hspan, -⟩ := hsame
    exact .identifier (hkind.trans kind) (hname.trans hasName) (hspan.trans hasSpan) writtenSpan
  | empty kind hasSpan writtenSpan =>
    simp only [knownNames, List.forall_mem_cons] at hsame
    obtain ⟨hkind, hspan, -⟩ := hsame
    exact .empty (hkind.trans kind) (hspan.trans hasSpan) writtenSpan
  | number kind hasValue hasSpan writtenSpan =>
    simp only [knownNames, List.forall_mem_cons] at hsame
    obtain ⟨hkind, hvalue, hspan, -⟩ := hsame
    exact .number (hkind.trans kind) (hvalue.trans hasValue) (hspan.trans hasSpan) writtenSpan
  | text kind hasValue hasSpan writtenSpan =>
    simp only [knownNames, List.forall_mem_cons] at hsame
    obtain ⟨hkind, hvalue, hspan, -⟩ := hsame
    exact .text (hkind.trans kind) (hvalue.trans hasValue) (hspan.trans hasSpan) writtenSpan
  | «variable» kind hasName hasSpan writtenSpan =>
    simp only [knownNames, List.forall_mem_cons] at hsame
    obtain ⟨hkind, hname, hspan, -⟩ := hsame
    exact .variable (hkind.trans kind) (hname.trans hasName) (hspan.trans hasSpan) writtenSpan
  | operator kind hasOp hasLeft writtenLeft hasRight writtenRight hasSpan writtenSpan =>
    simp only [knownNames, List.forall_mem_cons] at hsame
    obtain ⟨hkind, hop, hleft, hright, hspan, -⟩ := hsame
    exact .operator (hkind.trans kind) (hop.trans hasOp) (hleft.trans hasLeft) writtenLeft
      (hright.trans hasRight) writtenRight (hspan.trans hasSpan) writtenSpan
  | unary kind hasOp hasOperand writtenOperand hasSpan writtenSpan =>
    simp only [knownNames, List.forall_mem_cons] at hsame
    obtain ⟨hkind, hop, hoperand, hspan, -⟩ := hsame
    exact .unary (hkind.trans kind) (hop.trans hasOp) (hoperand.trans hasOperand) writtenOperand
      (hspan.trans hasSpan) writtenSpan
  | sub kind hasInner writtenInner hasSpan writtenSpan =>
    simp only [knownNames, List.forall_mem_cons] at hsame
    obtain ⟨hkind, hinner, hspan, -⟩ := hsame
    exact .sub (hkind.trans kind) (hinner.trans hasInner) writtenInner (hspan.trans hasSpan)
      writtenSpan

/-- What a node does not know may stand among its members. -/
theorem Written.insert {e : Expr} {before later : List (String × Json)} {m : String × Json}
    (h : Written e (.obj (before ++ later))) (hm : m.1 ∉ e.knownNames) :
    Written e (.obj (before ++ m :: later)) :=
  h.congr fun _ hname => Json.filter_insert fun heq => hm (heq ▸ hname)

/-- A member that holds a default may be left out. -/
theorem Written.without {e : Expr} {members : List (String × Json)} {name : String}
    (h : Written e (.obj members)) (hname : name ∈ e.defaulted) :
    Written e (.obj (Json.without name members)) := by
  cases h with
  | call kind objectName behaviorName functionName parameters writtenItems hasSpan writtenSpan
      objectNameSpan writtenNameSpan =>
    refine .call (kind.without ?_) (objectName.without ?_) (behaviorName.without ?_)
      (functionName.without ?_) (parameters.without ?_) writtenItems (hasSpan.without ?_)
      writtenSpan (objectNameSpan.without ?_) writtenNameSpan
    -- a member that is no default is never the one left out; one that is holds its default
    all_goals
      rintro rfl
      simp [defaulted] at hname
    all_goals exact hname
  | _ => cases hname

/-! ## Reading the members of a node -/

/-- The members of an object are decoded one by one. -/
theorem decodeMembers_eq (members : List (String × Json)) :
    decodeMembers members = members.map fun m => (m.1, decode m.2) := by
  induction members with
  | nil => rfl
  | cons m members ih => rw [decodeMembers, ih, List.map_cons]

/-- The items of an array are decoded one by one. -/
theorem decodeItems_eq (items : List Json) : decodeItems items = items.map decode := by
  induction items with
  | nil => rfl
  | cons v items ih => rw [decodeItems, ih, List.map_cons]

theorem value_decode (v : Json) : (decode v).value = v := by
  cases v <;> rfl

theorem string?_decode (v : Json) : (decode v).string? = v.string? :=
  congrArg Json.string? (value_decode v)

theorem span?_decode (v : Json) : (decode v).span? = Span.ofJson? v :=
  congrArg Span.ofJson? (value_decode v)

section

variable {members : List (String × Json)} {name s : String} {v : Json} {span : Span} {e : Expr}

/-- A member is still there once all of them are decoded. -/
theorem decodeMembers_has (h : Has members name v) :
    Has (decodeMembers members) name (decode v) := by
  rw [decodeMembers_eq]
  exact h.map decode

/-- A member that may lack is still there, or still lacks. -/
theorem decodeMembers_hasUnless {mayLack : Prop} (h : HasUnless mayLack members name v) :
    HasUnless mayLack (decodeMembers members) name (decode v) := by
  rw [decodeMembers_eq]
  exact h.map decode

theorem required?_string (h : Has members name (.str s)) :
    required? name Decoded.string? (decodeMembers members) = some s := by
  rw [(decodeMembers_has h).required?, string?_decode]
  rfl

theorem required?_span (h : Has members name v) (hspan : span.Written v) :
    required? name Decoded.span? (decodeMembers members) = some span := by
  rw [(decodeMembers_has h).required?, span?_decode, hspan.ofJson?_eq]

theorem required?_tree (h : Has members name v) (htree : ofJson? v = some e) :
    required? name Decoded.tree (decodeMembers members) = some e := by
  rw [(decodeMembers_has h).required?]
  exact htree

/-- A member that may lack is read as a string, the empty one in its place. -/
theorem optional?_string (h : HasUnless (s = "") members name (.str s)) :
    optional? name "" Decoded.string? (decodeMembers members) = some s :=
  (decodeMembers_hasUnless h).optional? (string?_decode _) id

/-- A member that may lack is read as a span, the first place of all in its stead. -/
theorem optional?_span (h : HasUnless (span = .origin) members name v) (hspan : span.Written v) :
    optional? name .origin Decoded.span? (decodeMembers members) = some span :=
  (decodeMembers_hasUnless h).optional? ((span?_decode v).trans hspan.ofJson?_eq) id

/-- A member that may lack is read as a list of trees, no trees in its place. -/
theorem optional?_trees {arguments : List Expr} {items : List Json}
    (h : HasUnless (arguments = []) members name (.arr items))
    (htrees : items.mapM ofJson? = some arguments) :
    optional? name [] Decoded.trees (decodeMembers members) = some arguments := by
  have hdecoded : (decode (.arr items)).trees = some arguments := by
    rw [decode, decodeItems_eq, List.mapM_map]
    exact htrees
  exact (decodeMembers_hasUnless h).optional? hdecoded id

end

/-! ## Decoding -/

mutual

/-- A written form of a tree is decoded as the tree. -/
theorem Written.ofJson?_eq {e : Expr} {v : Json} : Written e v → ofJson? v = some e
  | .call kind objectName behaviorName functionName parameters writtenItems hasSpan writtenSpan
      objectNameSpan writtenNameSpan => by
    simp [ofJson?, decode, ofMembers?, required?_string kind, optional?_string objectName,
      optional?_string behaviorName, required?_string functionName,
      optional?_trees parameters writtenItems.mapM_eq, required?_span hasSpan writtenSpan,
      optional?_span objectNameSpan writtenNameSpan]
  | .identifier kind hasName hasSpan writtenSpan => by
    simp [ofJson?, decode, ofMembers?, required?_string kind, required?_string hasName,
      required?_span hasSpan writtenSpan]
  | .empty kind hasSpan writtenSpan => by
    simp [ofJson?, decode, ofMembers?, required?_string kind, required?_span hasSpan writtenSpan]
  | .number kind hasValue hasSpan writtenSpan => by
    simp [ofJson?, decode, ofMembers?, required?_string kind, required?_string hasValue,
      required?_span hasSpan writtenSpan]
  | .text kind hasValue hasSpan writtenSpan => by
    simp [ofJson?, decode, ofMembers?, required?_string kind, required?_string hasValue,
      required?_span hasSpan writtenSpan]
  | .variable kind hasName hasSpan writtenSpan => by
    simp [ofJson?, decode, ofMembers?, required?_string kind, required?_string hasName,
      required?_span hasSpan writtenSpan]
  | .operator kind hasOp hasLeft writtenLeft hasRight writtenRight hasSpan writtenSpan => by
    simp [ofJson?, decode, ofMembers?, required?_string kind, required?_string hasOp,
      required?_tree hasLeft writtenLeft.ofJson?_eq,
      required?_tree hasRight writtenRight.ofJson?_eq, required?_span hasSpan writtenSpan]
  | .unary kind hasOp hasOperand writtenOperand hasSpan writtenSpan => by
    simp [ofJson?, decode, ofMembers?, required?_string kind, required?_string hasOp,
      required?_tree hasOperand writtenOperand.ofJson?_eq, required?_span hasSpan writtenSpan]
  | .sub kind hasInner writtenInner hasSpan writtenSpan => by
    simp [ofJson?, decode, ofMembers?, required?_string kind,
      required?_tree hasInner writtenInner.ofJson?_eq, required?_span hasSpan writtenSpan]

/-- Written forms of some trees are decoded as the trees, item by item. -/
theorem WrittenAll.mapM_eq {es : List Expr} {vs : List Json} :
    WrittenAll es vs → vs.mapM ofJson? = some es
  | .nil => rfl
  | .cons head tail => by
    rw [List.mapM_cons, head.ofJson?_eq, tail.mapM_eq]
    rfl

end

end Expr

end EventSheet
