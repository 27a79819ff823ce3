import EventSheet.Proofs.Json.Reads

/-!
Containers that the reader takes for a value.

An array means the array of what its items mean, with any blanks between its parts, and so does an
object (`Layout`); so nothing has to be known of how a text was laid out. A text of its own that
means a value is a document (`parseWithin_of_reads`), and two of them, line by line, are none
(`parseWithin_lines`).
-/

set_option autoImplicit false

namespace EventSheet.Json

variable {depth fuel : Nat} {value : Json} {text rest : List Char}

/-! ## Layouts -/

/-- How a container is laid out: the blanks behind its opening bracket, behind each comma, behind
each colon and in front of its closing bracket. -/
structure Layout where
  /-- The blanks behind the opening bracket. -/
  lead : Blanks
  /-- The blanks behind a comma. -/
  gap : Blanks
  /-- The blanks behind a colon. -/
  space : Blanks
  /-- The blanks in front of the closing bracket. -/
  tail : Blanks

namespace Layout

variable (l : Layout) (close : Char)

/-- The text of a container behind its first part. -/
def behind (parts : List (List Char)) : List Char :=
  parts.flatMap (fun part => ',' :: (l.gap.val ++ part)) ++ (l.tail.val ++ [close])

/-- The text of a container behind its opening bracket. -/
def enclosed : List (List Char) → List Char
  | [] => [close]
  | part :: parts => l.lead.val ++ (part ++ l.behind close parts)

theorem behind_nil : l.behind close [] = l.tail.val ++ [close] := rfl

theorem behind_cons (part : List Char) (parts : List (List Char)) :
    l.behind close (part :: parts) = ',' :: (l.gap.val ++ (part ++ l.behind close parts)) := by
  simp only [behind, List.flatMap_cons, List.cons_append, List.append_assoc]

/-- At least the bracket stands behind a part. -/
theorem length_behind_pos (parts : List (List Char)) : 0 < (l.behind close parts).length := by
  rw [behind, List.length_append, List.length_append, List.length_singleton]
  omega

/-- What stands behind a part ends its value. -/
theorem endsValue_behind (hclose : close = ']' ∨ close = '}') (parts : List (List Char))
    (rest : List Char) : EndsValue (l.behind close parts ++ rest) := by
  cases parts with
  | cons part parts =>
    rw [l.behind_cons]
    rintro c ⟨⟩
    decide
  | nil =>
    rw [l.behind_nil]
    obtain ⟨tail, htail⟩ := l.tail
    cases tail with
    | nil =>
      rintro _ ⟨⟩
      -- no blank stands in front of the bracket, so the bracket itself ends the value
      rcases hclose with rfl | rfl <;> decide
    | cons b tail =>
      rintro _ ⟨⟩
      have hb : isBlank b = true := htail b List.mem_cons_self
      simp only [isBlank, Bool.or_eq_true, decide_eq_true_eq] at hb
      rcases hb with ((rfl | rfl) | rfl) | rfl <;> decide

end Layout

/-! ## Arrays -/

theorem readItemStart_close (l : Layout) (first : Bool) (rest : List Char) :
    readItemStart first (l.tail.val ++ ']' :: rest) = .ok (false, rest) := by
  rw [readItemStart, l.tail.skip]
  rfl

/-- The first item is found behind the bracket. -/
theorem Reads.readItemStart_first (l : Layout) (h : Reads depth value text) (rest : List Char) :
    readItemStart true (l.lead.val ++ (text ++ rest)) = .ok (true, text ++ rest) := by
  obtain ⟨c, cs, rfl, hblank, hbracket, hcomma⟩ := h.start
  rw [readItemStart, l.lead.skip, List.cons_append, skipBlank_of_not_blank hblank]
  split
  case h_1 heq => cases heq
  case h_2 heq => exact absurd (List.cons.inj heq).1 hbracket
  case h_3 heq => exact absurd (List.cons.inj heq).1 hcomma
  case h_4 => rfl

/-- Another item is found behind a comma. -/
theorem Reads.readItemStart_next (l : Layout) (h : Reads depth value text) (rest : List Char) :
    readItemStart false (',' :: (l.gap.val ++ (text ++ rest))) = .ok (true, text ++ rest) := by
  obtain ⟨c, cs, rfl, hblank, hbracket, -⟩ := h.start
  rw [readItemStart, skipBlank_of_not_blank (by decide)]
  simp only [Bool.false_eq_true, if_false, l.gap.skip, List.cons_append,
    skipBlank_of_not_blank hblank]
  split
  case h_1 heq => cases heq
  case h_2 heq => exact absurd (List.cons.inj heq).1 hbracket
  case h_3 => rfl

/-- An item is read once one is found, and then what is behind it. -/
theorem Reads.readItems_cons (h : Reads depth value text) {first : Bool} {cs behind : List Char}
    {items : List Json} (hstart : readItemStart first cs = .ok (true, text ++ behind))
    (hend : EndsValue behind) (hfuel : text.length ≤ fuel)
    (hitems : readItems fuel depth false behind = .ok (items, rest)) :
    readItems (fuel + 1) depth first cs = .ok (value :: items, rest) :=
  readItems_ok_iff.mpr
    ⟨_, hstart, .inr ⟨rfl, _, h.read behind hend fuel hfuel, _, hitems, rfl⟩⟩

/-- The items behind the first one are read. -/
theorem readItems_behind (l : Layout) {items : List Json} {texts : Json → List Char}
    (h : ∀ v ∈ items, Reads depth v (texts v)) (rest : List Char)
    (hfuel : (l.behind ']' (items.map texts)).length ≤ fuel) :
    readItems fuel depth false (l.behind ']' (items.map texts) ++ rest) = .ok (items, rest) := by
  -- on the items: a text is longer than its parts, so there is fuel for each of them
  induction items generalizing fuel with
  | nil =>
    rw [List.map_nil, l.behind_nil] at hfuel ⊢
    rw [List.length_append, List.length_singleton] at hfuel
    obtain ⟨n, rfl⟩ : ∃ n, fuel = n + 1 := ⟨fuel - 1, by omega⟩
    rw [List.append_assoc, List.singleton_append]
    exact readItems_ok_iff.mpr ⟨_, readItemStart_close l false rest, .inl ⟨rfl, rfl⟩⟩
  | cons v items ih =>
    rw [List.map_cons, l.behind_cons] at hfuel ⊢
    obtain ⟨n, rfl, hn⟩ := exists_fuel hfuel
    rw [List.length_append, List.length_append] at hn
    have hv := h v List.mem_cons_self
    rw [List.cons_append, List.append_assoc, List.append_assoc]
    exact hv.readItems_cons (hv.readItemStart_next l _)
      (l.endsValue_behind ']' (.inl rfl) (items.map texts) rest) (by omega)
      (ih (fun w hw => h w (List.mem_cons_of_mem v hw)) (by omega))

/-- A bracket, the texts of items in a layout and a bracket are read as an array. -/
theorem reads_arr (l : Layout) {items : List Json} {texts : Json → List Char}
    (h : ∀ v ∈ items, Reads depth v (texts v)) :
    Reads (depth + 1) (.arr items) ('[' :: l.enclosed ']' (items.map texts)) where
  start := ⟨'[', _, rfl, by decide, by decide, by decide⟩
  read rest _ fuel hfuel := by
    obtain ⟨n, rfl, hn⟩ := exists_fuel hfuel
    have hread : readItems n depth true (l.enclosed ']' (items.map texts) ++ rest)
        = .ok (items, rest) := by
      -- the first item has no comma in front of it, so it is read on its own
      cases items with
      | nil =>
        obtain ⟨m, rfl, -⟩ := exists_fuel hn
        exact readItems_ok_iff.mpr ⟨(false, rest), rfl, .inl ⟨rfl, rfl⟩⟩
      | cons v items =>
        have hv := h v List.mem_cons_self
        rw [List.map_cons, Layout.enclosed] at hn ⊢
        rw [List.length_append, List.length_append] at hn
        have hlast := l.length_behind_pos ']' (items.map texts)
        have hlength := hv.length_pos
        obtain ⟨m, rfl⟩ : ∃ m, n = m + 1 := ⟨n - 1, by omega⟩
        rw [List.append_assoc, List.append_assoc]
        exact hv.readItems_cons (hv.readItemStart_first l _)
          (l.endsValue_behind ']' (.inl rfl) (items.map texts) rest) (by omega)
          (readItems_behind l (fun w hw => h w (List.mem_cons_of_mem v hw)) rest (by omega))
    rw [List.cons_append]
    exact (readValue_bracket_ok_iff (skipBlank_of_not_blank (by decide) _)).mpr
      ⟨depth, rfl, _, hread, rfl⟩

/-! ## Objects -/

/-- The text of a member of an object. -/
def Layout.member (l : Layout) (name : String) (text : List Char) : List Char :=
  (quote name).toList ++ ':' :: (l.space.val ++ text)

/-- A member's name is read, and the colon and the value are left. -/
theorem Layout.readString_member (l : Layout) (name : String) (text rest : List Char) :
    ∃ cs, l.member name text ++ rest = '"' :: cs
      ∧ readString cs = .ok (name, ':' :: (l.space.val ++ (text ++ rest))) := by
  refine ⟨_, ?_, readString_quoted name _⟩
  rw [member, toList_quote]
  simp only [List.cons_append, List.append_assoc, List.nil_append]

theorem readName_close (l : Layout) (first : Bool) (rest : List Char) :
    readName first (l.tail.val ++ '}' :: rest) = .ok (none, rest) := by
  rw [readName, l.tail.skip]
  rfl

/-- The first member's name is read behind the brace. -/
theorem Layout.readName_first (l : Layout) (name : String) (text rest : List Char) :
    readName true (l.lead.val ++ (l.member name text ++ rest))
      = .ok (some name, ':' :: (l.space.val ++ (text ++ rest))) := by
  obtain ⟨cs, hcs, hname⟩ := l.readString_member name text rest
  rw [readName, l.lead.skip, hcs, skipBlank_of_not_blank (by decide)]
  change readString cs >>= _ = _
  rw [hname]
  rfl

/-- Another member's name is read behind a comma. -/
theorem Layout.readName_next (l : Layout) (name : String) (text rest : List Char) :
    readName false (',' :: (l.gap.val ++ (l.member name text ++ rest)))
      = .ok (some name, ':' :: (l.space.val ++ (text ++ rest))) := by
  obtain ⟨cs, hcs, hname⟩ := l.readString_member name text rest
  rw [readName, skipBlank_of_not_blank (by decide)]
  simp only [Bool.false_eq_true, if_false, l.gap.skip, hcs]
  change readString cs >>= _ = _
  rw [hname]
  rfl

/-- The value of a member is shorter than the member. -/
theorem Layout.length_le_member (l : Layout) (name : String) (text : List Char) :
    text.length < (l.member name text).length := by
  rw [member, List.length_append, List.length_cons, List.length_append]
  omega

/-- A member is read once a name is found, and then what is behind it. -/
theorem Reads.readMembers_cons (l : Layout) (h : Reads depth value text) {first : Bool}
    {cs behind : List Char} {name : String} {members : List (String × Json)}
    (hname : readName first cs = .ok (some name, ':' :: (l.space.val ++ (text ++ behind))))
    (hend : EndsValue behind) (hfuel : text.length ≤ fuel)
    (hmembers : readMembers fuel depth false behind = .ok (members, rest)) :
    readMembers (fuel + 1) depth first cs = .ok ((name, value) :: members, rest) := by
  have hvalue : readValue fuel depth (l.space.val ++ (text ++ behind)) = .ok (value, behind) := by
    rw [readValue_blanks]
    exact h.read behind hend fuel hfuel
  exact readMembers_ok_iff.mpr
    ⟨_, hname, .inr ⟨_, rfl, _, rfl, _, hvalue, _, hmembers, rfl⟩⟩

/-- The members behind the first one are read. -/
theorem readMembers_behind (l : Layout) {members : List (String × Json)}
    {texts : Json → List Char} (h : ∀ m ∈ members, Reads depth m.2 (texts m.2)) (rest : List Char)
    (hfuel : (l.behind '}' (members.map fun m => l.member m.1 (texts m.2))).length ≤ fuel) :
    readMembers fuel depth false
        (l.behind '}' (members.map fun m => l.member m.1 (texts m.2)) ++ rest)
      = .ok (members, rest) := by
  -- on the members, as on the items of an array
  induction members generalizing fuel with
  | nil =>
    rw [List.map_nil, l.behind_nil] at hfuel ⊢
    rw [List.length_append, List.length_singleton] at hfuel
    obtain ⟨n, rfl⟩ : ∃ n, fuel = n + 1 := ⟨fuel - 1, by omega⟩
    rw [List.append_assoc, List.singleton_append]
    exact readMembers_ok_iff.mpr ⟨_, readName_close l false rest, .inl ⟨rfl, rfl⟩⟩
  | cons m members ih =>
    rw [List.map_cons, l.behind_cons] at hfuel ⊢
    obtain ⟨n, rfl, hn⟩ := exists_fuel hfuel
    rw [List.length_append, List.length_append] at hn
    have hlength := l.length_le_member m.1 (texts m.2)
    rw [List.cons_append, List.append_assoc, List.append_assoc]
    exact (h m List.mem_cons_self).readMembers_cons l (l.readName_next m.1 (texts m.2) _)
      (l.endsValue_behind '}' (.inr rfl) _ rest) (by omega)
      (ih (fun w hw => h w (List.mem_cons_of_mem m hw)) (by omega))

/-- A brace, the texts of members in a layout and a brace are read as an object. -/
theorem reads_obj (l : Layout) {members : List (String × Json)} {texts : Json → List Char}
    (h : ∀ m ∈ members, Reads depth m.2 (texts m.2)) :
    Reads (depth + 1) (.obj members)
      ('{' :: l.enclosed '}' (members.map fun m => l.member m.1 (texts m.2))) where
  start := ⟨'{', _, rfl, by decide, by decide, by decide⟩
  read rest _ fuel hfuel := by
    obtain ⟨n, rfl, hn⟩ := exists_fuel hfuel
    have hread : readMembers n depth true
        (l.enclosed '}' (members.map fun m => l.member m.1 (texts m.2)) ++ rest)
          = .ok (members, rest) := by
      cases members with
      | nil =>
        obtain ⟨m, rfl, -⟩ := exists_fuel hn
        exact readMembers_ok_iff.mpr ⟨(none, rest), rfl, .inl ⟨rfl, rfl⟩⟩
      | cons m members =>
        rw [List.map_cons, Layout.enclosed] at hn ⊢
        rw [List.length_append, List.length_append] at hn
        have hlast := l.length_behind_pos '}' (members.map fun m => l.member m.1 (texts m.2))
        have hlength := l.length_le_member m.1 (texts m.2)
        obtain ⟨k, rfl⟩ : ∃ k, n = k + 1 := ⟨n - 1, by omega⟩
        rw [List.append_assoc, List.append_assoc]
        exact (h m List.mem_cons_self).readMembers_cons l (l.readName_first m.1 (texts m.2) _)
          (l.endsValue_behind '}' (.inr rfl) _ rest) (by omega)
          (readMembers_behind l (fun w hw => h w (List.mem_cons_of_mem m hw)) rest (by omega))
    rw [List.cons_append]
    exact (readValue_brace_ok_iff (skipBlank_of_not_blank (by decide) _)).mpr
      ⟨depth, rfl, _, hread, rfl⟩

/-! ## Whole texts -/

/-- A text that means a value is a document. -/
theorem parseWithin_of_reads {text : String} (h : Reads depth value text.toList) :
    parseWithin depth text = .ok value := by
  -- nothing stands behind the value, and this ends it
  have hread := h.read [] (fun c hc => by cases hc) (text.toList.length + 1) (Nat.le_succ _)
  rw [List.append_nil] at hread
  rw [parseWithin, hread]
  rfl

/-- Two texts that mean values are no document if one follows on the line below the other. -/
theorem parseWithin_lines {text text' : String} {value' : Json} {depth' : Nat}
    (h : Reads depth value text.toList) (h' : Reads depth' value' text'.toList) :
    parseWithin depth (text ++ "\n" ++ text')
      = .error ⟨.malformed .trailingCharacters, text'.toList⟩ := by
  obtain ⟨c, cs, hstart, hblank, -, -⟩ := h'.start
  -- the line break ends the first value, so the second one is left over
  have hends : EndsValue ('\n' :: text'.toList) := by
    rintro _ ⟨⟩
    decide
  have hchars : (text ++ "\n" ++ text').toList = text.toList ++ '\n' :: text'.toList := by
    rw [String.toList_append, String.toList_append, List.append_assoc]
    rfl
  have hread := h.read _ hends ((text.toList ++ '\n' :: text'.toList).length + 1)
    (by rw [List.length_append]; omega)
  rw [parseWithin, hchars, hread]
  have hskip : skipBlank ('\n' :: text'.toList) = text'.toList := by
    rw [hstart]
    exact skipBlank_of_not_blank hblank cs
  change readEnd ('\n' :: text'.toList) >>= _ = _
  rw [readEnd, hskip, hstart]
  rfl

end EventSheet.Json
