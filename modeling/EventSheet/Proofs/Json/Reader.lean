import EventSheet.Json.Reader
import EventSheet.Proofs.Bindings

/-!
Runs of the JSON reader.

What a container says is settled by one item or member and the rest, so a successful run over
members is taken apart member by member (`readMembers_ok_iff`). Fuel only bounds the recursion: what
is read with some fuel is read alike with more (`readValue_succ`). A value that opens no container
uses neither fuel nor depth (`readValue_scalar`).
-/

set_option autoImplicit false

namespace EventSheet.Json

variable {fuel depth : Nat} {first : Bool} {cs rest : List Char}

/-! ## One step of reading -/

/-- What opens no container is read alike with any fuel and at any depth. -/
theorem readValue_scalar (hbracket : ∀ rest, skipBlank cs ≠ '[' :: rest)
    (hbrace : ∀ rest, skipBlank cs ≠ '{' :: rest) (fuel fuel' depth depth' : Nat) :
    readValue (fuel + 1) depth cs = readValue (fuel' + 1) depth' cs := by
  rw [readValue, readValue]
  split
  case h_7 rest h => exact absurd h (hbracket rest)
  case h_8 rest h => exact absurd h (hbrace rest)
  all_goals rfl

/-- What opens with a bracket is read as an array, if depth is left for one. -/
theorem readValue_bracket_ok_iff (h : skipBlank cs = '[' :: rest) {r : Json × List Char} :
    readValue (fuel + 1) depth cs = .ok r ↔ ∃ inner, depth = inner + 1 ∧
      ∃ items, readItems fuel inner true rest = .ok items ∧ (.arr items.1, items.2) = r := by
  rw [readValue, h]
  cases depth with
  | zero => simp [malformed]
  | succ inner =>
    constructor
    · intro hread
      obtain ⟨items, hitems, hr⟩ := bind_eq_ok_iff.mp hread
      exact ⟨inner, rfl, items, hitems, Except.ok.inj hr⟩
    · rintro ⟨_, ⟨⟩, items, hitems, rfl⟩
      exact bind_eq_ok_iff.mpr ⟨items, hitems, rfl⟩

/-- What opens with a brace is read as an object, if depth is left for one. -/
theorem readValue_brace_ok_iff (h : skipBlank cs = '{' :: rest) {r : Json × List Char} :
    readValue (fuel + 1) depth cs = .ok r ↔ ∃ inner, depth = inner + 1 ∧
      ∃ members, readMembers fuel inner true rest = .ok members
        ∧ (.obj members.1, members.2) = r := by
  rw [readValue, h]
  cases depth with
  | zero => simp [malformed]
  | succ inner =>
    constructor
    · intro hread
      obtain ⟨members, hmembers, hr⟩ := bind_eq_ok_iff.mp hread
      exact ⟨inner, rfl, members, hmembers, Except.ok.inj hr⟩
    · rintro ⟨_, ⟨⟩, members, hmembers, rfl⟩
      exact bind_eq_ok_iff.mpr ⟨members, hmembers, rfl⟩

/-- The items that are left are none, or one value and the rest. -/
theorem readItems_ok_iff {r : List Json × List Char} :
    readItems (fuel + 1) depth first cs = .ok r ↔ ∃ start, readItemStart first cs = .ok start
      ∧ (start.1 = false ∧ ([], start.2) = r ∨ start.1 = true
        ∧ ∃ item, readValue fuel depth start.2 = .ok item
          ∧ ∃ items, readItems fuel depth false item.2 = .ok items
            ∧ (item.1 :: items.1, items.2) = r) := by
  rw [readItems, bind_eq_ok_iff]
  refine exists_congr fun start => and_congr_right fun _ => ?_
  obtain ⟨more, behind⟩ := start
  cases more with
  | false => simp [pure, Except.pure]
  | true => simp [bind_eq_ok_iff, pure, Except.pure]

/-- The members that are left are none, or one name with its value and the rest. -/
theorem readMembers_ok_iff {r : List (String × Json) × List Char} :
    readMembers (fuel + 1) depth first cs = .ok r ↔ ∃ start, readName first cs = .ok start
      ∧ (start.1 = none ∧ ([], start.2) = r ∨ ∃ name, start.1 = some name
        ∧ ∃ behind, readColon start.2 = .ok behind
          ∧ ∃ value, readValue fuel depth behind = .ok value
            ∧ ∃ members, readMembers fuel depth false value.2 = .ok members
              ∧ ((name, value.1) :: members.1, members.2) = r) := by
  rw [readMembers, bind_eq_ok_iff]
  refine exists_congr fun start => and_congr_right fun _ => ?_
  obtain ⟨name, behind⟩ := start
  cases name with
  | none => simp [pure, Except.pure]
  | some name => simp [bind_eq_ok_iff, pure, Except.pure]

/-! ## The value that was read -/

/-- A word is read as the value that it stands for. -/
theorem readWord_ok {value : Json} {word : List Char} {r : Json × List Char}
    (h : readWord value word cs = .ok r) : r.1 = value := by
  -- on the letters of the word: they only decide whether it is read
  induction word generalizing cs with
  | nil => exact (Prod.ext_iff.mp (Except.ok.inj h)).1.symm
  | cons w word ih =>
    cases cs with
    | nil => cases h
    | cons c cs =>
      rw [readWord] at h
      split at h
      · exact ih h
      · cases h

/-- What is read as a number is one, whatever its parts. -/
theorem readUnsigned_ok {negative : Bool} {r : Json × List Char}
    (h : readUnsigned negative cs = .ok r) : ∃ n, r.1 = .num n := by
  obtain ⟨whole, -, h⟩ := bind_eq_ok_iff.mp h
  obtain ⟨fraction, -, h⟩ := bind_eq_ok_iff.mp h
  obtain ⟨exponent, -, h⟩ := bind_eq_ok_iff.mp h
  dsimp only at h
  split at h
  · cases h
  · exact ⟨_, (congrArg Prod.fst (Except.ok.inj h)).symm⟩

/-- Only what opens with a brace is read as an object. -/
theorem readValue_obj {members : List (String × Json)}
    (h : readValue (fuel + 1) depth cs = .ok (.obj members, rest)) :
    ∃ behind inner, skipBlank cs = '{' :: behind ∧ depth = inner + 1
      ∧ readMembers fuel inner true behind = .ok (members, rest) := by
  by_cases hbrace : ∃ behind, skipBlank cs = '{' :: behind
  · obtain ⟨behind, hopen⟩ := hbrace
    obtain ⟨inner, hdepth, read, hread, hr⟩ := (readValue_brace_ok_iff hopen).mp h
    cases hr
    exact ⟨behind, inner, hopen, hdepth, hread⟩
  · -- every other opening gives a value of another form
    exfalso
    rw [readValue] at h
    split at h
    case h_1 => cases h
    case h_2 => cases readWord_ok h
    case h_3 => cases readWord_ok h
    case h_4 => cases readWord_ok h
    case h_5 =>
      obtain ⟨s, -, h⟩ := bind_eq_ok_iff.mp h
      cases h
    case h_6 =>
      obtain ⟨n, hn⟩ := readUnsigned_ok h
      cases hn
    case h_7 =>
      split at h
      · cases h
      · obtain ⟨items, -, h⟩ := bind_eq_ok_iff.mp h
        cases h
    case h_8 behind hopen => exact hbrace ⟨behind, hopen⟩
    case h_9 =>
      split at h
      · obtain ⟨n, hn⟩ := readUnsigned_ok h
        cases hn
      · cases h

/-- What is read as a string opens no container. -/
theorem readValue_str {s : String} (h : readValue (fuel + 1) depth cs = .ok (.str s, rest)) :
    (∀ behind, skipBlank cs ≠ '[' :: behind) ∧ ∀ behind, skipBlank cs ≠ '{' :: behind := by
  constructor
  · intro behind hopen
    obtain ⟨_, -, _, -, hr⟩ := (readValue_bracket_ok_iff hopen).mp h
    cases hr
  · intro behind hopen
    obtain ⟨_, -, _, -, hr⟩ := (readValue_brace_ok_iff hopen).mp h
    cases hr

/-! ## More fuel -/

/-- What a round of reading gives, a round with more fuel gives too. A scalar does not use any, and
a container hands the rest to its items or members. -/
theorem read_succ (fuel : Nat) :
    (∀ depth cs r, readValue fuel depth cs = .ok r → readValue (fuel + 1) depth cs = .ok r)
      ∧ (∀ depth first cs r, readItems fuel depth first cs = .ok r →
        readItems (fuel + 1) depth first cs = .ok r)
      ∧ ∀ depth first cs r, readMembers fuel depth first cs = .ok r →
        readMembers (fuel + 1) depth first cs = .ok r := by
  induction fuel with
  | zero =>
    -- without fuel nothing is read
    refine ⟨fun depth cs r h => ?_, fun depth first cs r h => ?_, fun depth first cs r h => ?_⟩
    · rw [readValue] at h
      cases h
    · rw [readItems] at h
      cases h
    · rw [readMembers] at h
      cases h
  | succ fuel ih =>
    obtain ⟨hvalue, hitems, hmembers⟩ := ih
    refine ⟨fun depth cs r h => ?_, fun depth first cs r h => ?_, fun depth first cs r h => ?_⟩
    · -- only a container hands fuel on, so the cases are those of the opening
      by_cases hbracket : ∃ rest, skipBlank cs = '[' :: rest
      · obtain ⟨rest, hopen⟩ := hbracket
        obtain ⟨inner, hdepth, items, hread, hr⟩ := (readValue_bracket_ok_iff hopen).mp h
        exact (readValue_bracket_ok_iff hopen).mpr
          ⟨inner, hdepth, items, hitems _ _ _ _ hread, hr⟩
      · by_cases hbrace : ∃ rest, skipBlank cs = '{' :: rest
        · obtain ⟨rest, hopen⟩ := hbrace
          obtain ⟨inner, hdepth, members, hread, hr⟩ := (readValue_brace_ok_iff hopen).mp h
          exact (readValue_brace_ok_iff hopen).mpr
            ⟨inner, hdepth, members, hmembers _ _ _ _ hread, hr⟩
        · rw [readValue_scalar (not_exists.mp hbracket) (not_exists.mp hbrace) (fuel + 1) fuel
            depth depth]
          exact h
    · obtain ⟨start, hstart, hnone | ⟨hmore, item, hitem, items, hread, hr⟩⟩ :=
        readItems_ok_iff.mp h
      · exact readItems_ok_iff.mpr ⟨start, hstart, .inl hnone⟩
      · exact readItems_ok_iff.mpr ⟨start, hstart, .inr
          ⟨hmore, item, hvalue _ _ _ hitem, items, hitems _ _ _ _ hread, hr⟩⟩
    · obtain ⟨start, hstart, hnone | ⟨name, hname, behind, hcolon, value, hv, members, hread,
        hr⟩⟩ := readMembers_ok_iff.mp h
      · exact readMembers_ok_iff.mpr ⟨start, hstart, .inl hnone⟩
      · exact readMembers_ok_iff.mpr ⟨start, hstart, .inr ⟨name, hname, behind, hcolon, value,
          hvalue _ _ _ hv, members, hmembers _ _ _ _ hread, hr⟩⟩

/-- A value that is read with some fuel is read with more. -/
theorem readValue_succ {r : Json × List Char} (h : readValue fuel depth cs = .ok r) :
    readValue (fuel + 1) depth cs = .ok r := (read_succ fuel).1 depth cs r h

end EventSheet.Json
