import EventSheet.Json.Printer
import EventSheet.Proofs.Json.Reader

/-!
Texts that the reader takes for a value.

A text means a value if the reader takes it for that value, whatever stands behind it that can stand
behind a value (`Reads`). Here are the values that hold no others: words, whole numbers of 64 bits
and strings. A number ends only where no digit follows, so the condition on what stands behind is
needed for it alone; a string ends with its quote, and what is escaped in it is read back character
by character.
-/

set_option autoImplicit false

namespace EventSheet.Json

/-! ## Blanks -/

/-- Where no blank stands in front, none is passed over. -/
theorem skipBlank_of_not_blank {c : Char} (hc : isBlank c = false) (rest : List Char) :
    skipBlank (c :: rest) = c :: rest := by
  rw [skipBlank, List.dropWhile_cons, if_neg (by simp [hc])]

/-- A text of blanks. -/
abbrev Blanks : Type := { cs : List Char // ∀ c ∈ cs, isBlank c = true }

/-- Blanks in front are passed over. -/
theorem Blanks.skip (blanks : Blanks) (cs : List Char) :
    skipBlank (blanks.val ++ cs) = skipBlank cs :=
  List.dropWhile_append_of_pos blanks.property

/-- Blanks in front of a value do not matter. -/
theorem readValue_blanks (blanks : Blanks) (fuel depth : Nat) (cs : List Char) :
    readValue fuel depth (blanks.val ++ cs) = readValue fuel depth cs := by
  cases fuel with
  | zero => rw [readValue, readValue]
  | succ fuel => rw [readValue, readValue, blanks.skip]

/-! ## The relation -/

/-- What may stand behind a value: nothing, a blank, a comma or a closing bracket. No value goes on
with any of these. -/
def EndsValue (rest : List Char) : Prop :=
  ∀ c ∈ rest.head?, c ∈ [' ', '\n', '\t', '\r', ',', ']', '}']

/-- The reader takes a text for a value. -/
structure Reads (depth : Nat) (value : Json) (text : List Char) : Prop where
  /-- The text does not start like a gap between values, or like the end of a list. -/
  start : ∃ c cs, text = c :: cs ∧ isBlank c = false ∧ c ≠ ']' ∧ c ≠ ','
  /-- The value is read, and what stands behind it is left. -/
  read : ∀ rest, EndsValue rest → ∀ fuel, text.length ≤ fuel →
    readValue fuel depth (text ++ rest) = .ok (value, rest)

variable {depth fuel : Nat} {value : Json} {text rest : List Char}

/-- A text of a value is not empty. -/
theorem Reads.length_pos (h : Reads depth value text) : 0 < text.length := by
  obtain ⟨c, cs, rfl, -⟩ := h.start
  exact Nat.succ_pos _

/-- With the fuel for a text there is fuel for a step. -/
theorem exists_fuel {c : Char} {cs : List Char} (h : (c :: cs).length ≤ fuel) :
    ∃ n, fuel = n + 1 ∧ cs.length ≤ n := by
  rw [List.length_cons] at h
  exact ⟨fuel - 1, by omega, by omega⟩

/-- Some values show their own end, and are read in one step whatever stands behind them. -/
theorem Reads.of_step {c : Char} {cs : List Char}
    (hstart : isBlank c = false ∧ c ≠ ']' ∧ c ≠ ',')
    (hread : ∀ n rest, readValue (n + 1) depth (c :: (cs ++ rest)) = .ok (value, rest)) :
    Reads depth value (c :: cs) where
  start := ⟨c, cs, rfl, hstart⟩
  read rest _ fuel hfuel := by
    obtain ⟨n, rfl, -⟩ := exists_fuel hfuel
    exact hread n rest

/-! ## Words -/

theorem reads_null : Reads depth .null ['n', 'u', 'l', 'l'] :=
  .of_step (by decide) fun n rest => by
    rw [readValue]
    rfl

theorem reads_true : Reads depth (.bool true) ['t', 'r', 'u', 'e'] :=
  .of_step (by decide) fun n rest => by
    rw [readValue]
    rfl

theorem reads_false : Reads depth (.bool false) ['f', 'a', 'l', 's', 'e'] :=
  .of_step (by decide) fun n rest => by
    rw [readValue]
    rfl

/-! ## Whole numbers -/

/-- A number that is not zero does not start with a zero. -/
theorem toDigits_start {n : Nat} (hn : n ≠ 0) : ∃ d ds, Nat.toDigits 10 n = d :: ds ∧ d ≠ '0' := by
  -- on the digits: the leading one stays the first when another comes behind
  induction n using Nat.base_induction 10 (by decide) with
  | single m hm =>
    refine ⟨m.digitChar, [], Nat.toDigits_of_lt_base hm, ?_⟩
    revert m
    decide
  | digit m k hk hm ih =>
    obtain ⟨d, ds, hdigits, hd⟩ := ih (by omega)
    refine ⟨d, ds ++ Nat.toDigits 10 k, ?_, hd⟩
    rw [← Nat.toDigits_append_toDigits (by decide) hm hk, hdigits, List.cons_append]

/-- What ends a value goes on neither with digits nor with another part of a number. -/
theorem EndsValue.not_number (h : EndsValue rest) {c : Char} (hc : rest.head? = some c) :
    c.isDigit = false ∧ c ≠ '.' ∧ c ≠ 'e' ∧ c ≠ 'E' := by
  have hmem := h c hc
  simp only [List.mem_cons, List.not_mem_nil, or_false] at hmem
  rcases hmem with rfl | rfl | rfl | rfl | rfl | rfl | rfl <;> decide

/-- Digits are read up to what ends a value. -/
theorem readDigits_append {ds : List Char} (hne : ds ≠ []) (hdigits : ∀ c ∈ ds, c.isDigit = true)
    (hrest : EndsValue rest) : readDigits (ds ++ rest) = .ok (ds, rest) := by
  -- what ends a value is no digit, so the digits end where it starts
  have hstop : rest.takeWhile Char.isDigit = [] ∧ rest.dropWhile Char.isDigit = rest := by
    cases rest with
    | nil => exact ⟨rfl, rfl⟩
    | cons c cs =>
      have hc := (hrest.not_number (c := c) rfl).1
      simp [hc]
  obtain ⟨d, ds', rfl⟩ := List.exists_cons_of_ne_nil hne
  rw [readDigits.eq_def]
  dsimp only [List.cons_append]
  rw [if_pos (hdigits d List.mem_cons_self), ← List.cons_append,
    List.takeWhile_append_of_pos hdigits, List.dropWhile_append_of_pos hdigits, hstop.1, hstop.2,
    List.append_nil]

/-- The digits of a whole number are read as its whole part. -/
theorem readWhole_toDigits (n : Nat) (hrest : EndsValue rest) :
    readWhole (Nat.toDigits 10 n ++ rest) = .ok (Nat.toDigits 10 n, rest) := by
  have hread : readDigits (Nat.toDigits 10 n ++ rest) = .ok (Nat.toDigits 10 n, rest) :=
    readDigits_append Nat.toDigits_ne_nil
      (fun c hc => Nat.isDigit_of_mem_toDigits (by decide) (by decide) hc) hrest
  -- a zero may not be followed by digits, so it is a case of its own
  by_cases hn : n = 0
  · subst hn
    rw [Nat.toDigits_zero] at hread ⊢
    cases rest with
    | nil => exact hread
    | cons c cs =>
      rw [List.singleton_append, readWhole, if_neg (by simp [(hrest.not_number (c := c) rfl).1])]
  · obtain ⟨d, ds, hdigits, hd⟩ := toDigits_start hn
    rw [hdigits] at hread ⊢
    rw [List.cons_append, readWhole]
    · exact hread
    · rintro c cs h
      exact hd (List.cons.inj h).1

/-- What ends a value is no fraction. -/
theorem readFraction_of_endsValue (hrest : EndsValue rest) :
    readFraction rest = .ok ([], rest) := by
  rw [readFraction.eq_2]
  rintro cs rfl
  exact (hrest.not_number rfl).2.1 rfl

/-- What ends a value is no exponent. -/
theorem readExponent_of_endsValue (hrest : EndsValue rest) :
    readExponent rest = .ok (none, rest) := by
  unfold readExponent
  dsimp only
  split
  case h_1 cs => exact absurd rfl (hrest.not_number rfl).2.2.1
  case h_2 cs => exact absurd rfl (hrest.not_number rfl).2.2.2
  case h_3 => rfl

/-- A whole number of 64 bits is read back from its digits. -/
theorem readUnsigned_toDigits {n : Nat} (hn : n < UInt64.size) (hrest : EndsValue rest) :
    readUnsigned false (Nat.toDigits 10 n ++ rest) = .ok (.ofNat n, rest) := by
  have hvalue : digitsValue (Nat.toDigits 10 n) = n := Nat.ofDigitChars_ten_toDigits
  have hnumber : numberOf false (Nat.toDigits 10 n) [] none = .integer n := by
    simp [numberOf, hvalue, hn]
  unfold readUnsigned
  rw [readWhole_toDigits n hrest]
  change readFraction rest >>= _ = _
  rw [readFraction_of_endsValue hrest]
  change readExponent rest >>= _ = _
  rw [readExponent_of_endsValue hrest]
  change (if (numberOf false (Nat.toDigits 10 n) [] none).isOutOfRange = true then _ else _) = _
  rw [hnumber]
  rfl

theorem isBlank_digit {c : Char} (hc : c.isDigit = true) : isBlank c = false := by
  simp only [isBlank, Bool.or_eq_false_iff, decide_eq_false_iff_not]
  refine ⟨⟨⟨?_, ?_⟩, ?_⟩, ?_⟩ <;> rintro rfl <;> cases hc

/-- What starts with a digit is read as a number. -/
theorem readValue_digit {c : Char} (hc : c.isDigit = true) (cs : List Char) :
    readValue (fuel + 1) depth (c :: cs) = readUnsigned false (c :: cs) := by
  rw [readValue, skipBlank_of_not_blank (isBlank_digit hc)]
  split
  case h_9 c' cs' _ _ _ _ _ _ _ heq =>
    obtain ⟨rfl, rfl⟩ := List.cons.inj heq
    rw [if_pos hc]
  -- each of the other openings is a character that is no digit
  all_goals
    rename_i heq
    cases heq
    try cases hc

/-- The digits of a whole number of 64 bits mean the number. -/
theorem reads_ofNat {n : Nat} (hn : n < UInt64.size) :
    Reads depth (.ofNat n) (Nat.toDigits 10 n) := by
  obtain ⟨d, ds, hdigits⟩ := List.exists_cons_of_ne_nil (Nat.toDigits_ne_nil (n := n) (b := 10))
  have hd : d.isDigit = true :=
    Nat.isDigit_of_mem_toDigits (by decide) (by decide) (hdigits ▸ List.mem_cons_self)
  constructor
  · refine ⟨d, ds, hdigits, isBlank_digit hd, ?_, ?_⟩ <;> rintro rfl <;> cases hd
  · intro rest hrest fuel hfuel
    have hread := readUnsigned_toDigits hn hrest
    rw [hdigits] at hfuel hread ⊢
    obtain ⟨m, rfl, -⟩ := exists_fuel hfuel
    rw [List.cons_append, readValue_digit hd, ← List.cons_append]
    exact hread

/-! ## Strings -/

/-- The characters of a string that is written between quotes. -/
theorem toList_quote (s : String) :
    (quote s).toList = '"' :: (s.toList.flatMap escape ++ ['"']) := String.toList_ofList

/-- A hexadecimal digit is read back. -/
theorem hexDigit?_hexCharacter {n : Nat} (h : n < 16) : hexDigit? (hexCharacter n) = some n := by
  revert h
  revert n
  decide

/-- A control character may be written by its number. -/
theorem readEscape_number {c : Char} (hc : c.toNat < 32) (rest : List Char) :
    readEscape ('u' :: '0' :: '0' :: hexCharacter (c.toNat / 16) :: hexCharacter (c.toNat % 16)
      :: rest) = .ok (c, rest) := by
  have hlong : ¬ Text.byteLength ('0' :: '0' :: hexCharacter (c.toNat / 16)
      :: hexCharacter (c.toNat % 16) :: rest) < 4 := by
    have hsize := fun d : Char => d.utf8Size_pos
    have h1 := hsize (hexCharacter (c.toNat / 16))
    have h2 := hsize (hexCharacter (c.toNat % 16))
    have h0 := hsize '0'
    simp only [Text.byteLength]
    omega
  have hzero : hexDigit? '0' = some 0 := rfl
  have hfirst := hexDigit?_hexCharacter (n := c.toNat / 16) (by omega)
  have hlast := hexDigit?_hexCharacter (n := c.toNat % 16) (by omega)
  have hhex : readHex ('0' :: '0' :: hexCharacter (c.toNat / 16)
      :: hexCharacter (c.toNat % 16) :: rest) = .ok (c.toNat, rest) := by
    rw [readHex, if_neg hlong]
    simp only [hzero, hfirst, hlast]
    congr 2
    omega
  rw [readEscape, readUnicode, hhex]
  change ite _ _ _ = _
  rw [if_neg (by simp; omega), if_neg (by simp; omega), Char.ofNat_toNat]
  rfl

/-- What stands behind a backslash is read as one character. -/
theorem readStringAfter_escaped {c : Char} {cs : List Char} (h : readEscape cs = .ok (c, rest))
    (done : List Char) :
    readStringAfter (fuel + 1) done ('\\' :: cs) = readStringAfter fuel (c :: done) rest := by
  rw [readStringAfter, h]
  rfl

/-- One character of a string, as it is escaped, is read as that character. -/
theorem readStringAfter_escape (c : Char) (done rest : List Char) :
    readStringAfter (fuel + 1) done (escape c ++ rest) = readStringAfter fuel (c :: done) rest := by
  unfold escape
  -- the characters that are escaped by a letter, those that are by number, and the rest
  split_ifs with hquote hback hb hf hn hr ht hcontrol
  · exact readStringAfter_escaped (by rw [hquote]; rfl) done
  · exact readStringAfter_escaped (by rw [hback]; rfl) done
  · exact readStringAfter_escaped (by rw [hb]; rfl) done
  · exact readStringAfter_escaped (by rw [hf]; rfl) done
  · exact readStringAfter_escaped (by rw [hn]; rfl) done
  · exact readStringAfter_escaped (by rw [hr]; rfl) done
  · exact readStringAfter_escaped (by rw [ht]; rfl) done
  · exact readStringAfter_escaped (readEscape_number hcontrol rest) done
  · rw [List.singleton_append, readStringAfter]
    · rw [if_neg hcontrol]
    · exact hquote
    · exact hback

/-- Behind the opening quote, the characters of a string are read up to the closing one. -/
theorem readStringAfter_flatMap (cs done : List Char) (hfuel : cs.length < fuel) :
    readStringAfter fuel done (cs.flatMap escape ++ '"' :: rest)
      = .ok (String.ofList (done.reverse ++ cs), rest) := by
  -- on the characters: each uses up one step of fuel and joins those that are done
  induction cs generalizing fuel done with
  | nil =>
    obtain ⟨n, rfl⟩ : ∃ n, fuel = n + 1 := ⟨fuel - 1, by rw [List.length_nil] at hfuel; omega⟩
    rw [List.append_nil]
    rfl
  | cons c cs ih =>
    rw [List.length_cons] at hfuel
    obtain ⟨n, rfl⟩ : ∃ n, fuel = n + 1 := ⟨fuel - 1, by omega⟩
    rw [List.flatMap_cons, List.append_assoc, readStringAfter_escape, ih _ (by omega),
      List.reverse_cons, List.append_assoc]
    rfl

/-- A string between quotes is at least as long as the string, so its length is fuel enough. -/
theorem length_le_length_flatMap_escape (cs : List Char) :
    cs.length ≤ (cs.flatMap escape).length := by
  have hescape : ∀ c, 0 < (escape c).length := by
    intro c
    unfold escape
    split_ifs <;> exact Nat.succ_pos _
  induction cs with
  | nil => exact Nat.le_refl 0
  | cons c cs ih =>
    have hc := hescape c
    rw [List.flatMap_cons, List.length_append, List.length_cons]
    omega

/-- A string is read back from between its quotes. -/
theorem readString_quoted (s : String) (rest : List Char) :
    readString (s.toList.flatMap escape ++ '"' :: rest) = .ok (s, rest) := by
  have hlength := length_le_length_flatMap_escape s.toList
  rw [readString, readStringAfter_flatMap _ _ (by rw [List.length_append]; omega)]
  rw [List.reverse_nil, List.nil_append, String.ofList_toList]

/-- A string between quotes means the string. -/
theorem reads_str (s : String) : Reads depth (.str s) (quote s).toList := by
  rw [toList_quote]
  apply Reads.of_step (by decide)
  intro n rest
  rw [List.append_assoc, List.singleton_append, readValue]
  change readString _ >>= _ = _
  rw [readString_quoted]
  rfl

end EventSheet.Json
