/-!
How alike two names are: the Jaro measure, and the Jaro–Winkler measure that favours a common start.

Both lie between zero and one. The Jaro measure counts characters that the names share at about the
same place, and how many of these are out of order.
-/

set_option autoImplicit false

namespace EventSheet.Likeness

/-! ## Shared characters -/

/-- A character and whether it has found a partner. -/
abbrev Marked := Char × Bool

/-- Marks the first character between two indices that equals a given one and has no partner yet.
The list starts at index `i`. -/
def markPartner (c : Char) (low high : Nat) : Nat → List Marked → Option (List Marked)
  | _, [] => none
  | i, (d, used) :: rest =>
    if low ≤ i && i ≤ high && d = c && !used then some ((d, true) :: rest)
    else (markPartner c low high (i + 1) rest).map ((d, used) :: ·)

/-- Pairs the characters of one name, from index `i` on, with those of another. Gives the characters
that found a partner, and the other name with its partners marked. -/
def pairUp (range : Nat) : Nat → List Char → List Marked → List Char × List Marked
  | _, [], marks => ([], marks)
  | i, c :: cs, marks =>
    match markPartner c (i - range) (i + range) 0 marks with
    | some marks =>
      let (paired, marks) := pairUp range (i + 1) cs marks
      (c :: paired, marks)
    | none => pairUp range (i + 1) cs marks

/-- How far apart two partners may stand. -/
def partnerRange (a b : List Char) : Nat := max a.length b.length / 2 - 1

/-! ## The measures -/

/-- The Jaro measure of two texts. -/
def jaro (a b : List Char) : Float :=
  if a.isEmpty && b.isEmpty then 1
  else if a.isEmpty || b.isEmpty then 0
  else
    let (paired, marks) := pairUp (partnerRange a b) 0 a (b.map fun c => (c, false))
    let partners := (marks.filter Prod.snd).map Prod.fst
    let shared := paired.length
    let misplaced := ((paired.zip partners).filter fun p => p.1 ≠ p.2).length / 2
    if shared = 0 then 0
    else
      let m := shared.toFloat
      ((m / a.length.toFloat + m / b.length.toFloat) + (m - misplaced.toFloat) / m) / 3

/-- The length of the common start of two texts, at most a given number. -/
def commonStart : Nat → List Char → List Char → Nat
  | n + 1, a :: as, b :: bs => if a = b then commonStart n as bs + 1 else 0
  | _, _, _ => 0

/-- The Jaro–Winkler measure of two names. -/
def jaroWinkler (a b : String) : Float :=
  let a := a.toList
  let b := b.toList
  let base := jaro a b
  if base > 0.7 then base + 0.1 * (commonStart 4 a b).toFloat * (1 - base) else base

end EventSheet.Likeness
