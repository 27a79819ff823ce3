import EventSheet.Diagnostic
import EventSheet.Sorting

/-!
Choosing the names to suggest for one that is unknown.

Each visible name gets a score against the written one. Those with a score that is high enough are
ranked, the highest score first and equal scores in name order, and the first few are suggested. How
names are scored is left open here.
-/

set_option autoImplicit false

namespace EventSheet.Ranking

/-! ## Order of scores -/

/-- The place of a float in the total order of all floats: the bits of a float without sign ascend
with it, those of a float with sign descend. -/
def orderKey (x : Float) : Int :=
  let bits := x.toBits.toNat
  let half := UInt64.size / 2
  if bits < half then bits else -((bits - half : Nat) : Int) - 1

/-- A name with its score. -/
structure Scored where
  /-- The name. -/
  name : String
  /-- Its likeness to the written name. -/
  score : Float

/-- Whether one scored name is ranked no later than another. -/
def Scored.notAfter (a b : Scored) : Bool :=
  let ka := orderKey a.score
  let kb := orderKey b.score
  kb < ka || (ka = kb && a.name ≤ b.name)

/-! ## Ranking -/

/-- Ranks scored names. -/
def rank (l : List Scored) : List Scored := Sorting.sortBy Scored.notAfter l

/-- The least score that makes a name worth suggesting. -/
def threshold : Float := 0.8

/-- The greatest number of names that are suggested. -/
def maxSuggestions : Nat := 3

/-- The suggestions for a written name out of the visible names. -/
def suggest (likeness : String → String → Float) (written : String) (visible : List String) :
    List Suggestion :=
  let scored := visible.map fun name => (⟨name, likeness written name⟩ : Scored)
  let near := scored.filter fun s => s.score ≥ threshold
  ((rank near).take maxSuggestions).map fun s =>
    ⟨"did you mean", s.name, s.score.toFloat32⟩

end EventSheet.Ranking
