/-!
Sorting by insertion.

An element goes before the first one that it is not after, so elements that an order does not tell
apart keep their places.
-/

set_option autoImplicit false

namespace EventSheet.Sorting

variable {α : Type}

/-- Puts an element at its place in a sorted list. -/
def insertBy (notAfter : α → α → Bool) (a : α) : List α → List α
  | [] => [a]
  | b :: rest => if notAfter a b then a :: b :: rest else b :: insertBy notAfter a rest

/-- Sorts a list. -/
def sortBy (notAfter : α → α → Bool) (l : List α) : List α := l.foldr (insertBy notAfter) []

/-! ## Nothing is lost or added -/

theorem insertBy_perm (notAfter : α → α → Bool) (a : α) (l : List α) :
    (insertBy notAfter a l).Perm (a :: l) := by
  induction l with
  | nil => exact List.Perm.refl _
  | cons b rest ih =>
    rw [insertBy]
    split
    · exact List.Perm.refl _
    · exact (ih.cons b).trans (List.Perm.swap a b rest)

/-- The sorted list has the elements of the list, each as often. -/
theorem sortBy_perm (notAfter : α → α → Bool) (l : List α) : (sortBy notAfter l).Perm l := by
  induction l with
  | nil => exact List.Perm.refl _
  | cons a rest ih => exact (insertBy_perm notAfter a _).trans (ih.cons a)

/-! ## The elements are in order -/

variable {notAfter : α → α → Bool}

/-- What may stand in front of a list in order, and of an element, may stand in front of both. -/
theorem insertBy_pairwise (htotal : ∀ a b, notAfter a b = true ∨ notAfter b a = true)
    (htrans : ∀ a b c, notAfter a b = true → notAfter b c = true → notAfter a c = true) (a : α)
    {l : List α} (hl : l.Pairwise fun a b => notAfter a b = true) :
    (insertBy notAfter a l).Pairwise fun a b => notAfter a b = true := by
  induction l with
  | nil => exact List.pairwise_singleton _ a
  | cons b rest ih =>
    obtain ⟨hb, hrest⟩ := List.pairwise_cons.mp hl
    rw [insertBy]
    split
    case isTrue hab =>
      refine List.pairwise_cons.mpr ⟨?_, hl⟩
      intro x hx
      rcases List.mem_cons.mp hx with rfl | hx
      · exact hab
      · exact htrans a b x hab (hb x hx)
    case isFalse hab =>
      have hba : notAfter b a = true := (htotal a b).resolve_left hab
      refine List.pairwise_cons.mpr ⟨?_, ih hrest⟩
      intro x hx
      rcases List.mem_cons.mp ((insertBy_perm notAfter a rest).mem_iff.mp hx) with rfl | hx
      · exact hba
      · exact hb x hx

/-- The sorted list is in order. -/
theorem sortBy_pairwise (htotal : ∀ a b, notAfter a b = true ∨ notAfter b a = true)
    (htrans : ∀ a b c, notAfter a b = true → notAfter b c = true → notAfter a c = true)
    (l : List α) : (sortBy notAfter l).Pairwise fun a b => notAfter a b = true := by
  induction l with
  | nil => exact List.Pairwise.nil
  | cons a rest ih => exact insertBy_pairwise htotal htrans a ih

end EventSheet.Sorting
