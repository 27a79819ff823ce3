import EventSheet.Proofs.NameMap
import EventSheet.Proofs.Suggestion.Scores

/-!
The names that are suggested.

A ranking is a sorted list that is cut off. `AreFirst` says which names are left without sorting
anything: they are in order, they are near enough, and what is near enough and not among them comes
after all of them and is left out for the number only. That fits one list of names only
(`areFirst_iff`), whatever the order is in which the visible names are gone through.
-/

set_option autoImplicit false

namespace EventSheet.Ranking

/-! ## The order of names -/

/-- A name is suggested before another one: its score is higher, or the scores are the same and it
comes first in the order of names. -/
def Precedes (score : String → Float) (a b : String) : Prop :=
  score b < score a ∨ score a = score b ∧ a < b

/-- Names are the first few, in their order, of those visible ones whose score reaches the
threshold. -/
structure AreFirst (score : String → Float) (visible : String → Prop) (names : List String) :
    Prop where
  /-- They are in order. -/
  ordered : names.Pairwise (Precedes score)
  /-- They are visible, and near enough. -/
  near : ∀ name ∈ names, visible name ∧ threshold ≤ score name
  /-- They are few. -/
  few : names.length ≤ maxSuggestions
  /-- What is near enough beside them is left out for their number, and comes after them. -/
  others : ∀ name, visible name → threshold ≤ score name → name ∉ names →
    names.length = maxSuggestions ∧ ∀ first ∈ names, Precedes score first name

/-- What a name is suggested with. -/
def suggestion (score : String → Float) (name : String) : Suggestion :=
  ⟨"did you mean", name, (score name).toFloat32⟩

variable {score : String → Float} {visible : String → Prop} {a b : String}

/-- The higher score comes first, and of the same scores the first name. -/
theorem notAfter_iff {a b : Scored} :
    a.notAfter b = true ↔ orderKey b.score < orderKey a.score
      ∨ orderKey a.score = orderKey b.score ∧ a.name ≤ b.name := by
  simp only [Scored.notAfter, Bool.or_eq_true, Bool.and_eq_true, decide_eq_true_eq]

/-- Of any two names one does not come after the other. -/
theorem notAfter_total (a b : Scored) : a.notAfter b = true ∨ b.notAfter a = true := by
  rw [notAfter_iff, notAfter_iff]
  rcases Int.lt_trichotomy (orderKey a.score) (orderKey b.score) with hlt | heq | hgt
  · exact Or.inr (Or.inl hlt)
  · rcases String.le_total a.name b.name with hname | hname
    · exact Or.inl (Or.inr ⟨heq, hname⟩)
    · exact Or.inr (Or.inr ⟨heq.symm, hname⟩)
  · exact Or.inl (Or.inl hgt)

/-- What does not come after a name does not come after what follows it. -/
theorem notAfter_trans (a b c : Scored) (hab : a.notAfter b = true) (hbc : b.notAfter c = true) :
    a.notAfter c = true := by
  rw [notAfter_iff] at hab hbc ⊢
  rcases hab with hab | ⟨hab, hname⟩
  · rcases hbc with hbc | ⟨hbc, -⟩ <;> left <;> omega
  · rcases hbc with hbc | ⟨hbc, hname'⟩
    · left
      omega
    · exact Or.inr ⟨hab.trans hbc, String.le_trans hname hname'⟩

/-- Among scores that reach the threshold, names are ranked in the order of floats. -/
theorem precedes_iff (ha : threshold ≤ score a) (hb : threshold ≤ score b) :
    Precedes score a b ↔ orderKey (score b) < orderKey (score a)
      ∨ orderKey (score a) = orderKey (score b) ∧ a < b := by
  have heq : orderKey (score a) = orderKey (score b) ↔ score a = score b :=
    ⟨eq_of_orderKey_eq, congrArg orderKey⟩
  rw [Precedes, orderKey_lt_iff hb ha, heq]

/-- Of two names that are near enough only one comes first. -/
theorem Precedes.asymm (ha : threshold ≤ score a) (hb : threshold ≤ score b)
    (hab : Precedes score a b) : ¬ Precedes score b a := by
  rw [precedes_iff ha hb] at hab
  rw [precedes_iff hb ha]
  -- it cannot be less and greater, neither in score nor in name
  rintro (hlt | ⟨heq, hname⟩)
  · omega
  · have hname' : a < b := by
      rcases hab with hlt | ⟨-, hname'⟩
      · omega
      · exact hname'
    exact String.lt_irrefl a (String.lt_trans hname' hname)

/-! ## The first few -/

/-- Names in order are distinct. -/
theorem nodup_of_ordered {names : List String} (hnear : ∀ name ∈ names, threshold ≤ score name)
    (hordered : names.Pairwise (Precedes score)) : names.Nodup := by
  apply hordered.imp_of_mem
  rintro a b ha hb hab rfl
  exact hab.asymm (hnear a ha) (hnear a ha) hab

/-- Two lists in order are one, if the same names stand in them and are near enough. -/
theorem eq_of_ordered {names others : List String} (hnear : ∀ name ∈ others, threshold ≤ score name)
    (hmem : ∀ name, name ∈ names ↔ name ∈ others) (hnames : names.Pairwise (Precedes score))
    (hothers : others.Pairwise (Precedes score)) : names = others := by
  have hnear' : ∀ name ∈ names, threshold ≤ score name := fun name hname =>
    hnear name ((hmem name).mp hname)
  have hperm : names.Perm others :=
    (List.perm_ext_iff_of_nodup (nodup_of_ordered hnear' hnames)
      (nodup_of_ordered hnear hothers)).mpr hmem
  exact hperm.eq_of_pairwise (fun a b ha hb hab hba =>
    absurd hba (hab.asymm (hnear' a ha) (hnear b hb))) hnames hothers

section Front

variable {all names : List String}
  (hall : ∀ name, name ∈ all ↔ visible name ∧ threshold ≤ score name)
  (hordered : all.Pairwise (Precedes score))
include hall hordered

/-- The first few names and behind them the others, in order, are all names in order. -/
theorem AreFirst.append_others (h : AreFirst score visible names) :
    names ++ all.filter (fun name => name ∉ names) = all := by
  have hrest : ∀ name, name ∈ all.filter (fun name => name ∉ names)
      ↔ name ∈ all ∧ name ∉ names := fun name => by rw [List.mem_filter, decide_eq_true_eq]
  have hlater : ∀ first ∈ names, ∀ name ∈ all.filter (fun name => name ∉ names),
      Precedes score first name := by
    intro first hfirst name hname
    obtain ⟨hin, hother⟩ := (hrest name).mp hname
    obtain ⟨hvisible, hnear⟩ := (hall name).mp hin
    exact (h.others name hvisible hnear hother).2 first hfirst
  have hmem : ∀ name, name ∈ names ++ all.filter (fun name => name ∉ names) ↔ name ∈ all := by
    intro name
    rw [List.mem_append, hrest]
    by_cases hname : name ∈ names
    · have hin : name ∈ all := (hall name).mpr (h.near name hname)
      simp [hname, hin]
    · simp [hname]
  -- both lists are in order and have the same names
  exact eq_of_ordered (fun name hname => ((hall name).mp hname).2) hmem
    (List.pairwise_append.mpr ⟨h.ordered, hordered.filter _, hlater⟩) hordered

/-- The first few names are those at the front. -/
theorem AreFirst.eq_take (h : AreFirst score visible names) : names = all.take maxSuggestions := by
  have heq := h.append_others hall hordered
  by_cases hfull : names.length = maxSuggestions
  · rw [← heq, ← hfull, List.take_left]
  · -- no name is left out, so the first few are all names
    have hnone : all.filter (fun name => name ∉ names) = [] := by
      apply List.filter_eq_nil_iff.mpr
      intro name hname hother
      obtain ⟨hvisible, hnear⟩ := (hall name).mp hname
      exact hfull (h.others name hvisible hnear (of_decide_eq_true hother)).1
    rw [hnone, List.append_nil] at heq
    rw [← heq, List.take_of_length_le h.few]

/-- Those at the front are the first few. -/
theorem areFirst_take : AreFirst score visible (all.take maxSuggestions) := by
  have hsplit := hordered
  rw [← List.take_append_drop maxSuggestions all, List.pairwise_append] at hsplit
  obtain ⟨hfirst, -, hlater⟩ := hsplit
  refine ⟨hfirst, fun name hname => (hall name).mp (List.mem_of_mem_take hname),
    List.length_take_le _ _, ?_⟩
  intro name hvisible hnear hother
  have hin : name ∈ all := (hall name).mpr ⟨hvisible, hnear⟩
  -- a name that is not among the first few stands behind them, so there are more than those
  have hdrop : name ∈ all.drop maxSuggestions := by
    rw [← List.take_append_drop maxSuggestions all, List.mem_append] at hin
    exact hin.resolve_left hother
  have hlong : maxSuggestions < all.length := by
    have hpos := List.length_pos_of_mem hdrop
    rw [List.length_drop] at hpos
    omega
  refine ⟨?_, fun first hmem => hlater first hmem name hdrop⟩
  rw [List.length_take]
  omega

/-- If all names that are near enough are put in order, the first few are those at its front. -/
theorem areFirst_iff : AreFirst score visible names ↔ names = all.take maxSuggestions := by
  constructor
  · exact fun h => h.eq_take hall hordered
  · rintro rfl
    exact areFirst_take hall hordered

end Front

/-! ## The ranking -/

/-- The names that are near enough, with their scores, ranked. -/
def ranked (score : String → Float) (visible : List String) : List Scored :=
  rank ((visible.map fun name => ⟨name, score name⟩).filter fun s => s.score ≥ threshold)

/-- What is ranked are the names that are near enough, each with its score. -/
theorem mem_ranked_iff {visible : List String} {s : Scored} :
    s ∈ ranked score visible
      ↔ s.name ∈ visible ∧ threshold ≤ score s.name ∧ s.score = score s.name := by
  rw [ranked, rank, (Sorting.sortBy_perm _ _).mem_iff, List.mem_filter, List.mem_map,
    decide_eq_true_eq]
  constructor
  · rintro ⟨⟨name, hname, rfl⟩, hnear⟩
    exact ⟨hname, hnear, rfl⟩
  · rintro ⟨hname, hnear, hscore⟩
    rw [hscore]
    exact ⟨⟨s.name, hname, by rw [← hscore]⟩, hnear⟩

/-- The names of a ranking are in order, if each name is visible once. -/
theorem names_ranked_ordered {visible : List String} (hnodup : visible.Nodup) :
    ((ranked score visible).map Scored.name).Pairwise (Precedes score) := by
  have hperm : (ranked score visible).Perm
      ((visible.map fun name => ⟨name, score name⟩).filter fun s => s.score ≥ threshold) :=
    Sorting.sortBy_perm _ _
  have hnames : ((ranked score visible).map Scored.name).Nodup := by
    rw [(hperm.map Scored.name).nodup_iff]
    refine List.Nodup.sublist (List.Sublist.map Scored.name List.filter_sublist) ?_
    rw [List.map_map]
    exact (List.map_id visible).symm ▸ hnodup
  have hsorted : (ranked score visible).Pairwise fun a b => a.notAfter b = true :=
    Sorting.sortBy_pairwise notAfter_total notAfter_trans _
  rw [List.pairwise_map]
  refine (hsorted.and (List.pairwise_map.mp hnames)).imp_of_mem ?_
  rintro a b ha hb ⟨hab, hne⟩
  obtain ⟨-, hnear, hscore⟩ := mem_ranked_iff.mp ha
  obtain ⟨-, hnear', hscore'⟩ := mem_ranked_iff.mp hb
  -- the order of the ranking is not strict, but no name occurs twice
  rw [notAfter_iff, hscore, hscore'] at hab
  rw [precedes_iff hnear hnear']
  refine hab.imp_right fun ⟨hsame, hle⟩ => ⟨hsame, ?_⟩
  exact String.not_le.mp fun hge => hne (String.le_antisymm hle hge)

/-- What is suggested are the first few of the visible names, if each of these is listed once. -/
theorem exists_suggest_eq (likeness : String → String → Float) (written : String)
    {listing : List String} (hnodup : listing.Nodup)
    (hlisting : ∀ name, name ∈ listing ↔ visible name) :
    ∃ names, suggest likeness written listing = names.map (suggestion (likeness written))
      ∧ ∀ others, AreFirst (likeness written) visible others ↔ others = names := by
  refine ⟨((ranked (likeness written) listing).map Scored.name).take maxSuggestions, ?_, ?_⟩
  · rw [suggest, ← List.map_take, List.map_map]
    apply List.map_congr_left
    intro s hs
    obtain ⟨-, -, hscore⟩ := mem_ranked_iff.mp (List.mem_of_mem_take hs)
    rw [Function.comp_apply, suggestion, hscore]
  · intro others
    refine areFirst_iff ?_ (names_ranked_ordered hnodup)
    intro name
    rw [List.mem_map, ← hlisting]
    constructor
    · rintro ⟨s, hs, rfl⟩
      obtain ⟨hvisible, hnear, -⟩ := mem_ranked_iff.mp hs
      exact ⟨hvisible, hnear⟩
    · rintro ⟨hvisible, hnear⟩
      exact ⟨⟨name, likeness written name⟩, mem_ranked_iff.mpr ⟨hvisible, hnear, rfl⟩, rfl⟩

end EventSheet.Ranking
