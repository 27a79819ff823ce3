import EventSheet.Proofs.Catalog.Contents
import EventSheet.Proofs.Registry.Registrations

/-!
Which copies of a catalog are made.

A copy is made if there is a function at its source when its turn comes, declared or itself a copy
made before. So the keys that have a function can be told from the catalog alone, copy by copy
(`Catalog.keysAfter`), and with them what each copy warns about (`Catalog.warningsOf`).
-/

set_option autoImplicit false

namespace EventSheet

/-! ## Keys -/

/-- The keys that have a function after a copy, where those are known that have one before. -/
def Copy.fill (keys : List FunctionKey) (d : Copy) : List FunctionKey :=
  if d.sourceKey ∈ keys then d.target :: keys else keys

/-- A copy adds its target, if there is something at its source. -/
theorem Copy.mem_fill_iff {keys : List FunctionKey} {d : Copy} {key : FunctionKey} :
    key ∈ d.fill keys ↔ key ∈ keys ∨ d.target = key ∧ d.sourceKey ∈ keys := by
  unfold fill
  by_cases hsource : d.sourceKey ∈ keys
  · rw [if_pos hsource, List.mem_cons, or_comm, eq_comm]
    simp only [hsource, and_true]
  · rw [if_neg hsource]
    simp only [hsource, and_false, or_false]

namespace Catalog

/-- The keys of the functions that a catalog declares. -/
def declaredKeys (c : Catalog) : List FunctionKey := c.functionBindings.map Prod.fst

/-- The keys that have a function once some copies are made. -/
def keysAfter (c : Catalog) (made : List Copy) : List FunctionKey :=
  made.foldl Copy.fill c.declaredKeys

variable {c : Catalog}

/-- A key has a function if it is declared, or if a copy put one there whose source had a function
then. -/
theorem mem_keysAfter_iff {made : List Copy} {key : FunctionKey} :
    key ∈ c.keysAfter made ↔ key ∈ c.declaredKeys
      ∨ ∃ before d after, made = before ++ d :: after
        ∧ d.target = key ∧ d.sourceKey ∈ c.keysAfter before :=
  foldl_iff (P := fun keys => key ∈ keys)
    (C := fun keys (d : Copy) => d.target = key ∧ d.sourceKey ∈ keys)
    (fun _ _ => Copy.mem_fill_iff) c.declaredKeys made

theorem keysAfter_concat (made : List Copy) (d : Copy) :
    c.keysAfter (made ++ [d]) = d.fill (c.keysAfter made) := by
  rw [keysAfter, List.foldl_append]
  rfl

/-- What a copy warns about when some copies are made already: that there is nothing to copy. -/
def warningsOf (c : Catalog) (made : List Copy) (d : Copy) : List RegistryWarning :=
  if d.sourceKey ∈ c.keysAfter made then []
  else [.nothingToCopy d.target.kind d.source d.target.owner]

end Catalog

/-! ## Copies in a registry -/

namespace Registry

variable {c : Catalog} {r : Registry}

/-- Some keys are those that have a function in a registry. -/
def HasKeys (r : Registry) (keys : List FunctionKey) : Prop :=
  ∀ key, key ∈ keys ↔ r.find? key ≠ none

/-- Where the declared functions are registered and no others, their keys have functions. -/
theorem hasKeys_declaredKeys
    (h : ∀ key s, r.find? key = some s ↔ (key, s) ∈ c.functionBindings) :
    r.HasKeys c.declaredKeys := by
  intro key
  rw [Option.ne_none_iff_exists', Catalog.declaredKeys, List.mem_map]
  constructor
  · rintro ⟨⟨key, s⟩, hmem, rfl⟩
    exact ⟨s, (h key s).mpr hmem⟩
  · rintro ⟨s, hs⟩
    exact ⟨(key, s), (h key s).mp hs, rfl⟩

/-- A copy in the registry fills what it fills among the keys. -/
theorem HasKeys.copy {keys : List FunctionKey} (h : r.HasKeys keys) (d : Copy) :
    (r.copy d).HasKeys (d.fill keys) := by
  intro key
  have hcopy := r.find?_duplicateEntry_ne_none_iff d.target.owner d.target.kind d.target.name
    d.source key
  rw [Copy.mem_fill_iff, h key, h d.sourceKey]
  exact hcopy.symm

/-- Many copies in the registry fill what they fill among the keys. -/
theorem HasKeys.foldl_copy {keys : List FunctionKey} (h : r.HasKeys keys) (made : List Copy) :
    (made.foldl Registry.copy r).HasKeys (made.foldl Copy.fill keys) := by
  induction made generalizing r keys with
  | nil => exact h
  | cons d made ih => exact ih (h.copy d)

/-- A copy takes no owner away. -/
theorem registered_copy {owner : Owner} (h : r.Registered owner) (d : Copy) :
    (r.copy d).Registered owner :=
  (r.change_duplicateEntry d.target.owner d.target.kind d.target.name d.source).registered h

/-- One copy for a registered owner warns if its source is missing. -/
theorem addCopy_eq {made : List Copy} {acc : Registry × List RegistryWarning}
    (hkeys : acc.1.HasKeys (c.keysAfter made)) {d : Copy}
    (howner : acc.1.Registered d.target.owner) :
    addCopy acc d = (acc.1.copy d, acc.2 ++ c.warningsOf made d) := by
  rw [addCopy, Catalog.warningsOf]
  -- there is nothing at the source, or the copy is made
  rcases acc.1.duplicateEntry_cases d.target.owner d.target.kind d.target.name d.source with
    ⟨hsource, w, hsame, hw⟩ | ⟨table, signature, -, hsource, hcopied⟩
  · have hmissing : d.sourceKey ∉ c.keysAfter made := fun hmem => (hkeys _).mp hmem hsource
    rw [hsame, if_neg hmissing, hw howner]
  · have hthere : d.sourceKey ∈ c.keysAfter made :=
      (hkeys _).mpr (Option.ne_none_iff_exists'.mpr ⟨signature, hsource⟩)
    rw [hcopied, if_pos hthere]

/-- Copies for registered owners warn one by one. The induction is on the copies that are left, with
those already made in front. -/
theorem foldl_addCopy_snd (made : List Copy) (acc : Registry × List RegistryWarning)
    {rest : List Copy} (hkeys : acc.1.HasKeys (c.keysAfter made))
    (howners : ∀ d ∈ rest, acc.1.Registered d.target.owner) :
    (rest.foldl addCopy acc).2 = acc.2 ++ (rest.zipIdx made.length).flatMap fun e =>
      c.warningsOf ((made ++ rest).take e.2) e.1 := by
  induction rest generalizing made acc with
  | nil => simp
  | cons d rest ih =>
    obtain ⟨howner, hrest⟩ := List.forall_mem_cons.mp howners
    have hkeys' : (acc.1.copy d).HasKeys (c.keysAfter (made ++ [d])) := by
      rw [Catalog.keysAfter_concat]
      exact hkeys.copy d
    have hmade : (made ++ d :: rest).take made.length = made := List.take_left
    have hafter := ih (made ++ [d]) (acc.1.copy d, acc.2 ++ c.warningsOf made d) hkeys'
      fun d' hd' => registered_copy (hrest d' hd') d
    rw [List.length_append, List.append_assoc] at hafter
    rw [List.foldl_cons, addCopy_eq hkeys howner, hafter, List.zipIdx_cons, List.flatMap_cons,
      hmade, List.append_assoc]
    rfl

end Registry

end EventSheet
