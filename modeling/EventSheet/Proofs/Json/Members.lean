import EventSheet.Json.Decode
import EventSheet.Proofs.NameMap

/-!
Members of records, and what reading them gives.

A record reads its members by name and looks at nothing else. So what it reads is settled by two
things for each name it knows: a value stands under the name, once (`Has`), or no member has the
name (`Lacks`). Neither depends on where the member stands or on members of other names
(`filter_insert`).
-/

set_option autoImplicit false

namespace EventSheet.Json

variable {α β : Type}

/-! ## Members of a name -/

/-- Whether just one member has a name, and holds a value. -/
def Has (members : List (String × α)) (name : String) (v : α) : Prop :=
  members.filter (fun m => m.1 = name) = [(name, v)]

/-- Whether no member has a name. -/
def Lacks (members : List (String × α)) (name : String) : Prop :=
  members.filter (fun m => m.1 = name) = []

/-- Whether a value stands under a name, or the member may be left out and is. -/
def HasUnless (mayLack : Prop) (members : List (String × α)) (name : String) (v : α) : Prop :=
  Has members name v ∨ mayLack ∧ Lacks members name

section

variable {members before later : List (String × α)} {name : String} {v : α} {m : String × α}
  {mayLack : Prop}

/-- A member of another name may stand anywhere. -/
theorem filter_insert (hm : m.1 ≠ name) :
    (before ++ m :: later).filter (fun m => m.1 = name)
      = (before ++ later).filter fun m => m.1 = name := by
  rw [List.filter_append, List.filter_cons_of_neg (by simpa using hm), List.filter_append]

/-- Members of other names do not matter to a member that may lack. -/
theorem HasUnless.congr {others : List (String × α)} (h : HasUnless mayLack members name v)
    (hsame : others.filter (fun m => m.1 = name) = members.filter fun m => m.1 = name) :
    HasUnless mayLack others name v :=
  h.imp hsame.trans fun ⟨hmay, hlacks⟩ => ⟨hmay, hsame.trans hlacks⟩

/-- No member has a name exactly if neither the first nor one of the others has. -/
theorem lacks_cons_iff : Lacks (m :: members) name ↔ m.1 ≠ name ∧ Lacks members name := by
  rw [Lacks, Lacks]
  by_cases hm : m.1 = name
  · simp [hm]
  · simp [hm]

/-- The one member of a name comes first, or among the others. -/
theorem Has.of_cons (h : Has (m :: members) name v) :
    m = (name, v) ∧ Lacks members name ∨ m.1 ≠ name ∧ Has members name v := by
  rw [Has] at h
  by_cases hm : m.1 = name
  · rw [List.filter_cons_of_pos (by simpa using hm)] at h
    exact .inl (List.cons.inj h)
  · rw [List.filter_cons_of_neg (by simpa using hm)] at h
    exact .inr ⟨hm, h⟩

/-- The members without those of a name. -/
def without (name : String) (members : List (String × α)) : List (String × α) :=
  members.filter fun m => m.1 ≠ name

/-- Leaving out the members of a name keeps those of another. -/
theorem filter_without {left : String} (hne : name ≠ left) :
    (without left members).filter (fun m => m.1 = name)
      = members.filter fun m => m.1 = name := by
  rw [without, List.filter_filter]
  refine List.filter_congr fun m _ => ?_
  by_cases hm : m.1 = name
  · simp [hm, hne]
  · simp [hm]

/-- A member stays if one of another name is left out. -/
theorem Has.without {left : String} (h : Has members name v) (hne : name ≠ left) :
    Has (without left members) name v := (filter_without hne).trans h

/-- What is left out is no longer there. -/
theorem lacks_without : Lacks (without name members) name := by
  rw [Lacks, Json.without, List.filter_filter, List.filter_eq_nil_iff]
  simp

/-- A member that may lack still does its part where a member is left out, be it this one. -/
theorem HasUnless.without {left : String} (h : HasUnless mayLack members name v)
    (hleft : left = name → mayLack) : HasUnless mayLack (without left members) name v := by
  -- the member itself is left out, which it has to allow, or another one is
  by_cases hne : name = left
  · subst hne
    exact .inr ⟨hleft rfl, lacks_without⟩
  · exact h.congr (filter_without hne)

/-- What stands under a name still does if all values are replaced. -/
theorem filter_map_values (f : α → β) :
    (members.map fun m => (m.1, f m.2)).filter (fun m => m.1 = name)
      = (members.filter fun m => m.1 = name).map fun m => (m.1, f m.2) := by
  rw [List.filter_map]
  rfl

theorem Has.map (h : Has members name v) (f : α → β) :
    Has (members.map fun m => (m.1, f m.2)) name (f v) := by
  rw [Has, filter_map_values, h]
  rfl

theorem Lacks.map (h : Lacks members name) (f : α → β) :
    Lacks (members.map fun m => (m.1, f m.2)) name := by
  rw [Lacks, filter_map_values, h]
  rfl

theorem HasUnless.map (h : HasUnless mayLack members name v) (f : α → β) :
    HasUnless mayLack (members.map fun m => (m.1, f m.2)) name (f v) :=
  h.imp (fun hhas => hhas.map f) fun ⟨hmay, hlacks⟩ => ⟨hmay, hlacks.map f⟩

/-! ## Reading a member -/

theorem Has.single? (h : Has members name v) : single? name members = some (some v) := by
  rw [Json.single?, h]

theorem Lacks.single? (h : Lacks members name) : Json.single? name members = some none := by
  rw [Json.single?, h]

variable {decode : α → Option β} {default b : β}

/-- A member that has to be there is decoded. -/
theorem Has.required? (h : Has members name v) : required? name decode members = decode v := by
  rw [Json.required?, h.single?]

/-- A member that may lack is decoded where it is there. -/
theorem Has.optional? (h : Has members name v) :
    optional? name default decode members = decode v := by
  rw [Json.optional?, h.single?]

/-- A member that may be left out where its value is the default reads alike in both cases. -/
theorem HasUnless.optional? (h : HasUnless mayLack members name v) (hdecode : decode v = some b)
    (hdefault : mayLack → b = default) : Json.optional? name default decode members = some b := by
  rcases h with hhas | ⟨hmay, hlacks⟩
  · rw [hhas.optional?, hdecode]
  · rw [Json.optional?, hlacks.single?, hdefault hmay]

end

end EventSheet.Json
