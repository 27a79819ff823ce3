import EventSheet.Registry

/-!
Looking a function up, table by table.

A look-up goes through the table of the owner and then through the table that stands for all owners
of its sort. `Registry.lookup_eq` says so without the list of tables: what an owner has is what is
declared for it, or else what is declared for its base.
-/

set_option autoImplicit false

namespace EventSheet

/-- What stands for all owners of a sort. -/
def Owner.base : Owner → Owner
  | .global => .global
  | .object _ => .object ""
  | .behavior _ => .behavior ""

/-- What stands for all of a sort is of that sort. -/
@[simp] theorem Owner.sort_base (o : Owner) : o.base.sort = o.sort := by
  cases o <;> rfl

namespace Registry

/-- A look-up for an owner asks the owner and its base. -/
theorem mem_lookupOwners_iff {o owner : Owner} :
    o ∈ lookupOwners owner ↔ o = owner ∨ o = owner.base := by
  cases owner <;> simp [lookupOwners, Owner.base]

/-- The function of a name that is declared for an owner itself. -/
def declared? (r : Registry) (kind : Kind) (owner : Owner) (name : String) : Option Signature :=
  (r.functions? owner).bind fun table => (table.get kind).get? name

/-- A look-up over tables is one over owners: an owner without a table declares nothing. -/
theorem findSome?_functions (r : Registry) (kind : Kind) (name : String) (owners : List Owner) :
    (owners.filterMap r.functions?).findSome? (fun table => (table.get kind).get? name)
      = owners.findSome? fun owner => r.declared? kind owner name := by
  induction owners with
  | nil => rfl
  | cons owner owners ih =>
    rw [List.filterMap_cons, List.findSome?_cons, declared?]
    -- an owner without a table is left out on one side and finds nothing on the other
    rcases r.functions? owner with _ | table
    · exact ih
    · dsimp only [Option.bind_some]
      rw [List.findSome?_cons, ih]

/-- A look-up finds what is declared for the owner, or else what is declared for its base. -/
theorem lookup_eq (r : Registry) (kind : Kind) (owner : Owner) (name : String) :
    r.lookup kind owner name
      = (r.declared? kind owner name).or (r.declared? kind owner.base name) := by
  unfold lookup chain
  rw [findSome?_functions]
  cases owner with
  | global =>
    rw [lookupOwners, Owner.base, List.findSome?_cons, List.findSome?_nil]
    cases r.declared? kind .global name <;> rfl
  | object type | behavior type =>
    rw [lookupOwners, Owner.base, List.findSome?_cons, List.findSome?_cons, List.findSome?_nil]
    split
    · simp [*]
    · split <;> simp [*]

/-- The exact form of a look-up that finds something: the owner's own function hides that of the
base. -/
theorem lookup_eq_some_iff (r : Registry) (kind : Kind) (owner : Owner) (name : String)
    (signature : Signature) :
    r.lookup kind owner name = some signature ↔
      r.declared? kind owner name = some signature
        ∨ r.declared? kind owner name = none
          ∧ r.declared? kind owner.base name = some signature := by
  rw [lookup_eq, Option.or_eq_some_iff]

end Registry

end EventSheet
