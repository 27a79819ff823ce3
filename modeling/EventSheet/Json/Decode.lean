import EventSheet.Json.Basic
import EventSheet.NameMap

/-!
Reading library values out of JSON values.

The rules are the same for every record. A member that the record does not know is passed over,
also when it repeats. A known member may occur once. It may be absent only if the record gives it a
default, and `null` is no default. Values of one kind are never taken for values of another. A
record may also be an array of the values of its members, in the order of their names; the last of
them may be absent by the same rule.
-/

set_option autoImplicit false

namespace EventSheet.Json

variable {α β : Type}

/-! ## Members of a record -/

/-- The only member of a name: `none` if the name repeats, `some none` if it is absent. -/
def single? (name : String) (members : List (String × α)) : Option (Option α) :=
  match members.filter fun m => m.1 = name with
  | [] => some none
  | [m] => some (some m.2)
  | _ => none

/-- A member that must be there. -/
def required? (name : String) (decode : α → Option β) (members : List (String × α)) : Option β :=
  match single? name members with
  | some (some v) => decode v
  | _ => none

/-- A member that has a default. -/
def optional? (name : String) (default : β) (decode : α → Option β)
    (members : List (String × α)) : Option β :=
  match single? name members with
  | none => none
  | some none => some default
  | some (some v) => decode v

/-- Values as members, which belong to names in order. There may be fewer values than names. -/
def inOrder? (names : List String) (values : List α) : Option (List (String × α)) :=
  if values.length ≤ names.length then some (names.zip values) else none

/-! ## Values -/

/-- The members of an object. -/
def members? : Json → Option (List (String × Json))
  | .obj members => some members
  | _ => none

/-- The members of a record with names in an order. -/
def record? (names : List String) : Json → Option (List (String × Json))
  | .obj members => some members
  | .arr values => inOrder? names values
  | _ => none

/-- A string. -/
def string? : Json → Option String
  | .str s => some s
  | _ => none

/-- The name of a case that carries nothing: a string, or an object that holds `null` under the name
and nothing else. -/
def caseName? : Json → Option String
  | .str s => some s
  | .obj [(name, .null)] => some name
  | _ => none

/-- A truth value. -/
def bool? : Json → Option Bool
  | .bool b => some b
  | _ => none

/-- An offset: a whole number of 64 bits without sign. -/
def offset? : Json → Option UInt64
  | .num (.integer (.ofNat n)) => if n < UInt64.size then some n.toUInt64 else none
  | _ => none

/-- An array whose items all decode. -/
def list? (decode : Json → Option α) : Json → Option (List α)
  | .arr items => items.mapM decode
  | _ => none

/-- An object as a map, its values all decoding. Of two members of one name the later stays. -/
def map? (decode : Json → Option α) : Json → Option (NameMap α)
  | .obj members =>
    (members.mapM fun m => (decode m.2).map fun v => (m.1, v)).map NameMap.ofList
  | _ => none

/-- A value that may also be `null`. -/
def nullable? (decode : Json → Option α) : Json → Option (Option α)
  | .null => some none
  | v => (decode v).map some

/-- A map as an object, its members in name order. -/
def ofMap (encode : α → Json) (m : NameMap α) : Json :=
  .obj (m.entries.map fun e => (e.1, encode e.2))

/-! ## Repetition and order of members -/

mutual

/-- The value with its members in name order and none repeated; the last of a name stays. -/
def normalized : Json → Json
  | .arr items => .arr (normalizedItems items)
  | .obj members => .obj (NameMap.ofList (normalizedMembers members)).entries
  | v => v

/-- The items of an array, each so. -/
def normalizedItems : List Json → List Json
  | [] => []
  | item :: items => normalized item :: normalizedItems items

/-- Members, the value of each so. -/
def normalizedMembers : List (String × Json) → List (String × Json)
  | [] => []
  | (name, value) :: members => (name, normalized value) :: normalizedMembers members

end

end EventSheet.Json
