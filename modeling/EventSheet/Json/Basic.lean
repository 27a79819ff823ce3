/-!
JSON values.

Members of an object keep their order and may repeat a name: whether a repetition is an error
depends on what is read from the object, so the value must still show it. Numbers keep whether they
were written as whole numbers, because an offset must be.
-/

set_option autoImplicit false

namespace EventSheet

/-- A number as JSON writes it. -/
inductive Json.Number where
  /-- A whole number, written without point and exponent. -/
  | integer (value : Int)
  /-- The value `digits * 10 ^ exponent` with a sign, written with a point or an exponent, or too
  large for a whole number of 64 bits. -/
  | decimal (negative : Bool) (digits : Nat) (exponent : Int)
deriving DecidableEq, Repr, Inhabited

/-- A JSON value. -/
inductive Json where
  | null
  | bool (value : Bool)
  | num (value : Json.Number)
  | str (value : String)
  | arr (items : List Json)
  | obj (members : List (String × Json))
deriving Repr, Inhabited

namespace Json

/-! ## Equality -/

mutual

/-- Whether two values are the same. -/
def same : Json → Json → Bool
  | .null, .null => true
  | .bool a, .bool b => a = b
  | .num m, .num n => m = n
  | .str s, .str t => s = t
  | .arr items, .arr others => sameItems items others
  | .obj members, .obj others => sameMembers members others
  | _, _ => false

/-- Whether two lists of values are the same. -/
def sameItems : List Json → List Json → Bool
  | [], [] => true
  | v :: vs, w :: ws => same v w && sameItems vs ws
  | _, _ => false

/-- Whether two lists of members are the same. -/
def sameMembers : List (String × Json) → List (String × Json) → Bool
  | [], [] => true
  | (m, v) :: vs, (n, w) :: ws => m = n && same v w && sameMembers vs ws
  | _, _ => false

end

mutual

theorem same_iff (v w : Json) : same v w = true ↔ v = w := by
  cases v with
  | arr items => cases w <;> simp [same, sameItems_iff items]
  | obj members => cases w <;> simp [same, sameMembers_iff members]
  | _ => cases w <;> simp [same]

theorem sameItems_iff (vs ws : List Json) : sameItems vs ws = true ↔ vs = ws := by
  cases vs with
  | nil => cases ws <;> simp [sameItems]
  | cons v vs => cases ws <;> simp [sameItems, same_iff v, sameItems_iff vs]

theorem sameMembers_iff (vs ws : List (String × Json)) : sameMembers vs ws = true ↔ vs = ws := by
  cases vs with
  | nil => cases ws <;> simp [sameMembers]
  | cons m vs =>
    cases ws with
    | nil => simp [sameMembers]
    | cons n ws => simp [sameMembers, same_iff m.2, sameMembers_iff vs, Prod.ext_iff]

end

instance : DecidableEq Json := fun v w => decidable_of_iff _ (same_iff v w)

/-! ## Values of other types -/

/-- A natural number as a value. -/
def ofNat (n : Nat) : Json := .num (.integer n)

/-- A 64-bit offset as a value. -/
def ofOffset (n : UInt64) : Json := ofNat n.toNat

/-- An optional value; an absent one is `null`. -/
def ofOption {α : Type} (encode : α → Json) : Option α → Json
  | none => .null
  | some a => encode a

/-- A list of strings as an array. -/
def ofStrings (l : List String) : Json := .arr (l.map .str)

namespace Number

/-- The double nearest to a number. -/
def toFloat : Number → Float
  | .integer (.ofNat n) => Float.ofScientific n false 0
  | .integer (.negSucc n) => -Float.ofScientific (n + 1) false 0
  | .decimal negative digits exponent =>
    let size := match exponent with
      | .ofNat e => Float.ofScientific digits false e
      | .negSucc e => Float.ofScientific digits true (e + 1)
    if negative then -size else size

/-- Whether a decimal lies beyond the finite doubles: those that round to one are the values below
the middle between the largest finite double and `2 ^ 1024`. -/
def isOutOfRange : Number → Bool
  | .integer _ => false
  | .decimal _ digits exponent =>
    let bound := Nat.pow 2 1024 - Nat.pow 2 970
    match exponent with
    | .ofNat e => digits ≠ 0 && (310 < e || bound ≤ digits * Nat.pow 10 e)
    | .negSucc e =>
      let length := (toString digits).length
      if length ≤ 309 then false
      else if length + 400 ≤ e then false
      else bound * Nat.pow 10 (e + 1) ≤ digits

end Number

end Json

end EventSheet
