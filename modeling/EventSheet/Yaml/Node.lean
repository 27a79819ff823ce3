import EventSheet.Yaml.Token

/-!
YAML documents as trees.

A block collection is known by the column of its first token: its further parts start at that
column, each on a line of its own, and what belongs to a part stands further to the right. A block
sequence that is the value of a key may also stand at the column of the key. A place where nothing
stands holds an absent scalar.

Every parser recurses on fuel and uses up a token before it does so twice, so twice the number of
tokens is fuel enough.
-/

set_option autoImplicit false

namespace EventSheet.Yaml

/-- A tree of scalars. The keys of mappings are scalars, and may repeat. -/
inductive Node where
  | scalar (s : Scalar)
  | sequence (items : List Node)
  | mapping (entries : List (Scalar × Node))
deriving Repr, Inhabited

namespace Node

/-- The node of a place where nothing stands. -/
def absent : Node := .scalar .absent

/-! ## Flow collections -/

mutual

/-- Reads a node inside a flow collection, or a flow collection. -/
def flow (fuel : Nat) (ts : List Token) : Option (Node × List Token) :=
  match fuel with
  | 0 => none
  | fuel + 1 =>
    match ts with
    | ⟨.scalar s, _⟩ :: rest => some (.scalar s, rest)
    | ⟨.openList, _⟩ :: rest => do
      let (items, rest) ← flowItems fuel rest
      pure (.sequence items, rest)
    | ⟨.openMap, _⟩ :: rest => do
      let (entries, rest) ← flowEntries fuel rest
      pure (.mapping entries, rest)
    | _ => none

/-- Reads the value behind a key in a flow collection; without a colon there is none. -/
def flowValue (fuel : Nat) (ts : List Token) : Option (Node × List Token) :=
  match fuel with
  | 0 => none
  | fuel + 1 =>
    match ts with
    | ⟨.colon, _⟩ :: ⟨.comma, p⟩ :: rest => some (absent, ⟨.comma, p⟩ :: rest)
    | ⟨.colon, _⟩ :: ⟨.closeMap, p⟩ :: rest => some (absent, ⟨.closeMap, p⟩ :: rest)
    | ⟨.colon, _⟩ :: ⟨.closeList, p⟩ :: rest => some (absent, ⟨.closeList, p⟩ :: rest)
    | ⟨.colon, _⟩ :: rest => flow fuel rest
    | rest => some (absent, rest)

/-- Reads the items of a flow sequence up to its end. An item with a colon is a mapping of its own.
-/
def flowItems (fuel : Nat) (ts : List Token) : Option (List Node × List Token) :=
  match fuel with
  | 0 => none
  | fuel + 1 =>
    match ts with
    | ⟨.closeList, _⟩ :: rest => some ([], rest)
    | ts => do
      let (item, rest) ← flow fuel ts
      let (item, rest) ←
        match item, rest with
        | .scalar key, ⟨.colon, _⟩ :: _ => do
          let (value, rest) ← flowValue fuel rest
          pure (.mapping [(key, value)], rest)
        | item, rest => pure (item, rest)
      match rest with
      | ⟨.comma, _⟩ :: rest => do
        let (items, rest) ← flowItems fuel rest
        pure (item :: items, rest)
      | ⟨.closeList, _⟩ :: rest => pure ([item], rest)
      | _ => none

/-- Reads the entries of a flow mapping up to its end. -/
def flowEntries (fuel : Nat) (ts : List Token) : Option (List (Scalar × Node) × List Token) :=
  match fuel with
  | 0 => none
  | fuel + 1 =>
    match ts with
    | ⟨.closeMap, _⟩ :: rest => some ([], rest)
    | ⟨.scalar key, _⟩ :: rest => do
      let (value, rest) ← flowValue fuel rest
      match rest with
      | ⟨.comma, _⟩ :: rest => do
        let (entries, rest) ← flowEntries fuel rest
        pure ((key, value) :: entries, rest)
      | ⟨.closeMap, _⟩ :: rest => pure ([(key, value)], rest)
      | _ => none
    | _ => none

end

/-! ## Block collections -/

/-- Whether tokens start with a key of a block mapping: a scalar with a colon on its line. -/
def startsKey : List Token → Bool
  | ⟨.scalar _, p⟩ :: ⟨.colon, q⟩ :: _ => p.line = q.line
  | _ => false

mutual

/-- Reads a node of a block whose tokens start at a column or to the right of it. -/
def block (fuel least : Nat) (ts : List Token) : Option (Node × List Token) :=
  match fuel with
  | 0 => none
  | fuel + 1 =>
    match ts with
    | [] => some (absent, [])
    | t :: _ =>
      if t.place.column < least then some (absent, ts)
      else if t.mark = .dash then do
        let (items, rest) ← blockItems fuel t.place.column ts
        pure (.sequence items, rest)
      else if startsKey ts then do
        let (entries, rest) ← blockEntries fuel t.place.column ts
        pure (.mapping entries, rest)
      else flow fuel ts

/-- Reads the items of a block sequence at a column. -/
def blockItems (fuel column : Nat) (ts : List Token) : Option (List Node × List Token) :=
  match fuel with
  | 0 => none
  | fuel + 1 =>
    match ts with
    | ⟨.dash, p⟩ :: rest =>
      if p.column = column then do
        let (item, rest) ← block fuel (column + 1) rest
        let (items, rest) ← blockItems fuel column rest
        pure (item :: items, rest)
      else some ([], ts)
    | _ => some ([], ts)

/-- Reads the value behind the colon of a key at a column. On the line of the colon stands no block
collection. -/
def blockValue (fuel column line : Nat) (ts : List Token) : Option (Node × List Token) :=
  match fuel with
  | 0 => none
  | fuel + 1 =>
    match ts with
    | [] => some (absent, [])
    | t :: _ =>
      if t.place.line = line then flow fuel ts
      else if t.mark = .dash && t.place.column = column then do
        let (items, rest) ← blockItems fuel column ts
        pure (.sequence items, rest)
      else block fuel (column + 1) ts

/-- Reads the entries of a block mapping at a column. -/
def blockEntries (fuel column : Nat) (ts : List Token) :
    Option (List (Scalar × Node) × List Token) :=
  match fuel with
  | 0 => none
  | fuel + 1 =>
    match ts with
    | ⟨.scalar key, p⟩ :: ⟨.colon, q⟩ :: rest =>
      if p.column = column && p.line = q.line then do
        let (value, rest) ← blockValue fuel column q.line rest
        let (entries, rest) ← blockEntries fuel column rest
        pure ((key, value) :: entries, rest)
      else some ([], ts)
    | _ => some ([], ts)

end

/-! ## Documents -/

/-- The tree of a document. -/
def parse? (text : String) : Option Node := do
  let ts ← tokensOf text
  match ← block (4 * ts.length + 4) 0 ts with
  | (node, []) => some node
  | _ => none

/-! ## Strings in a mapping -/

mutual

/-- Whether two keys of a mapping in the tree stand for one string. -/
def repeatsKey : Node → Bool
  | .scalar _ => false
  | .sequence items => repeatsKeyItems items
  | .mapping entries =>
    !(entries.filterMap fun e => e.1.string?).Nodup || repeatsKeyEntries entries

/-- Whether an item repeats a key. -/
def repeatsKeyItems : List Node → Bool
  | [] => false
  | item :: items => repeatsKey item || repeatsKeyItems items

/-- Whether a value repeats a key. -/
def repeatsKeyEntries : List (Scalar × Node) → Bool
  | [] => false
  | (_, value) :: entries => repeatsKey value || repeatsKeyEntries entries

end

/-- The string under a key, if the tree is a mapping that has one there. -/
def stringAt? (key : String) : Node → Option String
  | .mapping entries =>
    match entries.find? fun e => e.1.string? = some key with
    | some (_, .scalar s) => s.string?
    | _ => none
  | _ => none

end Node

end EventSheet.Yaml
