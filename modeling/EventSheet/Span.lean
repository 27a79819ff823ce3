import EventSheet.Json.Decode

/-!
Stretches of a written expression, in byte offsets.

Nothing forces a span to run forwards: spans come with the trees of other tools, so an operation on
them says what it does with a reversed one.
-/

set_option autoImplicit false

namespace EventSheet

/-- The bytes of an expression from `start` up to, but without, `stop`. -/
structure Span where
  /-- The first byte. -/
  start : UInt64
  /-- The byte behind the last one. -/
  stop : UInt64
deriving DecidableEq, Repr, Inhabited

namespace Span

/-- The span at the very start that holds nothing. -/
def origin : Span := ⟨0, 0⟩

/-- The least span that covers two spans. -/
def merge (a b : Span) : Span := ⟨min a.start b.start, max a.stop b.stop⟩

/-- The number of bytes, none if the span is reversed. -/
def length (s : Span) : UInt64 := if s.start ≤ s.stop then s.stop - s.start else 0

/-- Whether the span holds no byte. -/
def isEmpty (s : Span) : Bool := s.stop ≤ s.start

/-- A span as it is shown to people. -/
protected def toString (s : Span) : String := s!"{s.start}..{s.stop}"

instance : ToString Span := ⟨Span.toString⟩

/-! ## JSON form -/

/-- A span as a JSON value. -/
def toJson (s : Span) : Json :=
  .obj [("start", .ofOffset s.start), ("end", .ofOffset s.stop)]

/-- The span that a JSON value describes. -/
def ofJson? (v : Json) : Option Span := do
  let members ← v.record? ["start", "end"]
  let start ← Json.required? "start" Json.offset? members
  let stop ← Json.required? "end" Json.offset? members
  pure ⟨start, stop⟩

end Span

end EventSheet
