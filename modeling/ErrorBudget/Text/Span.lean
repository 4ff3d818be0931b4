/-!
# Spans

Where in a text something stands: from a first byte to the byte behind the last. Messages count
positions from one.
-/

set_option autoImplicit false

namespace ErrorBudget

/-- The bytes from `start` up to but not including `stop`. -/
structure Span where
  /-- The first byte. -/
  start : Nat
  /-- The byte behind the last. -/
  stop : Nat
  deriving DecidableEq, Repr

namespace Span

/-- The span of the single byte at a position. -/
def single (position : Nat) : Span := ⟨position, position + 1⟩

/-- Whether a span has any bytes. -/
def isValid (s : Span) : Bool := s.start < s.stop

/-- Where a span lies, as the end of a message; nothing for a span without bytes. -/
def text (s : Span) : String :=
  if !s.isValid then ""
  else if s.stop - s.start = 1 then s!" at position {s.start + 1}"
  else s!" at positions {s.start + 1}-{s.stop}"

end Span

/-- Something read from a text, with the place where it stands. -/
structure Placed (β : Type) where
  /-- What was read. -/
  item : β
  /-- Where it stands. -/
  span : Span
  deriving Repr

/-- The number of bytes of a text. -/
def byteLength (cs : List Char) : Nat :=
  cs.foldr (fun c n => c.utf8Size + n) 0

end ErrorBudget
