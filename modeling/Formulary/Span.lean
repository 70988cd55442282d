/-!
# Spans — where in its source a formula's part was written

A span is a half-open range of offsets. The span from zero to zero stands
for "no place known": a tree built by hand has it everywhere, and a
diagnostic does not point at it.
-/

namespace Formulary

/-- The offsets from `start` up to, and not including, `stop`. -/
structure Span where
  /-- Offset of the first character. -/
  start : Nat
  /-- Offset after the last character. -/
  stop : Nat
  deriving DecidableEq

namespace Span

/-- The span of a part whose place is not known. -/
def dummy : Span := ⟨0, 0⟩

instance : Inhabited Span := ⟨dummy⟩

/-- How many offsets the span covers: none if it ends before it starts. -/
def length (s : Span) : Nat := s.stop - s.start

def isEmpty (s : Span) : Bool := s.length == 0

/-- Whether the place is not known. -/
def isDummy (s : Span) : Bool := s == dummy

def text (s : Span) : String := s!"{s.start}..{s.stop}"

end Span

end Formulary
