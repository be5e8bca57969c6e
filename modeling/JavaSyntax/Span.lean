/-!
# Spans

A span is a stretch of source text, measured in UTF-8 bytes from the start of
the text. Every token and every tree node carries one.
-/

namespace JavaSyntax

/-- A stretch of source text: where it starts and how many bytes it covers. -/
structure Span where
  offset : Nat
  length : Nat
  deriving DecidableEq, Repr, Inhabited

namespace Span

/-- The offset just past the last byte. -/
def stop (span : Span) : Nat :=
  span.offset + span.length

/-- The span from `start` up to `stop`. -/
def between (start stop : Nat) : Span :=
  ⟨start, stop - start⟩

/-- The empty span at `offset`. -/
def point (offset : Nat) : Span :=
  ⟨offset, 0⟩

/-- The smallest span that covers both arguments. -/
def join (left right : Span) : Span :=
  between (min left.offset right.offset) (max left.stop right.stop)

@[simp] theorem offset_between (start stop : Nat) : (between start stop).offset = start := rfl

@[simp] theorem stop_point (offset : Nat) : (point offset).stop = offset := rfl

theorem stop_between {start stop : Nat} (ordered : start ≤ stop) :
    (between start stop).stop = stop := by
  simp only [between, Span.stop]
  omega

@[simp] theorem offset_join (left right : Span) :
    (join left right).offset = min left.offset right.offset := rfl

@[simp] theorem stop_join (left right : Span) :
    (join left right).stop = max left.stop right.stop :=
  stop_between (by simp only [stop]; omega)

end Span

end JavaSyntax
