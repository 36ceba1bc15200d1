/-
This file defines a span of image offsets and the pieces into which the multiples
of a size cut it. The bank windows of a linear listing and the windows of the
statistical scores are both such pieces. Things that are kept by their offsets are asked
whether one of them begins in a span.
-/

import Std.Data.TreeMap

namespace Cartridge

/-- The offsets from `start` up to but not including `stop`. -/
structure Span where
  /-- The first offset. -/
  start : Nat
  /-- The first offset past the span. -/
  stop : Nat
deriving DecidableEq

namespace Span

/-- Whether an offset lies in the span. -/
def contains (span : Span) (offset : Nat) : Bool :=
  decide (span.start ≤ offset) && decide (offset < span.stop)

/-- Whether an offset of the span is a key of a map: the first key at or behind the start lies
before the end. -/
def hasKey {Value : Type} (span : Span) (map : Std.TreeMap Nat Value) : Bool :=
  (map.getEntryGE? span.start).any fun entry => entry.1 < span.stop

/-- The number of offsets in the span. -/
def size (span : Span) : Nat :=
  span.stop - span.start

/-- The span cut off at `limit` on both ends. -/
def clamp (span : Span) (limit : Nat) : Span :=
  ⟨min span.start limit, min span.stop limit⟩

/-- The piece of a span between one multiple of `size` and the next. -/
def piece (span : Span) (size index : Nat) : Span :=
  ⟨max span.start (index * size), min span.stop ((index + 1) * size)⟩

/-- The pieces into which the multiples of `size` cut a span, in ascending order. -/
def pieces (span : Span) (size : Nat) : List Span :=
  if span.start < span.stop then
    let first := span.start / size
    let last := (span.stop - 1) / size
    (List.range' first (last + 1 - first)).map (span.piece size)
  else []

theorem contains_iff (span : Span) (offset : Nat) :
    span.contains offset = true ↔ span.start ≤ offset ∧ offset < span.stop := by
  simp [contains]

theorem pieces_of_empty {span : Span} (empty : span.stop ≤ span.start) (size : Nat) :
    span.pieces size = [] := by
  simp [pieces, Nat.not_lt.mpr empty]

end Span

end Cartridge
