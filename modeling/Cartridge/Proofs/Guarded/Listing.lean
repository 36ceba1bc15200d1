/-
This file guards a listing from front to back: the division of the span into bank windows, one
behind the other, and the sweep of each. Going from the end of one bank window to the end of
the next gives the pieces into which the multiples of the bank size cut the span.
-/

import Cartridge.Proofs.Guarded.Walk
import Cartridge.Proofs.Partition

namespace Cartridge

namespace Guarded

/-- The bank windows from an offset up to `stop`, guarded; there are no more than `count`. -/
def windows (wiring : Wiring) (stop : Nat) : (count offset : Nat) → Guarded (List Span)
  | 0, _ => return []
  | count + 1, offset =>
    if offset < stop then do
      let bank ← bankEnd wiring offset
      let later ← windows wiring stop count (min bank stop)
      return ⟨offset, min bank stop⟩ :: later
    else return []

theorem windows_eq {wiring : Wiring} {stop : Nat} (inside : stop ≤ wiring.length)
    (small : stop ≤ 2 ^ 63) {count offset : Nat} (enough : stop - offset ≤ count) :
    windows wiring stop count offset =
      .ok (Span.pieces ⟨offset, stop⟩ wiring.layout.bankSize) := by
  have positive := wiring.layout.bankSize_pos
  induction count generalizing offset with
  | zero =>
    rw [Span.pieces_of_empty (show stop ≤ offset by omega)]
    rfl
  | succ count inductionHypothesis =>
    rw [windows]
    split
    · rename_i before
      have behind := Span.lt_next_multiple positive offset
      have next : min (wiring.bankEnd offset) stop =
          min ((offset / wiring.layout.bankSize + 1) * wiring.layout.bankSize) stop := by
        rw [Wiring.bankEnd, Nat.min_assoc, Nat.min_eq_right inside]
      rw [bind_eq (bankEnd_eq _ (by omega)), next, bind_eq (inductionHypothesis (by omega)),
        Span.pieces_of_nonempty positive before]
      rfl
    · rename_i past
      rw [Span.pieces_of_empty (Nat.le_of_not_lt past)]
      rfl

/-- The instructions of a span, decoded one after the other, guarded. -/
def sweep (board : Board) (processor : Processor) (span : Span) : Guarded (List Instruction) :=
  let stop := min span.stop board.image.size
  run board stop (stop - span.start) span.start processor

theorem sweep_eq {board : Board} (size : board.image.size < 2 ^ 63) {processor : Processor}
    (shallow : processor.Shallow) (span : Span) :
    sweep board processor span = .ok (board.sweep span processor) := by
  rw [sweep, run_eq size shallow, Board.sweep_eq_run]

/-- The instructions of a span, bank window by bank window, guarded. -/
def listing (board : Board) (span : Span) (processor : Processor) :
    Guarded (List Instruction) := do
  let stop := min span.stop board.wiring.mappedSize
  let windows ← windows board.wiring stop (stop - span.start) span.start
  let sweeps ← gatherAll (sweep board processor) windows
  return sweeps.flatten

theorem listing_eq {board : Board} (size : board.image.size < 2 ^ 63) {processor : Processor}
    (shallow : processor.Shallow) (span : Span) :
    listing board span processor = .ok (board.listing span processor) := by
  have mapped : board.wiring.mappedSize ≤ board.image.size := Nat.min_le_left _ _
  have bound : min span.stop board.wiring.mappedSize ≤ board.wiring.mappedSize :=
    Nat.min_le_right _ _
  rw [listing, bind_eq (windows_eq (Nat.le_trans bound mapped) (by omega) (Nat.le_refl _)),
    bind_eq (gatherAll_eq _ fun window _ => sweep_eq size shallow window), Board.listing,
    List.flatMap_def]
  rfl

end Guarded

end Cartridge
