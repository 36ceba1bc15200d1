/-
This file lists the problems that an analysis meets and records without stopping, and
the numbers of points that they and the layout are reported with.
-/

import Cartridge.Span
import Cartridge.Text.Hex

namespace Cartridge

/-- A share of a hundred points with two places after the point. -/
def pointsText (points : Nat) : String :=
  toString (points / 100) ++ "." ++
    String.ofList [Nat.digitChar (points / 10 % 10), Nat.digitChar (points % 10)]

/-- A problem met by an analysis. -/
inductive Issue where
  /-- The instruction at an offset runs out of the image or of its window. -/
  | truncated (offset : Nat)
  /-- No header earned enough points. -/
  | weakHeader (points : Nat)
  /-- The transfer at an offset goes through a pointer. -/
  | unresolved (offset : Nat)
  /-- The layout gives these offsets no address. -/
  | unmapped (offsets : Span)
  /-- The instruction budget ran out before all entries were traced. -/
  | exhausted (remaining : Nat)
deriving DecidableEq

namespace Issue

/-- The name of the kind of problem. -/
def keyword : Issue → String
  | .truncated _ => "truncated_instruction"
  | .weakHeader _ => "invalid_mapping_header"
  | .unresolved _ => "unresolvable_operand"
  | .unmapped _ => "unmapped_region"
  | .exhausted _ => "budget_exhausted"

/-- The wording of a problem. -/
def message : Issue → String
  | .truncated offset => "truncated instruction at offset " ++ Hex.offset offset
  | .weakHeader points =>
    "no convincing internal header (confidence " ++ pointsText points ++ "), assuming LoROM"
  | .unresolved offset => "unresolvable control transfer at offset " ++ Hex.offset offset
  | .unmapped offsets =>
    "offsets " ++ Hex.offset offsets.start ++ ".." ++ Hex.offset offsets.stop ++
      " have no CPU address and were skipped"
  | .exhausted remaining =>
    "instruction budget exhausted with " ++ toString remaining ++ " entries unanalyzed"

end Issue

end Cartridge
