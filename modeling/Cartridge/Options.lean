/-
This file defines the options of an analysis, their defaults, and what makes them
inconsistent. Of several faults the first one in a fixed order is reported: the window
size, the instruction limit, the confidence, the range.
-/

import Cartridge.Layout
import Cartridge.Region
import Cartridge.Text.Shortest
import Cartridge.Walk

namespace Cartridge

/-- How code is found. -/
inductive Strategy where
  /-- Along the flow of control, from every known entry. -/
  | recursive
  /-- Front to back, bank by bank. -/
  | linear
deriving DecidableEq

namespace Strategy

/-- All strategies. -/
def all : List Strategy :=
  [.recursive, .linear]

/-- The name used in options and documents. -/
def keyword : Strategy → String
  | .recursive => "recursive"
  | .linear => "linear"

/-- The name shown to readers. -/
def title : Strategy → String
  | .recursive => "Recursive descent"
  | .linear => "Linear sweep"

end Strategy

/-- The options of an analysis. -/
structure Options where
  /-- The size of the windows that are scored. -/
  windowSize : Nat := Region.defaultWindowSize
  /-- The most instructions of one walk, and of one routine before another walk is added. -/
  maxInstructions : Nat := Board.defaultLimit
  seedVectors : Bool := true
  seedRegions : Bool := true
  /-- The least confidence of a window that is taken for code. -/
  minRegionConfidence : Float := 0.6
  /-- The most instructions of all routines together, if they are bounded. -/
  instructionBudget : Option Nat := none
  entryPoints : List Address := []
  /-- The offsets to keep to. -/
  range : Option Span := none
  /-- The layout, if it is not to be detected. -/
  layout : Option Layout := none
  strategy : Strategy := .recursive
  /-- Whether several entries may be traced at once; no result depends on it. -/
  parallel : Bool := true
  weights : Weights := {}

/-- What is wrong with options. -/
inductive OptionsError where
  /-- The text does not spell options at all. -/
  | unreadable
  | zeroWindow
  | zeroLimit
  | confidence (value : Float)
  | reversed (range : Span)

/-- The wording of what is wrong. -/
def OptionsError.message : OptionsError → String
  | .unreadable => "unreadable options"
  | .zeroWindow => "window_size must be non-zero"
  | .zeroLimit => "max_instructions must be non-zero"
  | .confidence value => "min_region_confidence " ++ Shortest.text value ++ " is outside [0, 1]"
  | .reversed range =>
    "range " ++ Hex.count range.start ++ ".." ++ Hex.count range.stop ++ " is reversed"

namespace Options

/-- The first fault of the options, if any. -/
def fault? (options : Options) : Option OptionsError :=
  if options.windowSize = 0 then some .zeroWindow
  else if options.maxInstructions = 0 then some .zeroLimit
  else if !(0.0 ≤ options.minRegionConfidence && options.minRegionConfidence ≤ 1.0) then
    some (.confidence options.minRegionConfidence)
  else match options.range with
    | some range => if range.stop < range.start then some (.reversed range) else none
    | none => none

end Options

end Cartridge
