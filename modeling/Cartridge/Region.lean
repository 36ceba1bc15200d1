/-
This file scores windows of an image by statistics: the entropy of their bytes, the
share of bytes that look like opcodes with operands, and the share of padding. The
weighted scores give a confidence that a window holds code. The scores are advice;
they only suggest further places to start from.
-/

import Cartridge.Image
import Cartridge.Opcode.Matrix
import Cartridge.Span

namespace Cartridge

/-- How much each statistic counts. -/
structure Weights where
  entropy : Float := 0.4
  density : Float := 0.4
  padding : Float := 0.2

/-- What a window seems to hold. -/
inductive RegionKind where
  | code
  | data
  | padding
deriving DecidableEq

/-- The name of a kind, for readers and for documents. -/
def RegionKind.keyword : RegionKind → String
  | .code => "code"
  | .data => "data"
  | .padding => "padding"

/-- A scored window. -/
structure Region where
  offset : Nat
  length : Nat
  /-- The entropy in bits per byte. -/
  entropy : Float
  density : Float
  padding : Float
  confidence : Float
  kind : RegionKind

namespace Region

/-- The first offset after the window. -/
def stop (region : Region) : Nat :=
  region.offset + region.length

/-- The offsets of the window. -/
def span (region : Region) : Span :=
  ⟨region.offset, region.stop⟩

/-! ### Statistics of bytes -/

/-- How often each byte occurs. -/
def counts (bytes : Array UInt8) : Array Nat :=
  bytes.foldl (fun counts byte => counts.modify byte.toNat (· + 1)) (Array.replicate 256 0)

/-- The entropy of bytes in bits per byte. -/
def entropyOf (bytes : Array UInt8) : Float :=
  if bytes.isEmpty then 0.0
  else
    (counts bytes).foldl
      (fun total count =>
        if count = 0 then total
        else
          let share := count.toFloat / bytes.size.toFloat
          total + -share * share.log2)
      0.0

/-- Whether an opcode byte occurs far more often as filler than as code. -/
def isFiller (byte : UInt8) : Bool :=
  byte == 0xFF || match (Opcode.ofByte byte).mnemonic with
    | .brk | .cop | .wdm | .stp => true
    | _ => false

/-- Whether a byte with `remaining` bytes from it to the end looks like an opcode whose
operand still fits. -/
def looksLikeOpcode (byte : UInt8) (remaining : Nat) : Bool :=
  let opcode := Opcode.ofByte byte
  decide (0 < opcode.operandSize) && !isFiller byte && decide (opcode.baseSize ≤ remaining)

/-- The number of bytes that look like opcodes, with the bytes still to come. -/
def opcodeHits (bytes : Array UInt8) : Nat × Nat :=
  bytes.foldl
    (fun state byte =>
      (if looksLikeOpcode byte state.2 then state.1 + 1 else state.1, state.2 - 1))
    (0, bytes.size)

/-- The share of bytes that look like opcodes with operands. -/
def densityOf (bytes : Array UInt8) : Float :=
  if bytes.isEmpty then 0.0 else (opcodeHits bytes).1.toFloat / bytes.size.toFloat

/-- The share of bytes that are all zeros or all ones; nothing counts as padding. -/
def paddingOf (bytes : Array UInt8) : Float :=
  if bytes.isEmpty then 1.0
  else (bytes.countP fun byte => byte == 0x00 || byte == 0xFF).toFloat / bytes.size.toFloat

/-! ### Confidence -/

/-- A number brought into the range from zero to one. -/
def clamp (value : Float) : Float :=
  if value < 0.0 then 0.0 else if 1.0 < value then 1.0 else value

/-- How close an entropy is to that of code, which lies around six bits. -/
def entropyScore (entropy : Float) : Float :=
  clamp (1.0 - (entropy - 6.0).abs / 2.0)

/-- The weighted mean of the three statistics, before it is brought into range. -/
def confidenceOf (weights : Weights) (entropy density padding : Float) : Float :=
  let total := weights.entropy + weights.density + weights.padding
  if 0.0 < total then
    (weights.entropy * entropyScore entropy + weights.density * density +
      weights.padding * (1.0 - padding)) / total
  else 0.0

/-- The verdict on a window: mostly padding, or confident enough to be code, or data. -/
def kindOf (threshold padding confidence : Float) : RegionKind :=
  if 0.9 < padding then .padding else if threshold ≤ confidence then .code else .data

/-- Scores the bytes of a window that starts at an offset. -/
def score (weights : Weights) (threshold : Float) (offset : Nat) (bytes : Array UInt8) : Region :=
  let entropy := entropyOf bytes
  let density := densityOf bytes
  let padding := paddingOf bytes
  let confidence := confidenceOf weights entropy density padding
  { offset := offset
    length := bytes.size
    entropy := entropy
    density := density
    padding := padding
    confidence := clamp confidence
    kind := kindOf threshold padding confidence }

/-- The window size unless the caller says otherwise. -/
def defaultWindowSize : Nat := 1024

/-- Scores the windows into which the multiples of a size cut a span of an image. -/
def classify (weights : Weights) (threshold : Float) (windowSize : Nat) (image : Image)
    (span : Span) : List Region :=
  let inside : Span := ⟨span.start, min span.stop image.size⟩
  (inside.pieces (max windowSize 1)).map fun window =>
    score weights threshold window.start (image.slice window.start window.stop)

end Region

end Cartridge
