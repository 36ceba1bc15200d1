/-
This file guards the scores of windows: the multiples of the window size that cut a span, the
slice of every window, the count of its bytes and the search for opcodes in it. None of it
fails for an image whose length fits in 63 bits, whatever the span and the size: a window that
does not begin at zero begins at a multiple of its size, so its end fits in twice the length.
-/

import Cartridge.Analysis
import Cartridge.Proofs.Guarded.Instruction

namespace Cartridge

namespace Guarded

/-! ### Windows -/

/-- The part of a span between a multiple of a size and the next one, guarded. -/
def piece (span : Span) (size aligned : Nat) : Guarded Span := do
  let next ← add 64 aligned size
  return ⟨max span.start aligned, min span.stop next⟩

/-- The pieces into which the multiples of a size cut a span, guarded. -/
def pieces (span : Span) (size : Nat) : Guarded (List Span) :=
  if span.start < span.stop then do
    let number ← div span.start size
    let first ← mul 64 number size
    let starts ← steps first span.stop size
    gatherAll (piece span size) starts
  else return []

/-- Steps from a multiple of their size go through the multiples that follow. -/
theorem range'_multiples (first count size : Nat) :
    List.range' (first * size) count size = (List.range' first count).map (· * size) := by
  induction count generalizing first with
  | zero => rfl
  | succ count inductionHypothesis =>
    rw [List.range'_succ, List.range'_succ, List.map_cons, ← inductionHypothesis, Nat.succ_mul]

/-- A piece that begins before the end of its span has an end: it begins at zero, or it is no
longer than what lies before it. -/
theorem piece_eq {span : Span} {size index : Nat} (fits : size < 2 ^ 64)
    (bound : span.stop < 2 ^ 63) (reached : index * size < span.stop) :
    piece span size (index * size) = .ok (span.piece size index) := by
  have next : index * size + size < 2 ^ 64 := by
    cases index with
    | zero => omega
    | succ before =>
      have shorter : size ≤ (before + 1) * size := Nat.le_mul_of_pos_left size before.succ_pos
      omega
  rw [piece, bind_eq (add_eq next), Span.piece, Nat.succ_mul]
  rfl

/-- The number of steps through the multiples of a size that cut a span. -/
theorem div_steps {span : Span} {size : Nat} (positive : size ≠ 0)
    (nonempty : span.start < span.stop) :
    (span.stop - span.start / size * size + size - 1) / size =
      (span.stop - 1) / size + 1 - span.start / size := by
  have before := Nat.div_mul_le_self span.start size
  have order : span.start / size ≤ (span.stop - 1) / size := Nat.div_le_div_right (by omega)
  rw [show span.stop - span.start / size * size + size - 1 =
      (span.stop - 1 - size * (span.start / size)) + size by rw [Nat.mul_comm size]; omega,
    Nat.add_div_right _ (Nat.pos_of_ne_zero positive), Nat.sub_mul_div]
  omega

theorem pieces_eq {span : Span} {size : Nat} (positive : size ≠ 0) (fits : size < 2 ^ 64)
    (bound : span.stop < 2 ^ 63) : pieces span size = .ok (span.pieces size) := by
  rw [pieces, Span.pieces]
  split
  · rename_i nonempty
    have before := Nat.div_mul_le_self span.start size
    have order : span.start / size ≤ (span.stop - 1) / size := Nat.div_le_div_right (by omega)
    have cancel (index : Nat) : index * size / size = index :=
      Nat.mul_div_cancel _ (Nat.pos_of_ne_zero positive)
    have each : ∀ aligned ∈ (List.range' (span.start / size)
        ((span.stop - 1) / size + 1 - span.start / size)).map (· * size),
        piece span size aligned = .ok (span.piece size (aligned / size)) := by
      intro aligned member
      obtain ⟨index, inside, rfl⟩ := List.mem_map.mp member
      have within := (List.mem_range'_1.mp inside).2
      have reached : index * size ≤ span.stop - 1 :=
        (Nat.le_div_iff_mul_le (Nat.pos_of_ne_zero positive)).mp (by omega)
      rw [piece_eq fits bound (by omega), cancel]
    rw [bind_eq (div_eq positive _), bind_eq (mul_eq (by omega)), bind_eq (steps_eq positive _ _),
      div_steps positive nonempty, range'_multiples, gatherAll_eq _ each, List.map_map]
    refine congrArg Except.ok (List.map_congr_left fun index _ => ?_)
    rw [Function.comp_apply, cancel]
  · rfl

/-! ### Statistics of bytes -/

/-- Counts a byte, guarded. -/
def count (counts : Array Nat) (byte : UInt8) : Guarded (Array Nat) := do
  let before ← get counts byte.toNat
  discard (add 64 before 1)
  return counts.modify byte.toNat (· + 1)

/-- How often each byte occurs, guarded. -/
def tally (bytes : Array UInt8) : Guarded (Array Nat) :=
  fold count (Array.replicate 256 0) bytes.toList

/-- Every byte has a count, and so many bytes more can be counted. -/
structure Room (left : Nat) (counts : Array Nat) : Prop where
  rows : counts.size = 256
  fits : ∀ place (inside : place < counts.size), counts[place] + left < 2 ^ 64

theorem count_eq {left : Nat} {counts : Array Nat} (room : Room (left + 1) counts)
    (byte : UInt8) : count counts byte = .ok (counts.modify byte.toNat (· + 1)) ∧
      Room left (counts.modify byte.toNat (· + 1)) := by
  have row : byte.toNat < counts.size := room.rows ▸ byte.toNat_lt
  have here := room.fits byte.toNat row
  refine ⟨?_, ?_, fun place inside => ?_⟩
  · rw [count, bind_eq (get_eq (Array.getElem?_eq_getElem row)),
      bind_eq (discard_eq ⟨_, add_eq (by omega)⟩)]
    rfl
  · rw [Array.size_modify, room.rows]
  · have known := room.fits place (Array.size_modify ▸ inside)
    rw [Array.getElem_modify]
    split <;> omega

theorem tally_eq {bytes : Array UInt8} (size : bytes.size < 2 ^ 64) :
    tally bytes = .ok (Region.counts bytes) := by
  have empty : Room bytes.toList.length (Array.replicate 256 0) := by
    refine ⟨Array.size_replicate, fun place inside => ?_⟩
    rw [Array.getElem_replicate, Array.length_toList]
    omega
  obtain ⟨same, -⟩ := fold_eq Room (fun _ _ room byte _ => count_eq room byte) empty
  rw [tally, same, Region.counts, Array.foldl_toList]

/-- Whether the operand of an opcode would fit behind a place, guarded. -/
def weigh (bytes : Array UInt8) (place : Nat) : Guarded Unit := do
  let code ← get bytes place
  let opcode ← opcode code
  let size ← add 8 1 opcode.operandSize
  discard (add 64 place size)

theorem weigh_eq {bytes : Array UInt8} (size : bytes.size < 2 ^ 63) {place : Nat}
    (inside : place < bytes.size) : weigh bytes place = .ok () := by
  obtain ⟨code, codeAt⟩ := exists_get_eq inside
  have short := (Opcode.ofByte code).mode.operandSize_le
  have same : (Opcode.ofByte code).operandSize = (Opcode.ofByte code).mode.operandSize := rfl
  rw [weigh, bind_eq codeAt, bind_eq (opcode_eq code), bind_eq (add_eq (by omega)),
    discard_eq ⟨_, add_eq (by omega)⟩]

/-! ### Scores -/

/-- The score of a window, guarded. -/
def windowScore (options : Options) (image : Image) (window : Span) : Guarded Region := do
  let bytes ← slice image.bytes window.start window.stop
  discard (tally bytes)
  check (weigh bytes) (List.range bytes.size)
  return Region.score options.weights options.minRegionConfidence window.start bytes

/-- The scores of the windows of a span, guarded. -/
def scores (options : Options) (image : Image) (span : Span) : Guarded (List Region) := do
  let windows ← pieces ⟨span.start, min span.stop image.size⟩ (max options.windowSize 1)
  gatherAll (windowScore options image) windows

theorem start_le_stop_of_mem_pieces {span window : Span} {size : Nat} (positive : size ≠ 0)
    (member : window ∈ span.pieces size) : window.start ≤ window.stop := by
  unfold Span.pieces at member
  split at member
  · rename_i nonempty
    obtain ⟨index, inside, rfl⟩ := List.mem_map.mp member
    obtain ⟨after, within⟩ := List.mem_range'_1.mp inside
    have order : span.start / size ≤ (span.stop - 1) / size := Nat.div_le_div_right (by omega)
    have low : index * size ≤ span.stop - 1 :=
      (Nat.le_div_iff_mul_le (Nat.pos_of_ne_zero positive)).mp (by omega)
    have high : span.start < (index + 1) * size :=
      (Nat.div_lt_iff_lt_mul (Nat.pos_of_ne_zero positive)).mp (by omega)
    have next : index * size ≤ (index + 1) * size := Nat.mul_le_mul_right _ (Nat.le_succ _)
    rw [Span.piece]
    show max _ _ ≤ min _ _
    omega
  · exact absurd member List.not_mem_nil

theorem windowScore_eq {options : Options} {image : Image} (size : image.size < 2 ^ 63) {window : Span}
    (order : window.start ≤ window.stop) (inside : window.stop ≤ image.size) :
    windowScore options image window = .ok (Region.score options.weights options.minRegionConfidence
      window.start (image.slice window.start window.stop)) := by
  have length : (image.bytes.extract window.start window.stop).size < 2 ^ 63 := by
    rw [Array.size_extract]
    omega
  rw [windowScore, bind_eq (slice_eq order inside), bind_eq (discard_eq ⟨_, tally_eq (by omega)⟩),
    bind_eq (check_eq fun place member => weigh_eq length (List.mem_range.mp member))]
  rfl

theorem scores_eq {options : Options} {image : Image} (size : image.size < 2 ^ 63)
    (fits : options.windowSize < 2 ^ 64) (span : Span) : scores options image span =
      .ok (Region.classify options.weights options.minRegionConfidence options.windowSize image
        span) := by
  have positive : max options.windowSize 1 ≠ 0 := by omega
  have bound : min span.stop image.size ≤ image.size := Nat.min_le_right _ _
  rw [scores, bind_eq (pieces_eq positive (by omega) (Nat.lt_of_le_of_lt bound size)),
    gatherAll_eq _ fun window member => windowScore_eq size
      (start_le_stop_of_mem_pieces positive member)
      (Nat.le_trans (Span.piece_bounds member).2 bound)]
  rfl

/-! ### Windows that look like code -/

/-- The windows that look like code, guarded. -/
def codeWindows (options : Options) (regions : List Region) : Guarded (List Span) :=
  if options.seedRegions then
    gather (fun region =>
      if region.kind == .code && options.minRegionConfidence ≤ region.confidence then do
        let stop ← add 64 region.offset region.length
        return some ⟨region.offset, stop⟩
      else return none) regions
  else return []

theorem stop_le_of_mem_classify {weights : Weights} {threshold : Float} {windowSize : Nat}
    {image : Image} {span : Span} {region : Region}
    (member : region ∈ Region.classify weights threshold windowSize image span) :
    region.stop ≤ image.size := by
  have whole : image.size = image.bytes.size := rfl
  obtain ⟨window, listed, rfl⟩ := List.mem_map.mp member
  have order := start_le_stop_of_mem_pieces (by omega) listed
  have inside : window.stop ≤ min span.stop image.size := (Span.piece_bounds listed).2
  have bound : min span.stop image.size ≤ image.size := Nat.min_le_right _ _
  show window.start + (image.bytes.extract window.start window.stop).size ≤ image.size
  rw [Array.size_extract]
  omega

theorem codeWindows_eq {options : Options} {regions : List Region}
    (fits : ∀ region ∈ regions, region.stop < 2 ^ 64) :
    codeWindows options regions = .ok (Analysis.codeWindows options regions) := by
  rw [codeWindows, Analysis.codeWindows]
  split
  · rw [gather_eq (fun region =>
      if region.kind == .code && options.minRegionConfidence ≤ region.confidence then
        some region.span else none) fun region member => ?_]
    · rw [← List.filterMap_eq_map, List.filterMap_filter]
      rfl
    · split
      · rw [bind_eq (add_eq (fits region member))]
        rfl
      · rfl
  · rfl

end Guarded

end Cartridge
