/-
This file proves that the windows of the scores partition the part of a span that lies in the
image. The multiples of the window size cut it, and nothing else does: there is only one way to
cut a stretch of offsets at all multiples of a size inside it and nowhere else. Each window is
scored over its own bytes. The sums made on the way fit in 64 bits for an image whose length
fits in 63, however large the window size is: a multiple of the size that lies in the image
and is not zero leaves as much room behind it as lies before it.
-/

import Cartridge.Proofs.Guarded.Region
import Cartridge.Proofs.Partition

namespace Cartridge

/-! ### Cutting a stretch of offsets -/

namespace Span

/-- Spans that partition a stretch of offsets and meet exactly at the multiples of a size. -/
structure Cuts (size start finish : Nat) (pieces : List Span) : Prop where
  /-- The spans follow one another from the start to the finish, none of them empty. -/
  partition : Partition start pieces finish
  /-- Every boundary strictly inside is a multiple of the size. -/
  aligned : ∀ piece ∈ pieces, ∀ boundary, boundary = piece.start ∨ boundary = piece.stop →
    start < boundary → boundary < finish → size ∣ boundary
  /-- No span goes across a multiple of the size. -/
  unbroken : ∀ piece ∈ pieces, ∀ boundary, piece.start < boundary → boundary < piece.stop →
    ¬ size ∣ boundary

/-- The next multiple of a size is the first one behind an offset. -/
theorem next_multiple_le {size offset boundary : Nat} (behind : offset < boundary)
    (aligned : size ∣ boundary) : (offset / size + 1) * size ≤ boundary := by
  obtain ⟨count, rfl⟩ := aligned
  rw [Nat.mul_comm size] at behind ⊢
  exact Nat.mul_le_mul_right _ (Nat.div_lt_of_lt_mul (Nat.mul_comm size count ▸ behind))

/-- A piece of a span begins with the span or at a multiple of the size. -/
theorem start_of_mem_pieces {size start stop : Nat} (positive : 0 < size) {piece : Span}
    (member : piece ∈ pieces ⟨start, stop⟩ size) : piece.start = start ∨ size ∣ piece.start := by
  have nonempty : piece.start < piece.stop :=
    ((partition_pieces positive start stop).start_le_of_mem member).2
  have inside : piece.stop ≤ stop := (piece_bounds member).2
  revert member
  refine pieces_induction positive
    (motive := fun start rest => piece ∈ rest → piece.start = start ∨ size ∣ piece.start)
    (fun start _ member => ?_) (fun start rest _ inductionHypothesis member => ?_) start
  · exact absurd member List.not_mem_nil
  · rcases List.mem_cons.mp member with rfl | later
    · exact Or.inl rfl
    · rcases inductionHypothesis later with here | aligned
      · have next : piece.start = (start / size + 1) * size := by omega
        exact Or.inr (next ▸ Nat.dvd_mul_left _ _)
      · exact Or.inr aligned

theorem cuts_pieces {size : Nat} (positive : 0 < size) (start stop : Nat) :
    Cuts size start (max start stop) (pieces ⟨start, stop⟩ size) where
  partition := partition_pieces positive start stop
  aligned piece member boundary side behind before := by
    rcases side with rfl | rfl
    · exact (start_of_mem_pieces positive member).resolve_left (Nat.ne_of_gt behind)
    · have here := stop_of_mem_pieces positive member
      have next : piece.stop = (piece.start / size + 1) * size := by omega
      exact next ▸ Nat.dvd_mul_left _ _
  unbroken piece member boundary behind before aligned := by
    have next := next_multiple_le behind aligned
    have here := stop_of_mem_pieces positive member
    omega

/-- A stretch of offsets can be cut in no other way. -/
theorem Cuts.eq_pieces {size start finish : Nat} {spans : List Span} (positive : 0 < size)
    (cuts : Cuts size start finish spans) : spans = pieces ⟨start, finish⟩ size := by
  obtain ⟨partition, aligned, unbroken⟩ := cuts
  induction partition with
  | nil start => rw [pieces_of_empty (Nat.le_refl start)]
  | @cons start stop finish rest nonempty follows inductionHypothesis =>
    have behind := lt_next_multiple positive start
    have reach : stop ≤ (start / size + 1) * size := by
      refine Nat.le_of_not_lt fun further => ?_
      exact unbroken _ List.mem_cons_self _ behind further (Nat.dvd_mul_left _ _)
    have within := follows.le
    have first : stop = min ((start / size + 1) * size) finish := by
      rcases Nat.lt_or_ge stop finish with more | last
      · have next := next_multiple_le nonempty
          (aligned _ List.mem_cons_self stop (Or.inr rfl) nonempty more)
        omega
      · omega
    have others := inductionHypothesis
      (fun piece member boundary side later =>
        aligned piece (List.mem_cons_of_mem _ member) boundary side (Nat.lt_trans nonempty later))
      fun piece member => unbroken piece (List.mem_cons_of_mem _ member)
    rw [pieces_of_nonempty positive (Nat.lt_of_lt_of_le nonempty within), ← first, ← others]

theorem cuts_iff {size : Nat} (positive : 0 < size) {start stop : Nat} {spans : List Span} :
    Cuts size start (max start stop) spans ↔ spans = pieces ⟨start, stop⟩ size := by
  constructor
  · intro cuts
    rw [cuts.eq_pieces positive]
    rcases Nat.le_total start stop with forward | backward
    · rw [Nat.max_eq_right forward]
    · rw [Nat.max_eq_left backward, pieces_of_empty (Nat.le_refl start), pieces_of_empty backward]
  · rintro rfl
    exact cuts_pieces positive start stop

end Span

namespace Region

/-! ### Windows and their scores -/

/-- A score over the bytes between two offsets of an image is that of a window between them. -/
theorem span_score {image : Image} {window : Span} (order : window.start ≤ window.stop)
    (inside : window.stop ≤ image.size) (weights : Weights) (threshold : Float) :
    (score weights threshold window.start (image.slice window.start window.stop)).span = window := by
  have whole : image.bytes.size = image.size := rfl
  have length : (image.slice window.start window.stop).size = window.stop - window.start := by
    rw [Image.slice, Array.size_extract]
    omega
  show (⟨window.start, window.start + (image.slice window.start window.stop).size⟩ : Span) = window
  rw [length, Nat.add_sub_of_le order]

/-- The windows into which the multiples of a size cut the part of a span inside an image, each
with the score of exactly its own bytes. -/
structure Windows (weights : Weights) (threshold : Float) (size : Nat) (image : Image)
    (span : Span) (windows : List Region) : Prop where
  cuts : Span.Cuts size span.start (max span.start (min span.stop image.size))
    (windows.map Region.span)
  scored : ∀ window ∈ windows,
    window = score weights threshold window.offset (image.slice window.offset window.stop)

/-- Windows are determined by where they are cut. -/
theorem windows_iff {weights : Weights} {threshold : Float} {windowSize : Nat} {image : Image}
    {span : Span} {windows : List Region} :
    Windows weights threshold (max windowSize 1) image span windows ↔
      windows = classify weights threshold windowSize image span := by
  have positive : 0 < max windowSize 1 := Nat.lt_of_lt_of_le Nat.one_pos (Nat.le_max_right _ _)
  have bounds {window : Span}
      (member : window ∈ Span.pieces ⟨span.start, min span.stop image.size⟩ (max windowSize 1)) :
      (score weights threshold window.start (image.slice window.start window.stop)).span =
        window :=
    span_score (Guarded.start_le_stop_of_mem_pieces (Nat.ne_of_gt positive) member)
      (Nat.le_trans (Span.piece_bounds member).2 (Nat.min_le_right _ _)) weights threshold
  constructor
  · rintro ⟨cuts, scored⟩
    rw [classify, ← (Span.cuts_iff positive).mp cuts, List.map_map]
    conv_lhs => rw [← List.map_id windows]
    exact List.map_congr_left scored
  · rintro rfl
    refine ⟨(Span.cuts_iff positive).mpr ?_, fun region member => ?_⟩
    · rw [classify, List.map_map]
      conv_rhs => rw [← List.map_id (Span.pieces _ _)]
      exact List.map_congr_left fun window member => bounds member
    · obtain ⟨window, listed, rfl⟩ := List.mem_map.mp member
      have stop : (score weights threshold window.start
          (image.slice window.start window.stop)).stop = window.stop :=
        congrArg Span.stop (bounds listed)
      rw [stop]
      rfl

/-- A multiple of a size and the size itself have a sum of 64 bits if the multiple has 63. -/
theorem add_lt_of_dvd {size aligned : Nat} (fits : size < 2 ^ 64) (low : aligned < 2 ^ 63)
    (multiple : size ∣ aligned) : aligned + size < 2 ^ 64 := by
  rcases Nat.eq_zero_or_pos aligned with rfl | positive
  · omega
  · have shorter := Nat.le_of_dvd positive multiple
    omega

/-- The scores are those of the windows into which the multiples of the window size cut the part
of a span inside the image, and of no others; there are none if this part is empty. No sum made
on the way leaves 64 bits if the length of the image fits in 63. -/
theorem classify_exact (weights : Weights) (threshold : Float) (windowSize : Nat) (image : Image)
    (span : Span) :
    (∀ windows, Windows weights threshold (max windowSize 1) image span windows ↔
      windows = classify weights threshold windowSize image span) ∧
    (min span.stop image.size ≤ span.start →
      classify weights threshold windowSize image span = []) ∧
    (windowSize < 2 ^ 64 → image.size < 2 ^ 63 →
      (∀ aligned < min span.stop image.size, max windowSize 1 ∣ aligned →
        aligned + max windowSize 1 < 2 ^ 64) ∧
      Guarded.scores
          { windowSize := windowSize, minRegionConfidence := threshold, weights := weights }
          image span =
        .ok (classify weights threshold windowSize image span)) := by
  refine ⟨fun windows => windows_iff, fun empty => ?_, fun fits short => ⟨?_, ?_⟩⟩
  · rw [classify, Span.pieces_of_empty empty, List.map_nil]
  · intro aligned inside multiple
    exact add_lt_of_dvd (by omega) (by omega) multiple
  · exact Guarded.scores_eq short fits span

/-- The largest window size cuts nothing, and the windows of a small one are cut off at both
ends. -/
theorem classify_exact_cutOff :
    (2 ^ 64 - 1 < 2 ^ 64 ∧ (Image.mk (Array.replicate 10 0xEA)).size < 2 ^ 63 ∧
      Guarded.scores { windowSize := 2 ^ 64 - 1, minRegionConfidence := 0.6, weights := {} }
          ⟨Array.replicate 10 0xEA⟩ ⟨3, 20⟩ =
        .ok (classify {} 0.6 (2 ^ 64 - 1) ⟨Array.replicate 10 0xEA⟩ ⟨3, 20⟩)) ∧
    (classify {} 0.6 4 ⟨Array.replicate 10 0xEA⟩ ⟨3, 20⟩).map span =
      [⟨3, 4⟩, ⟨4, 8⟩, ⟨8, 10⟩] := by
  obtain ⟨-, -, guarded⟩ := classify_exact {} 0.6 (2 ^ 64 - 1) ⟨Array.replicate 10 0xEA⟩ ⟨3, 20⟩
  have fits : 2 ^ 64 - 1 < 2 ^ 64 := by decide
  have short : (Image.mk (Array.replicate 10 0xEA)).size < 2 ^ 63 := by decide
  exact ⟨⟨fits, short, (guarded fits short).2⟩, by decide +kernel⟩

end Region

end Cartridge
