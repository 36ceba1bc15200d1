/-
This file says when spans partition a stretch of offsets: each begins where the one before
it ends, and none is empty. Such spans share no offset and together hold exactly the
offsets of the stretch. The instructions and gaps of a routine, sorted, are such spans; so are
the pieces of a span that is cut at the multiples of a size.
-/

import Cartridge.Span
import Mathlib.Data.List.Perm.Subperm
import Mathlib.Data.List.Nodup

namespace Cartridge.Span

/-- A span has room for no more different offsets than its size. -/
theorem length_le_size {span : Span} {offsets : List Nat} (once : offsets.Nodup)
    (inside : ∀ offset ∈ offsets, span.contains offset = true) :
    offsets.length ≤ span.size := by
  have contained : offsets ⊆ List.range' span.start span.size := by
    intro offset member
    have within := (contains_iff _ _).mp (inside offset member)
    rw [List.mem_range'_1, size]
    omega
  simpa using (once.subperm contained).length_le

/-- Two spans have no offset in common. -/
def Disjoint (first second : Span) : Prop :=
  ∀ offset, ¬ (first.contains offset = true ∧ second.contains offset = true)

theorem Disjoint.symm {first second : Span} (disjoint : first.Disjoint second) :
    second.Disjoint first :=
  fun offset both => disjoint offset both.symm

theorem disjoint_of_stop_le {first second : Span} (before : first.stop ≤ second.start) :
    first.Disjoint second := by
  rintro offset ⟨inFirst, inSecond⟩
  rw [contains_iff] at inFirst inSecond
  omega

/-- Spans that follow one another from one offset to another, none of them empty. -/
inductive Partition : Nat → List Span → Nat → Prop
  | nil (offset : Nat) : Partition offset [] offset
  | cons {start stop finish : Nat} {rest : List Span} (nonempty : start < stop)
      (follows : Partition stop rest finish) : Partition start (⟨start, stop⟩ :: rest) finish

namespace Partition

theorem le {start finish : Nat} {pieces : List Span} (partition : Partition start pieces finish) :
    start ≤ finish := by
  induction partition with
  | nil => exact Nat.le_refl _
  | cons nonempty _ inductionHypothesis =>
    exact Nat.le_trans (Nat.le_of_lt nonempty) inductionHypothesis

theorem start_le_of_mem {start finish : Nat} {pieces : List Span}
    (partition : Partition start pieces finish) {piece : Span} (member : piece ∈ pieces) :
    start ≤ piece.start ∧ piece.start < piece.stop := by
  induction partition with
  | nil => exact absurd member List.not_mem_nil
  | cons nonempty _ inductionHypothesis =>
    rcases List.mem_cons.mp member with rfl | later
    · exact ⟨Nat.le_refl _, nonempty⟩
    · obtain ⟨after, positive⟩ := inductionHypothesis later
      exact ⟨Nat.le_trans (Nat.le_of_lt nonempty) after, positive⟩

/-- Every span of a partition ends at or before the start of the next. -/
theorem pairwise_stop_le {start finish : Nat} {pieces : List Span}
    (partition : Partition start pieces finish) :
    pieces.Pairwise fun first second => first.stop ≤ second.start := by
  induction partition with
  | nil => exact List.Pairwise.nil
  | cons _ follows inductionHypothesis =>
    exact .cons (fun _ member => (follows.start_le_of_mem member).1) inductionHypothesis

theorem pairwise_disjoint {start finish : Nat} {pieces : List Span}
    (partition : Partition start pieces finish) : pieces.Pairwise Disjoint :=
  partition.pairwise_stop_le.imp disjoint_of_stop_le

/-- Together the spans of a partition hold exactly the offsets from its start to its
finish. -/
theorem exists_contains_iff {start finish : Nat} {pieces : List Span}
    (partition : Partition start pieces finish) (offset : Nat) :
    (∃ piece ∈ pieces, piece.contains offset = true) ↔ start ≤ offset ∧ offset < finish := by
  induction partition with
  | nil =>
    simp only [List.not_mem_nil, false_and, exists_false, false_iff]
    omega
  | cons nonempty follows inductionHypothesis =>
    have bounded := follows.le
    simp only [List.mem_cons, exists_eq_or_imp]
    rw [inductionHypothesis, contains_iff]
    dsimp only
    omega

end Partition

/-! ### Pieces one after the other -/

theorem lt_next_multiple {size : Nat} (positive : 0 < size) (start : Nat) :
    start < (start / size + 1) * size :=
  (Nat.div_lt_iff_lt_mul positive).mp (Nat.lt_succ_self _)

/-- The first piece of a span goes to the next multiple of the size, and the others are the
pieces of what is left. -/
theorem pieces_of_nonempty {start stop size : Nat} (positive : 0 < size)
    (nonempty : start < stop) :
    pieces ⟨start, stop⟩ size = ⟨start, min ((start / size + 1) * size) stop⟩ ::
      pieces ⟨min ((start / size + 1) * size) stop, stop⟩ size := by
  have reached := Nat.div_mul_le_self start size
  have order : start / size ≤ (stop - 1) / size := Nat.div_le_div_right (by omega)
  have first : piece ⟨start, stop⟩ size (start / size) =
      ⟨start, min ((start / size + 1) * size) stop⟩ := by
    rw [piece, Nat.max_eq_left reached, Nat.min_comm]
  rw [pieces, if_pos nonempty]
  show (List.range' (start / size) ((stop - 1) / size + 1 - start / size)).map _ = _
  rw [Nat.succ_sub order, List.range'_succ, List.map_cons, first]
  refine congrArg _ ?_
  rcases Nat.lt_or_ge ((start / size + 1) * size) stop with more | last
  · have behind := lt_next_multiple positive start
    rw [Nat.min_eq_left (Nat.le_of_lt more), pieces, if_pos more]
    show _ = (List.range' ((start / size + 1) * size / size)
      ((stop - 1) / size + 1 - (start / size + 1) * size / size)).map _
    rw [Nat.mul_div_cancel _ positive, Nat.succ_sub_succ]
    refine List.map_congr_left fun index member => ?_
    have after : (start / size + 1) * size ≤ index * size :=
      Nat.mul_le_mul_right _ (List.mem_range'_1.mp member).1
    rw [piece, piece, Nat.max_eq_right after,
      Nat.max_eq_right (Nat.le_trans (Nat.le_of_lt behind) after)]
  · have single : (stop - 1) / size < start / size + 1 :=
      (Nat.div_lt_iff_lt_mul positive).mpr (by omega)
    rw [Nat.min_eq_right last, pieces_of_empty (Nat.le_refl _),
      Nat.sub_eq_zero_of_le (Nat.le_of_lt_succ single)]
    rfl

/-- What holds of no pieces behind the end of a span, and of one more piece in front of those
behind it, holds of all pieces of a span. -/
theorem pieces_induction {stop size : Nat} (positive : 0 < size)
    {motive : Nat → List Span → Prop} (behind : ∀ start, stop ≤ start → motive start [])
    (before : ∀ start rest, start < stop →
      motive (min ((start / size + 1) * size) stop) rest →
      motive start (⟨start, min ((start / size + 1) * size) stop⟩ :: rest))
    (start : Nat) : motive start (pieces ⟨start, stop⟩ size) := by
  induction left : stop - start using Nat.strongRecOn generalizing start with
  | ind left inductionHypothesis =>
    rcases Nat.lt_or_ge start stop with inside | outside
    · have next := lt_next_multiple positive start
      rw [pieces_of_nonempty positive inside]
      exact before start _ inside (inductionHypothesis _ (by omega) _ rfl)
    · rw [pieces_of_empty outside]
      exact behind start outside

/-- The pieces of a span partition it. -/
theorem partition_pieces {size : Nat} (positive : 0 < size) (start stop : Nat) :
    Partition start (pieces ⟨start, stop⟩ size) (max start stop) := by
  refine pieces_induction positive
    (motive := fun start rest => Partition start rest (max start stop))
    (fun start outside => ?_) (fun start rest inside follows => ?_) start
  · rw [Nat.max_eq_left outside]
    exact .nil start
  · have next := lt_next_multiple positive start
    rw [Nat.max_eq_right (Nat.min_le_right _ _)] at follows
    rw [Nat.max_eq_right (Nat.le_of_lt inside)]
    exact .cons (Nat.lt_min.mpr ⟨next, inside⟩) follows

/-- Every piece of a span goes to the next multiple of the size, or to the end of the span. -/
theorem stop_of_mem_pieces {size start stop : Nat} (positive : 0 < size) {piece : Span}
    (member : piece ∈ pieces ⟨start, stop⟩ size) :
    piece.stop = min ((piece.start / size + 1) * size) stop := by
  revert member
  refine pieces_induction positive (motive := fun _ rest => piece ∈ rest → _)
    (fun start _ member => ?_) (fun start rest _ inductionHypothesis member => ?_) start
  · exact absurd member List.not_mem_nil
  · rcases List.mem_cons.mp member with rfl | later
    · rfl
    · exact inductionHypothesis later

/-- A multiple of the size inside a span divides its pieces into those before it and those
behind it. -/
theorem pieces_append {size start middle stop : Nat} (positive : 0 < size)
    (aligned : size ∣ middle) (first : start ≤ middle) (second : middle ≤ stop) :
    pieces ⟨start, stop⟩ size = pieces ⟨start, middle⟩ size ++ pieces ⟨middle, stop⟩ size := by
  revert first
  refine pieces_induction positive
    (motive := fun start rest => start ≤ middle →
      pieces ⟨start, stop⟩ size = rest ++ pieces ⟨middle, stop⟩ size)
    (fun start outside first => ?_) (fun start rest inside inductionHypothesis _ => ?_) start
  · rw [Nat.le_antisymm first outside, List.nil_append]
  · obtain ⟨count, rfl⟩ := aligned
    have index : start / size < count := (Nat.div_lt_iff_lt_mul positive).mpr (by
      rwa [Nat.mul_comm])
    have next : (start / size + 1) * size ≤ size * count := by
      rw [Nat.mul_comm size]
      exact Nat.mul_le_mul_right _ index
    rw [Nat.min_eq_left next] at inductionHypothesis ⊢
    rw [pieces_of_nonempty positive (Nat.lt_of_lt_of_le inside second),
      Nat.min_eq_left (Nat.le_trans next second), inductionHypothesis next, List.cons_append]

end Cartridge.Span
