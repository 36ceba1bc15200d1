/-
This file proves that a trace that is not trusted is one straight piece of code. Such a trace
keeps to its first walk, and the instructions of a walk stand one behind the other: all of
them are placed, and nothing is left between them. So the routine that the trace gives has no
gaps, and since no transfer was followed, it names no targets either.
-/

import Cartridge.Proofs.Ascending
import Cartridge.Proofs.Trace

namespace Cartridge

/-! ### The instructions of a walk -/

theorem Board.isChain_path (board : Board) (stop limit offset : Nat) (processor : Processor) :
    ((board.path stop limit offset processor).1.map Step.instruction).IsChain
      fun first second => first.stop = second.offset := by
  induction limit generalizing offset processor with
  | zero => exact .nil
  | succ limit inductionHypothesis =>
    rw [path]
    cases board.fetch? stop offset processor with
    | none => exact .nil
    | some instruction =>
      cases ends : instruction.flow.ending? with
      | some ending =>
        simp only [ends]
        exact .singleton _
      | none =>
        simp only [ends, List.map_cons]
        have chain := inductionHypothesis instruction.stop (processor.advance instruction)
        cases steps : (board.path stop limit instruction.stop (processor.advance instruction)).1
          with
        | nil => exact .singleton _
        | cons step rest =>
          rw [steps] at chain
          exact .cons_cons (offset_head_path steps).symm chain

theorem Instruction.pairwise_of_isChain {instructions : List Instruction}
    (chain : instructions.IsChain fun first second => first.stop = second.offset) :
    instructions.Pairwise fun earlier later => earlier.stop ≤ later.offset := by
  induction instructions with
  | nil => exact .nil
  | cons first rest inductionHypothesis =>
    cases rest with
    | nil => exact List.pairwise_singleton _ _
    | cons second rest =>
      obtain ⟨touch, chained⟩ := List.isChain_cons_cons.mp chain
      have apart := inductionHypothesis chained
      refine List.pairwise_cons.mpr ⟨fun later member => ?_, apart⟩
      rcases List.mem_cons.mp member with rfl | behind
      · exact Nat.le_of_eq touch
      · have before := (List.pairwise_cons.mp apart).1 later behind
        rw [touch]
        exact Nat.le_trans (Nat.le_of_lt second.offset_lt_stop) before

/-- Instructions that stand one behind the other leave no gap. -/
theorem Routine.gapsBetween_of_isChain {instructions : List Instruction}
    (chain : instructions.IsChain fun first second => first.stop = second.offset) :
    gapsBetween instructions = [] := by
  induction instructions with
  | nil => rfl
  | cons first rest inductionHypothesis =>
    cases rest with
    | nil => rfl
    | cons second rest =>
      obtain ⟨touch, chained⟩ := List.isChain_cons_cons.mp chain
      rw [gapsBetween, if_neg (Nat.not_lt_of_le (Nat.le_of_eq touch.symm))]
      exact inductionHypothesis chained

/-! ### Placing instructions that do not overlap -/

namespace Tiling

/-- Instructions that follow those in a tiling, and one another, are all placed. -/
theorem getElem?_foldl_place_of_mem {tiling : Tiling} (orderly : tiling.Orderly)
    {instructions : List Instruction}
    (behind : ∀ instruction ∈ instructions, ∀ {offset : Nat} {placed : Instruction},
      tiling[offset]? = some placed → placed.stop ≤ instruction.offset)
    (apart : instructions.Pairwise fun earlier later => earlier.stop ≤ later.offset)
    {instruction : Instruction} (member : instruction ∈ instructions) :
    (instructions.foldl place tiling)[instruction.offset]? = some instruction := by
  induction instructions generalizing tiling with
  | nil => exact absurd member List.not_mem_nil
  | cons first rest inductionHypothesis =>
    obtain ⟨before, apartRest⟩ := List.pairwise_cons.mp apart
    have free : ¬ tiling.overlaps first = true := by
      intro overlaps
      obtain ⟨offset, placed, look, -, reaches⟩ := (overlaps_iff orderly first).mp overlaps
      exact Nat.not_lt_of_le (behind first List.mem_cons_self look) reaches
    rcases List.mem_cons.mp member with rfl | later
    · refine getElem?_foldl_place_of_some ?_ rest
      rw [getElem?_place_of_not_overlaps free, if_pos rfl]
    · refine inductionHypothesis (orderly.place first) ?_ apartRest later
      intro other listed offset placed look
      rcases getElem?_of_place look with old | ⟨rfl, -⟩
      · exact behind other (List.mem_cons_of_mem _ listed) old
      · exact before other listed

/-- Placing instructions that follow one another gives back just these. -/
theorem instructions_foldl_place {instructions : List Instruction}
    (apart : instructions.Pairwise fun earlier later => earlier.stop ≤ later.offset) :
    Tiling.instructions (instructions.foldl place Std.TreeMap.empty) = instructions := by
  have ascending : ∀ {items : List Instruction},
      items.Pairwise (fun earlier later => earlier.stop ≤ later.offset) →
        items.Pairwise fun earlier later => earlier.offset < later.offset :=
    fun apart => apart.imp fun before => Nat.lt_of_lt_of_le (Instruction.offset_lt_stop _) before
  refine eq_of_pairwise_lt Instruction.offset
    (ascending (orderly_empty.foldl_place instructions).pairwise_instructions) (ascending apart)
    fun instruction => ?_
  rw [mem_instructions]
  constructor
  · rintro ⟨offset, look⟩
    rcases getElem?_of_foldl_place look with old | ⟨member, -⟩
    · simp at old
    · exact member
  · intro member
    refine ⟨_, getElem?_foldl_place_of_mem orderly_empty ?_ apart member⟩
    intro other _ offset placed look
    simp at look

end Tiling

/-! ### Traces that are not trusted -/

namespace Trace

variable {scope : Scope} {entry : Entry}

/-- The routine of a trace that is not trusted has no gaps and names no targets. -/
theorem straight_of_not_confident (doubtful : (run scope entry).isConfident = false)
    {routine : Routine} (found : (run scope entry).routine? = some routine) :
    routine.calls = [] ∧ routine.jumps = [] ∧ routine.unmapped = [] ∧ routine.gaps = [] := by
  have chain : (scope.walk entry.offset entry.processor).instructions.IsChain
      fun first second => first.stop = second.offset := by
    rw [Walk.instructions, Scope.walk, Board.steps_walk]
    exact Board.isChain_path _ _ _ _ _
  rw [run_of_not_confident doubtful] at found
  obtain ⟨first, -, rfl⟩ := Option.map_eq_some_iff.mp found
  refine ⟨ascending_nil _, ascending_nil _, ascending_nil _, ?_⟩
  show Routine.gapsBetween (Tiling.instructions ((scope.walk entry.offset
    entry.processor).instructions.foldl Tiling.place Std.TreeMap.empty)) = []
  rw [Tiling.instructions_foldl_place (Instruction.pairwise_of_isChain chain)]
  exact Routine.gapsBetween_of_isChain chain

end Trace

end Cartridge
