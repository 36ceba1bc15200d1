/-
This file proves what every walk does, whatever it meets. The steps of a walk are fetched
one after the other, each under the state that its predecessors leave behind, so a
property of offset and state that one fall-through keeps holds before every step. The
first step stands at the start, a walk without steps never counts as confident, and there
are no more steps than allowed.
-/

import Cartridge.Walk

namespace Cartridge.Board

/-! ### Properties that a fall-through keeps -/

/-- If falling through an instruction keeps a property of the offset and the state, every
step of a path is fetched where the property holds. -/
theorem path_invariant {board : Board} {stop : Nat} (Holds : Nat → Processor → Prop)
    (falls : ∀ {offset processor instruction}, Holds offset processor →
      board.fetch? stop offset processor = some instruction →
      instruction.flow.ending? = none → Holds instruction.stop (processor.advance instruction))
    {limit offset : Nat} {processor : Processor} (holds : Holds offset processor) {step : Step}
    (member : step ∈ (board.path stop limit offset processor).1) :
    ∃ before, Holds step.instruction.offset before ∧
      board.fetch? stop step.instruction.offset before = some step.instruction ∧
      step.after = before.advance step.instruction := by
  induction limit generalizing offset processor with
  | zero => exact absurd member List.not_mem_nil
  | succ limit inductionHypothesis =>
    rw [path] at member
    cases fetched : board.fetch? stop offset processor with
    | none => simp [fetched] at member
    | some instruction =>
      have here : instruction.offset = offset :=
        Instruction.offset_of_decode (fetch?_eq_some_iff.mp fetched).1
      have first : ∃ before, Holds instruction.offset before ∧
          board.fetch? stop instruction.offset before = some instruction ∧
          processor.advance instruction = before.advance instruction :=
        ⟨processor, here ▸ holds, here ▸ fetched, rfl⟩
      simp only [fetched] at member
      cases ends : instruction.flow.ending? with
      | some ending =>
        rw [ends] at member
        rw [List.mem_singleton.mp member]
        exact first
      | none =>
        rw [ends] at member
        rcases List.mem_cons.mp member with rfl | later
        · exact first
        · exact inductionHypothesis (falls holds fetched ends) later

/-! ### The beginning of a walk -/

/-- The first step of a path stands at its offset. -/
theorem offset_head_path {board : Board} {stop limit offset : Nat} {processor : Processor}
    {step : Step} {rest : List Step}
    (steps : (board.path stop limit offset processor).1 = step :: rest) :
    step.instruction.offset = offset := by
  cases limit with
  | zero => exact nomatch steps
  | succ limit =>
    rw [path] at steps
    cases fetched : board.fetch? stop offset processor with
    | none => simp [fetched] at steps
    | some instruction =>
      have here := Instruction.offset_of_decode (fetch?_eq_some_iff.mp fetched).1
      cases ends : instruction.flow.ending? <;> simp only [fetched, ends, List.cons.injEq] at steps
      all_goals rw [← steps.1, here]

/-- A path that may take a step but takes none runs out of its window at once. -/
theorem ending_path_of_nil {board : Board} {stop limit offset : Nat} {processor : Processor}
    (steps : (board.path stop limit offset processor).1 = []) :
    (board.path stop limit offset processor).2 = if limit = 0 then .limited else .truncated := by
  cases limit with
  | zero => rfl
  | succ limit =>
    rw [path] at steps ⊢
    cases fetched : board.fetch? stop offset processor with
    | none => rfl
    | some instruction =>
      cases ends : instruction.flow.ending? <;> simp [fetched, ends] at steps

/-! ### The length of a walk -/

theorem length_path_le (board : Board) (stop limit offset : Nat) (processor : Processor) :
    (board.path stop limit offset processor).1.length ≤ limit := by
  induction limit generalizing offset processor with
  | zero => exact Nat.le_refl 0
  | succ limit inductionHypothesis =>
    rw [path]
    cases board.fetch? stop offset processor with
    | none => exact Nat.zero_le _
    | some instruction =>
      cases ends : instruction.flow.ending? with
      | some ending =>
        simp only [ends]
        exact Nat.le_add_left 1 limit
      | none =>
        simp only [ends, List.length_cons]
        exact Nat.succ_le_succ (inductionHypothesis _ _)

end Cartridge.Board
