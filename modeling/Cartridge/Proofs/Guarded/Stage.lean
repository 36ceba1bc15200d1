/-
This file states what every stage of a survey keeps so that none of its guards fails. Entries lie
in the range and are traced at most once, so the count of instructions is bounded by what one
trace decodes, times the size of the range, and it never exceeds the budget. Every state in which
an entry waits fits its shadows, since it is one of the starting states or was handed over by a
transfer on the way from there.
-/

import Cartridge.Proofs.Guarded.Routine
import Cartridge.Proofs.Survey.Entrance
import Cartridge.Proofs.Survey.Ledger
import Cartridge.Proofs.Survey.Termination

namespace Cartridge

/-! ### States that wait -/

theorem Entry.IsRoot.shallow {entry : Entry} (root : entry.IsRoot) : entry.processor.Shallow :=
  root.arises.shallow

namespace Scope

theorem Reaches.shallow {scope : Scope} {start offset : Nat} {entry processor : Processor}
    (reached : scope.Reaches start entry offset processor) (known : entry.Shallow) :
    processor.Shallow := by
  induction reached with
  | entry => exact known
  | falls _ _ _ inductionHypothesis => exact inductionHypothesis.advance _
  | follows _ _ _ _ _ _ inductionHypothesis => exact inductionHypothesis.advance _

theorem Sends.shallow {scope : Scope} {start : Nat} {entry : Processor} {sent : Entry}
    (sends : scope.Sends start entry sent) (known : entry.Shallow) : sent.processor.Shallow := by
  cases sends with
  | call executed _ _ => exact ((executed.1.shallow known).advance _).enterRoutine
  | jump executed _ _ => exact ((executed.1.shallow known).advance _).enterRoutine
  | branch executed _ _ _ => exact (executed.1.shallow known).advance _

/-- All the traces of a range together stay far below the width of the counter. -/
theorem Fits.total_lt {scope : Scope} (fits : scope.Fits) :
    (scope.range.size + 1) * scope.mostDecoded < 2 ^ 64 := by
  have range := fits.range
  have size : scope.range.size + 1 ≤ 0x7E0001 := by
    rw [Span.size]
    omega
  exact Nat.lt_of_le_of_lt (Nat.mul_le_mul size fits.mostDecoded_le) (by decide)

end Scope

/-! ### What every stage keeps -/

namespace Stage

/-- Entries are placed, the books are balanced, every state that waits fits its shadows, and
until the budget has run out the count is covered by the traces merged. -/
structure Fits (scope : Scope) (budget : Option Nat) (stage : Stage) : Prop where
  placed : stage.Placed scope
  balanced : stage.Balanced budget
  shallow : ∀ entry ∈ stage.survey.queue ++ stage.wave, entry.processor.Shallow
  decoded_le : stage.survey.exhausted = false →
    stage.survey.decoded ≤ stage.merged.length * scope.mostDecoded

variable {scope : Scope} {budget : Option Nat}

namespace Fits

theorem fresh (issues : Array Issue) (events : Array Event) :
    Fits scope budget ⟨{ issues := issues, events := events }, [], []⟩ where
  placed := .fresh issues events
  balanced := .fresh budget issues events
  shallow _ member := absurd member List.not_mem_nil
  decoded_le _ := Nat.zero_le _

/-- An entry that waits may be traced. -/
theorem due {stage : Stage} (fits : stage.Fits scope budget) {entry : Entry}
    (waiting : entry ∈ stage.survey.queue ++ stage.wave) :
    scope.Due (entry.offset, entry.processor) :=
  ⟨Survey.contains_of_waiting fits.placed waiting, fits.shallow entry waiting⟩

/-- The states that a trace hands over fit their shadows. -/
theorem shallow_merge {survey : Survey} {wave : List Entry} {trace : Trace}
    (taken : trace.Taken scope)
    (known : ∀ entry ∈ survey.queue ++ trace.entry :: wave, entry.processor.Shallow) :
    ∀ entry ∈ (survey.merge scope.range trace).queue ++ wave, entry.processor.Shallow := by
  intro entry member
  rcases List.mem_append.mp member with queued | waiting
  · rw [Survey.queue_merge] at queued
    rcases Survey.mem_queue_accept queued with old | offered
    · exact known entry (List.mem_append_left _ old)
    · have start := known trace.entry (List.mem_append_right _ List.mem_cons_self)
      exact (taken.sends entry (Trace.mem_successors_of_mem_offers offered)).shallow start
  · exact known entry (List.mem_append_right _ (List.mem_cons_of_mem _ waiting))

theorem move (scopeFits : scope.Fits) {before after : Stage} (move : Move scope budget before after)
    (fits : before.Fits scope budget) : after.Fits scope budget := by
  have placed := fits.placed.move move
  have balanced := fits.balanced.move move
  cases move with
  | @offer survey merged entry root =>
    rcases Survey.enqueue_cases scope.range survey entry with ⟨-, -, accepted⟩ | ⟨-, refused⟩
    · refine ⟨placed, balanced, fun other member => ?_, ?_⟩
      · rw [accepted] at member
        rcases List.mem_cons.mp member with rfl | old
        · exact root.shallow
        · exact fits.shallow other old
      · rw [accepted]
        exact fits.decoded_le
    · rwa [refused]
  | launch _ =>
    refine ⟨placed, balanced, fun other member => ?_, fits.decoded_le⟩
    exact fits.shallow other (List.mem_append_left _ (List.mem_mergeSort.mp member))
  | @merge survey entry wave merged within =>
    have start := Trace.entry_run scope entry
    refine ⟨placed, balanced, ?_, fun going => ?_⟩
    · refine shallow_merge (.whole entry) ?_
      rw [start]
      exact fits.shallow
    · have traced := (Guarded.trace_eq scopeFits
        (fits.due (List.mem_append_right _ List.mem_cons_self))).2.decoded_le
      rw [Survey.exhausted_merge] at going
      have known := fits.decoded_le going
      rw [Survey.decoded_merge, List.length_append, List.length_singleton, Nat.succ_mul]
      dsimp only at known ⊢
      omega
  | @cut survey entry wave merged limit exceeding left =>
    refine ⟨placed, balanced, ?_, fun going => ?_⟩
    · refine shallow_merge (.part entry left) ?_
      rw [Trace.entry_cut, Trace.entry_run]
      exact fits.shallow
    · rw [Survey.exhausted_merge] at going
      exact nomatch going
  | @refuse survey entry wave merged limit exceeding nothing =>
    refine ⟨placed, balanced, fun other member => fits.shallow other ?_, fun going => nomatch going⟩
    rcases List.mem_append.mp member with queued | waiting
    · exact List.mem_append_left _ queued
    · exact List.mem_append_right _ (List.mem_cons_of_mem _ waiting)
  | @giveUpWave survey wave merged stopped =>
    refine ⟨placed, balanced, fun other member => fits.shallow other ?_, fits.decoded_le⟩
    rw [List.append_nil] at member
    exact List.mem_append_left _ member
  | giveUpQueue stopped =>
    exact ⟨placed, balanced, fun other member => absurd member List.not_mem_nil, fits.decoded_le⟩

end Fits

end Stage

end Cartridge
