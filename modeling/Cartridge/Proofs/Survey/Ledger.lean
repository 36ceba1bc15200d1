/-
This file balances the books of a survey. Every instruction that a trace decodes is counted,
also one that finds no place in a routine, and a trace that exceeds the budget is counted as
what was left of the budget. So at every stage the count stays within the budget and is no
less than the number of instructions in the routines; and once the budget has run out, all
of it is counted. From then on no trace fits the budget unless it decodes nothing, and so no
routine is added.
-/

import Cartridge.Proofs.Counting
import Cartridge.Proofs.Survey.Provenance
import Mathlib.Algebra.Ring.Nat

namespace Cartridge

namespace Survey

/-! ### Counting -/

/-- The number of instructions in the routines that a survey has recorded. -/
def listed (survey : Survey) : Nat :=
  (survey.recorded.map fun routine => routine.instructions.length).sum

theorem listed_merge_le (range : Span) (survey : Survey) (trace : Trace) :
    (survey.merge range trace).listed ≤ survey.listed + trace.tiling.size := by
  rw [listed, recorded_merge, List.map_append, List.sum_append]
  refine Nat.add_le_add_left ?_ _
  cases yields : trace.yield? with
  | none => exact Nat.zero_le _
  | some found =>
    obtain ⟨-, traced, -⟩ := Trace.yield?_eq_some_iff.mp yields
    obtain ⟨-, -, -, -, instructions, -⟩ := Trace.routine?_eq_some traced
    simp [instructions]

theorem exceeds_eq_some_iff {budget : Option Nat} {survey : Survey} {trace : Trace}
    {limit : Nat} : survey.exceeds budget trace = some limit ↔
      budget = some limit ∧ limit < survey.decoded + trace.decoded := by
  rw [exceeds, Option.filter_eq_some_iff, decide_eq_true_eq]

theorem le_of_exceeds_eq_none {budget : Option Nat} {survey : Survey} {trace : Trace}
    (within : survey.exceeds budget trace = none) {limit : Nat} (limited : budget = some limit) :
    survey.decoded + trace.decoded ≤ limit := by
  refine Nat.le_of_not_lt fun exceeding => ?_
  rw [exceeds_eq_some_iff.mpr ⟨limited, exceeding⟩] at within
  exact nomatch within

end Survey

namespace Stage

variable {scope : Scope} {budget : Option Nat}

/-- The count stays within the budget and covers the routines; if the budget has run out,
all of it is counted. -/
structure Balanced (budget : Option Nat) (stage : Stage) : Prop where
  within : ∀ {limit : Nat}, budget = some limit → stage.survey.decoded ≤ limit
  covers : stage.survey.listed ≤ stage.survey.decoded
  spent : stage.survey.exhausted = true → budget = some stage.survey.decoded

namespace Balanced

theorem fresh (budget : Option Nat) (issues : Array Issue) (events : Array Event) :
    Balanced budget ⟨{ issues := issues, events := events }, [], []⟩ where
  within _ := Nat.zero_le _
  covers := Nat.le_refl _
  spent stopped := nomatch stopped

theorem frame {before after : Stage} (balanced : before.Balanced budget)
    (decoded : after.survey.decoded = before.survey.decoded)
    (routines : after.survey.routines = before.survey.routines)
    (exhausted : after.survey.exhausted = before.survey.exhausted) : after.Balanced budget := by
  have listed : after.survey.listed = before.survey.listed := by
    rw [Survey.listed, Survey.listed, Survey.recorded, Survey.recorded, routines]
  constructor
  · rw [decoded]
    exact balanced.within
  · rw [decoded, listed]
    exact balanced.covers
  · rw [decoded, exhausted]
    exact balanced.spent

/-- A trace may be merged once it is counted. -/
theorem merge {survey : Survey} {trace : Trace} {wave : List Entry} {merged : List Trace}
    (within : ∀ {limit : Nat}, budget = some limit → survey.decoded ≤ limit)
    (covers : survey.listed + trace.tiling.size ≤ survey.decoded)
    (spent : survey.exhausted = true → budget = some survey.decoded) :
    Balanced budget ⟨survey.merge scope.range trace, wave, merged⟩ := by
  constructor
  · rw [Survey.decoded_merge]
    exact within
  · rw [Survey.decoded_merge]
    exact Nat.le_trans (Survey.listed_merge_le _ _ _) covers
  · rw [Survey.decoded_merge, Survey.exhausted_merge]
    exact spent

theorem move {before after : Stage} (move : Move scope budget before after)
    (balanced : before.Balanced budget) : after.Balanced budget := by
  cases move with
  | @offer survey merged entry root =>
    rcases Survey.enqueue_cases scope.range survey entry with ⟨-, -, accepted⟩ | ⟨-, refused⟩
    · rw [accepted]
      exact balanced.frame rfl rfl rfl
    · rwa [refused]
  | launch _ => exact balanced.frame rfl rfl rfl
  | @merge survey entry wave merged fits =>
    refine merge (Survey.le_of_exceeds_eq_none fits) ?_ fun stopped => ?_
    · exact Nat.add_le_add balanced.covers (Trace.size_run_le scope entry)
    · have limited : budget = some survey.decoded := balanced.spent stopped
      have fits := Survey.le_of_exceeds_eq_none fits limited
      rw [limited]
      exact congrArg some (Nat.le_antisymm (Nat.le_add_right _ _) fits)
  | @cut survey entry wave merged limit exceeding left =>
    obtain ⟨limited, -⟩ := Survey.exceeds_eq_some_iff.mp exceeding
    have within : survey.decoded ≤ limit := balanced.within limited
    refine merge (fun same => Nat.le_of_eq (Option.some.inj (limited.symm.trans same))) ?_
      fun _ => limited
    calc survey.listed + ((Trace.run scope entry).cut (limit - survey.decoded)).tiling.size
        ≤ survey.decoded + (limit - survey.decoded) :=
          Nat.add_le_add balanced.covers (Trace.size_cut_le _ _)
      _ = limit := Nat.add_sub_of_le within
  | @refuse survey entry wave merged limit exceeding nothing =>
    obtain ⟨limited, -⟩ := Survey.exceeds_eq_some_iff.mp exceeding
    have within : survey.decoded ≤ limit := balanced.within limited
    refine ⟨balanced.within, balanced.covers, fun _ => ?_⟩
    rw [limited]
    exact congrArg some (Nat.le_antisymm (Nat.le_of_sub_eq_zero nothing) within)
  | giveUpWave _ => exact balanced.frame rfl rfl rfl
  | giveUpQueue _ => exact balanced.frame rfl rfl rfl

/-- Once the budget has run out, no move adds a routine. -/
theorem routines_of_move {before after : Stage} (balanced : before.Balanced budget)
    (stopped : before.survey.exhausted = true) (move : Move scope budget before after) :
    after.survey.routines = before.survey.routines ∧ after.survey.exhausted = true := by
  cases move with
  | @offer survey merged entry root =>
    rcases Survey.enqueue_cases scope.range survey entry with ⟨-, -, accepted⟩ | ⟨-, refused⟩
    · rw [accepted]
      exact ⟨rfl, stopped⟩
    · rw [refused]
      exact ⟨rfl, stopped⟩
  | launch going => exact Bool.noConfusion (going.symm.trans stopped)
  | @merge survey entry wave merged fits =>
    -- a trace that still fits decoded nothing, and so there is nothing to record
    have fits := Survey.le_of_exceeds_eq_none fits (balanced.spent stopped)
    have size := Trace.size_run_le scope entry
    have empty : (Trace.run scope entry).tiling.instructions = [] := by
      rw [← List.length_eq_zero_iff, Tiling.length_instructions]
      dsimp only at fits
      omega
    have nothing : (Trace.run scope entry).yield? = none := by
      rw [Trace.yield?, Trace.routine?_eq_none_iff.mpr empty, Option.map_none, ite_self]
    refine ⟨?_, (Survey.exhausted_merge _ _ _).trans stopped⟩
    show (Survey.merge _ _ _).routines = survey.routines
    rw [Survey.routines_merge, nothing]
    exact Array.append_empty
  | @cut survey entry wave merged limit exceeding left =>
    obtain ⟨limited, -⟩ := Survey.exceeds_eq_some_iff.mp exceeding
    have all : limit = survey.decoded :=
      Option.some.inj (limited.symm.trans (balanced.spent stopped))
    exact absurd (all ▸ Nat.sub_self limit) left
  | refuse _ _ => exact ⟨rfl, rfl⟩
  | giveUpWave _ => exact ⟨rfl, stopped⟩
  | giveUpQueue _ => exact ⟨rfl, stopped⟩

end Balanced

theorem Course.balanced {first last : Stage} (course : Course scope budget first last)
    (balanced : first.Balanced budget) : last.Balanced budget :=
  course.keeps (Balanced budget) Balanced.move balanced

/-- Once the budget has run out, the routines stay as they are. -/
theorem Course.routines_eq {first last : Stage} (course : Course scope budget first last)
    (balanced : first.Balanced budget) (stopped : first.survey.exhausted = true) :
    last.survey.routines = first.survey.routines := by
  refine (course.keeps (fun stage => stage.Balanced budget ∧
    stage.survey.routines = first.survey.routines ∧ stage.survey.exhausted = true) ?_
      ⟨balanced, rfl, stopped⟩).2.1
  rintro before after move ⟨balanced, same, stopped⟩
  obtain ⟨routines, stays⟩ := balanced.routines_of_move stopped move
  exact ⟨balanced.move move, routines.trans same, stays⟩

end Stage

end Cartridge
