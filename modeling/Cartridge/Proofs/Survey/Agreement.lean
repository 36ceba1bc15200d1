/-
This file proves that a survey depends on its scope only through the traces of entries inside
the range. Every entry that a survey traces was accepted, and what is accepted lies in the
range; so in two scopes that agree a survey merges the same traces. What it reported before
plays no part either: surveys that differ in their reports only go on to find the same.
-/

import Cartridge.Proofs.Agreement
import Cartridge.Proofs.Survey.Pairing
import Cartridge.Proofs.Survey.Placement

namespace Cartridge

namespace Survey

/-! ### Reports do not matter -/

/-- Two surveys have found the same; only their reports may differ. -/
def SameFindings (first second : Survey) : Prop :=
  ∃ events, first = { second with events := events }

namespace SameFindings

theorem enqueue {first second : Survey} (same : first.SameFindings second) (range : Span)
    (entry : Entry) : (first.enqueue range entry).SameFindings (second.enqueue range entry) := by
  obtain ⟨events, rfl⟩ := same
  refine ⟨events, ?_⟩
  unfold Survey.enqueue
  split <;> rfl

theorem accept {first second : Survey} (same : first.SameFindings second) (range : Span)
    (entries : List Entry) :
    (first.accept range entries).SameFindings (second.accept range entries) := by
  induction entries generalizing first second with
  | nil => exact same
  | cons entry rest inductionHypothesis => exact inductionHypothesis (same.enqueue range entry)

theorem merge {first second : Survey} (same : first.SameFindings second) (range : Span)
    (trace : Trace) : (first.merge range trace).SameFindings (second.merge range trace) := by
  obtain ⟨events, accepted⟩ := same.accept range trace.offers
  obtain ⟨reports, rfl⟩ := same
  rw [merge_eq, merge_eq, accepted]
  exact ⟨_, rfl⟩

theorem mergeCut {first second : Survey} (same : first.SameFindings second) (range : Span)
    (budget : Nat) (trace : Trace) :
    (first.mergeCut range budget trace).SameFindings (second.mergeCut range budget trace) := by
  obtain ⟨events, rfl⟩ := same
  by_cases nothing : budget - second.decoded = 0
  · rw [Survey.mergeCut, Survey.mergeCut, if_pos nothing, if_pos nothing]
    exact ⟨events, rfl⟩
  · rw [Survey.mergeCut, Survey.mergeCut, if_neg nothing, if_neg nothing]
    refine SameFindings.merge ?_ range _
    exact ⟨events, rfl⟩

theorem mergeAll {first second : Survey} (same : first.SameFindings second) (range : Span)
    (budget : Option Nat) (traces : List Trace) :
    (first.mergeAll range budget traces).SameFindings (second.mergeAll range budget traces) := by
  induction traces generalizing first second with
  | nil => exact same
  | cons trace rest inductionHypothesis =>
    have decoded : first.decoded = second.decoded := by
      obtain ⟨events, rfl⟩ := same
      rfl
    rw [Survey.mergeAll, Survey.mergeAll, exceeds, exceeds, decoded]
    split
    · rename_i limit _
      obtain ⟨events, cut⟩ := same.mergeCut range limit trace
      rw [cut]
      exact ⟨events, rfl⟩
    · refine inductionHypothesis (SameFindings.merge ?_ range trace)
      obtain ⟨events, rfl⟩ := same
      exact ⟨events, rfl⟩

end SameFindings

/-! ### Scopes that agree -/

variable {first second : Scope} {budget : Option Nat}

theorem handleWave_congr (agrees : first.Agrees second) {survey : Survey} {merged : List Trace}
    (placed : Stage.Placed first ⟨survey, [], merged⟩) :
    survey.handleWave first budget = survey.handleWave second budget := by
  have traces : survey.nextWave.map (Trace.run first) = survey.nextWave.map (Trace.run second) := by
    refine List.map_congr_left fun entry member => Trace.run_congr agrees ?_
    refine placed.inside (placed.marked.mpr ?_)
    refine List.mem_append_left _ (List.mem_append_left _ (List.mem_append_left _ ?_))
    exact List.mem_map_of_mem (List.mem_mergeSort.mp member)
  rw [handleWave, handleWave, traces, agrees.range]

theorem sameFindings_handleWave {left right : Survey} (same : left.SameFindings right)
    (scope : Scope) :
    (left.handleWave scope budget).SameFindings (right.handleWave scope budget) := by
  obtain ⟨events, rfl⟩ := same
  by_cases stopped : right.exhausted = true
  · rw [handleWave, handleWave, if_pos stopped, if_pos stopped]
    exact ⟨events, rfl⟩
  · rw [handleWave, handleWave, if_neg stopped, if_neg stopped]
    refine SameFindings.mergeAll ?_ _ _ _
    exact ⟨_, rfl⟩

/-- Surveys in scopes that agree go together to their ends. -/
theorem pairing_agrees (agrees : first.Agrees second) (budget : Option Nat) :
    Pairing first second budget budget
      (fun left right => left.SameFindings right ∧
        ∃ merged, Stage.Placed first ⟨left, [], merged⟩) (fun _ _ => False) where
  range := agrees.range
  queue := by
    rintro left right ⟨⟨events, rfl⟩, -⟩
    rfl
  exhausted := by
    rintro left right ⟨⟨events, rfl⟩, -⟩
    rfl
  covered := by
    rintro left right ⟨⟨events, rfl⟩, -⟩
    rfl
  seen := by
    rintro left right ⟨⟨events, rfl⟩, -⟩
    rfl
  offer := by
    rintro left right entry ⟨same, merged, placed⟩ -
    rw [← agrees.range]
    exact ⟨same.enqueue first.range entry, merged, placed.enqueue entry⟩
  wave := by
    rintro left right ⟨same, merged, placed⟩
    have handled := (Stage.course_handleWave first budget left merged).placed placed
    refine Or.inl ⟨?_, _, handled⟩
    rw [handleWave_congr agrees placed]
    exact sameFindings_handleWave same second
  stopped := False.elim
  begun := False.elim
  giveUp := False.elim
  grows := fun impossible _ => impossible

/-- In scopes that agree, surveys that begin alike and have no handlers find the same. -/
theorem sameFindings_run (agrees : first.Agrees second) {left right : Survey}
    (same : left.SameFindings right) (placed : Stage.Placed first ⟨left, [], []⟩)
    (budget : Option Nat) (entryPoints : List Address) (windows : List Span) :
    (left.run first budget entryPoints [] windows).SameFindings
      (right.run second budget entryPoints [] windows) := by
  have seeded : (left.seedEntryPoints first entryPoints).SameFindings
      (right.seedEntryPoints second entryPoints) := by
    rw [seedEntryPoints_eq_accept, seedEntryPoints_eq_accept, agrees.wiring, agrees.range]
    exact same.accept second.range _
  have course := Stage.course_seeded first budget left [] entryPoints []
  have joined := (pairing_agrees agrees budget).run entryPoints entryPoints [] []
    ⟨seeded, [], course.placed placed⟩ windows
  exact (joined.resolve_right id).1

end Survey

end Cartridge
