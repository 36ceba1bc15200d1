/-
This file proves that a trace that can be trusted keeps the target of every reference that
its instructions make. The targets of a walk are taken in together with its instructions,
and cutting a trace leaves one that is not trusted any more, unless it cuts nothing off.
-/

import Cartridge.Analysis
import Cartridge.Proofs.Trace

namespace Cartridge

/-- A step that makes a reference calls or jumps to its target. -/
theorem Step.exists_target {wiring : Wiring} {step : Step} {reference : Reference}
    (made : Reference.ofInstruction? wiring step.instruction = some reference) :
    ∃ target, (step.call? wiring = some target ∨ step.jump? wiring = some target) ∧
      target.offset = some reference.target := by
  cases flow : step.instruction.flow with
  | call called =>
    cases called with
    | none => simp [Reference.ofInstruction?, flow] at made
    | some address =>
      simp only [Reference.ofInstruction?, flow] at made
      obtain ⟨offset, found, rfl⟩ := Option.map_eq_some_iff.mp made
      exact ⟨_, Or.inl (by rw [call?, flow]), found⟩
  | jump called =>
    cases called with
    | none => simp [Reference.ofInstruction?, flow] at made
    | some address =>
      simp only [Reference.ofInstruction?, flow] at made
      obtain ⟨offset, found, rfl⟩ := Option.map_eq_some_iff.mp made
      exact ⟨_, Or.inr (by rw [jump?, flow]), found⟩
  | _ => simp [Reference.ofInstruction?, flow] at made

namespace Trace

/-- Every reference that an instruction of the trace makes has its target among the calls and
jumps of the trace. -/
def KeepsTargets (scope : Scope) (trace : Trace) : Prop :=
  ∀ (offset : Nat) (instruction : Instruction) (reference : Reference),
    trace.tiling[offset]? = some instruction →
      Reference.ofInstruction? scope.board.wiring instruction = some reference →
        ∃ target ∈ trace.calls ++ trace.jumps, target.offset = some reference.target

theorem isConfident_absorb (scope : Scope) (trace : Trace) (walk : Walk) :
    (trace.absorb scope walk).isConfident = trace.isConfident := by
  rw [isConfident, ending_absorb, isConfident]

theorem KeepsTargets.absorb {scope : Scope} {trace : Trace} (keeps : trace.KeepsTargets scope)
    (confident : trace.isConfident = true) (walk : Walk) :
    (trace.absorb scope walk).KeepsTargets scope := by
  intro offset instruction reference look made
  have calls : (trace.absorb scope walk).calls = trace.calls ++ walk.calls scope.board.wiring := by
    rw [Trace.absorb, if_pos confident]
    rfl
  have jumps : (trace.absorb scope walk).jumps = trace.jumps ++
      (walk.jumps scope.board.wiring ++
        scope.leaving trace.entry.offset (walk.branches scope.board.wiring)) := by
    rw [Trace.absorb, if_pos confident]
    rfl
  rw [tiling_absorb] at look
  rw [calls, jumps]
  rcases Tiling.getElem?_of_foldl_place look with old | ⟨member, -⟩
  · obtain ⟨target, listed, found⟩ := keeps offset instruction reference old made
    refine ⟨target, ?_, found⟩
    rcases List.mem_append.mp listed with called | jumped
    · exact List.mem_append_left _ (List.mem_append_left _ called)
    · exact List.mem_append_right _ (List.mem_append_left _ jumped)
  · obtain ⟨step, taken, rfl⟩ := List.mem_map.mp member
    obtain ⟨target, transfer, found⟩ := Step.exists_target made
    refine ⟨target, ?_, found⟩
    rcases transfer with called | jumped
    · exact List.mem_append_left _ (List.mem_append_right _
        (List.mem_filterMap.mpr ⟨step, taken, called⟩))
    · exact List.mem_append_right _ (List.mem_append_right _
        (List.mem_append_left _ (List.mem_filterMap.mpr ⟨step, taken, jumped⟩)))

theorem keepsTargets_run {scope : Scope} {entry : Entry}
    (confident : (run scope entry).isConfident = true) : (run scope entry).KeepsTargets scope := by
  refine explore_of_absorb (fun trace => trace.isConfident = true → trace.KeepsTargets scope) ?_
    (entry.offset, entry.processor) ?_ confident
  · intro trace walk keeps confident
    rw [isConfident_absorb] at confident
    exact (keeps confident).absorb confident walk
  · intro _ offset instruction reference look
    simp [start] at look

/-- A trace that a survey takes in and that is trusted was not cut. -/
theorem Taken.eq_run_of_confident {scope : Scope} {trace : Trace} (taken : trace.Taken scope)
    (confident : trace.isConfident = true) : trace = run scope trace.entry := by
  cases taken with
  | whole entry => rw [entry_run]
  | @part entry count positive =>
    cases last : (run scope entry).tiling.keys[count]? with
    | none =>
      have whole : (run scope entry).cut count = run scope entry := by rw [cut, last]
      rw [whole, entry_run]
    | some bound =>
      have limited : ((run scope entry).cut count).ending = .limited := by rw [cut, last]
      rw [isConfident, limited] at confident
      exact absurd confident (by decide)

theorem Taken.keepsTargets {scope : Scope} {trace : Trace} (taken : trace.Taken scope)
    (confident : trace.isConfident = true) : trace.KeepsTargets scope := by
  have whole := taken.eq_run_of_confident confident
  rw [whole] at confident ⊢
  exact keepsTargets_run confident

end Trace

end Cartridge
