/-
This file proves what becomes of the entries of an analysis. Every offset that was accepted
ends in exactly one of four ways: a routine starts at it; it was never merged and is listed
as unanalyzed because the budget ran out; its trace was merged but found no instruction; or
it was the start of a window whose trace was merged and dropped. A merged trace decides
which of these it is, and no offset has two merged traces.
-/

import Cartridge.Proofs.Analysis.Recursive
import Cartridge.Proofs.Ascending
import Mathlib.Data.List.Count
import Mathlib.Logic.ExistsUnique

namespace Cartridge

/-- What becomes of an accepted offset. -/
inductive Fate where
  | found
  | abandoned
  | truncated
  | dropped
deriving DecidableEq

/-- The fate that a merged trace brings about for its entry. -/
def Trace.fate (trace : Trace) : Fate :=
  if trace.tiling.instructions = [] then .truncated
  else if trace.isDoubtful then .dropped
  else .found

/-- Whether an offset has met a fate in an analysis that merged the given traces. -/
def Fate.Met (analysis : Analysis) (merged : List Trace) (offset : Nat) : Fate → Prop
  | .found => (analysis.routines.map Routine.start).count offset = 1
  | .abandoned => (∀ trace ∈ merged, trace.entry.offset ≠ offset) ∧
      analysis.unanalyzed.count offset = 1 ∧ analysis.exhausted = true
  | .truncated => ∃ trace ∈ merged, trace.entry.offset = offset ∧
      trace.tiling.instructions = [] ∧ Issue.truncated offset ∈ analysis.issues
  | .dropped => ∃ trace ∈ merged, trace.entry.offset = offset ∧
      trace.tiling.instructions ≠ [] ∧ trace.entry.seed = .region ∧ trace.isConfident = false

theorem Options.maxInstructions_ne_zero {options : Options} (valid : options.fault? = none) :
    options.maxInstructions ≠ 0 := by
  intro zero
  rw [fault?, if_pos zero] at valid
  split at valid <;> exact nomatch valid

namespace Analysis

variable {options : Options} {image : Image} {regions : List Region}

/-! ### Where accepted offsets are at the end -/

theorem nodup_handled (options : Options) (image : Image) (regions : List Region) :
    ((merged options image regions).map (fun trace => trace.entry.offset) ++
      (survey options image regions).unanalyzed.toList).Nodup := by
  refine (placed_survey options image regions).once.sublist ?_
  rw [Stage.offsets, queue_survey]
  exact List.Sublist.refl _

/-- Every accepted offset was merged or given up. -/
theorem mem_seen_survey {offset : Nat} : offset ∈ (survey options image regions).seen ↔
    (∃ trace ∈ merged options image regions, trace.entry.offset = offset) ∨
      offset ∈ (survey options image regions).unanalyzed := by
  have marked : offset ∈ (survey options image regions).seen ↔ _ :=
    (placed_survey options image regions).marked
  rw [marked, Stage.offsets, queue_survey, List.mem_append]
  exact or_congr List.mem_map Array.mem_toList_iff

/-- No offset has two merged traces. -/
theorem eq_of_mem_merged {first second : Trace} (memberFirst : first ∈ merged options image regions)
    (memberSecond : second ∈ merged options image regions)
    (same : first.entry.offset = second.entry.offset) : first = second :=
  List.inj_on_of_nodup_map (nodup_handled options image regions).of_append_left memberFirst
    memberSecond same

/-- No offset is merged and given up. -/
theorem not_mem_unanalyzed {trace : Trace} (member : trace ∈ merged options image regions) :
    trace.entry.offset ∉ (survey options image regions).unanalyzed := by
  intro givenUp
  have disjoint := List.disjoint_of_nodup_append (nodup_handled options image regions)
  exact disjoint (List.mem_map_of_mem member) (Array.mem_toList_iff.mpr givenUp)

theorem mem_unanalyzed {offset : Nat} : offset ∈ (recursive options image regions).unanalyzed ↔
    offset ∈ (survey options image regions).unanalyzed :=
  mem_ascending.trans Array.mem_toList_iff

theorem mem_issues_of_survey {issue : Issue}
    (recorded : issue ∈ (survey options image regions).issues) :
    issue ∈ (recursive options image regions).issues :=
  List.mem_append_left _ (Array.mem_toList_iff.mpr recorded)

/-! ### Starts of routines -/

theorem starts_sublist (traces : List Trace) :
    (((traces.filterMap Trace.yield?).map Prod.fst).map Routine.start).Sublist
      (traces.map fun trace => trace.entry.offset) := by
  induction traces with
  | nil => exact List.Sublist.refl _
  | cons trace rest inductionHypothesis =>
    cases yields : trace.yield? with
    | none =>
      rw [List.filterMap_cons_none yields]
      exact inductionHypothesis.cons _
    | some found =>
      have start : found.1.start = trace.entry.offset :=
        (Trace.routine?_eq_some (Trace.yield?_eq_some_iff.mp yields).2.1).1
      rw [List.filterMap_cons_some yields, List.map_cons, List.map_cons, List.map_cons, start]
      exact inductionHypothesis.cons_cons _

/-- No two routines share a start. -/
theorem nodup_starts (options : Options) (image : Image) (regions : List Region) :
    ((recursive options image regions).routines.map Routine.start).Nodup := by
  rw [((routines_perm options image regions).map _).nodup_iff]
  exact (nodup_handled options image regions).of_append_left.sublist (starts_sublist _)

/-- Where no two routines share a start, the routine at an offset is the one that starts there. -/
theorem routineAt?_eq_some_iff {analysis : Analysis}
    (once : (analysis.routines.map Routine.start).Nodup) {offset : Nat} {routine : Routine} :
    analysis.routineAt? offset = some routine ↔
      routine ∈ analysis.routines ∧ routine.start = offset :=
  find?_key_eq_some_iff once

/-! ### Fates -/

/-- A merged trace makes its entry meet the fate of the trace. -/
theorem met_fate (limit : options.maxInstructions ≠ 0) {trace : Trace}
    (member : trace ∈ merged options image regions) :
    trace.fate.Met (recursive options image regions) (merged options image regions)
      trace.entry.offset := by
  have harvested := harvested_survey options image regions
  rw [Trace.fate]
  split
  · rename_i empty
    refine ⟨trace, member, rfl, empty, mem_issues_of_survey ?_⟩
    refine harvested.problems trace member _ ?_
    rw [Trace.problems, Trace.routine?_eq_none_iff.mpr empty,
      (harvested.taken trace member).truncatedAt_of_empty limit empty]
    exact List.mem_singleton_self _
  · rename_i nonempty
    split
    · rename_i doubtful
      have parts : trace.entry.seed = .region ∧ trace.isConfident = false := by
        simpa [Trace.isDoubtful] using doubtful
      exact ⟨trace, member, rfl, nonempty, parts.1, parts.2⟩
    · rename_i certain
      obtain ⟨routine, traced⟩ := Option.ne_none_iff_exists'.mp
        (mt Trace.routine?_eq_none_iff.mp nonempty)
      have listed := mem_routines.mpr ⟨trace, member, Bool.not_eq_true _ ▸ certain, traced⟩
      refine List.count_eq_one_of_mem (nodup_starts options image regions) ?_
      rw [← (Trace.routine?_eq_some traced).1]
      exact List.mem_map_of_mem listed

/-- The start of a routine is the entry of a merged trace whose fate is to be found. -/
theorem exists_found {offset : Nat}
    (start : offset ∈ (recursive options image regions).routines.map Routine.start) :
    ∃ trace ∈ merged options image regions, trace.entry.offset = offset ∧ trace.fate = .found := by
  obtain ⟨routine, listed, rfl⟩ := List.mem_map.mp start
  obtain ⟨trace, member, certain, traced⟩ := mem_routines.mp listed
  refine ⟨trace, member, (Trace.routine?_eq_some traced).1.symm, ?_⟩
  have nonempty : trace.tiling.instructions ≠ [] := by
    rw [ne_eq, ← Trace.routine?_eq_none_iff, traced]
    exact Option.some_ne_none routine
  rw [Trace.fate, if_neg nonempty, certain]
  rfl

/-- A fate that an offset has met is the fate of a merged trace, unless the offset was given
up. -/
theorem eq_abandoned_or_exists_of_met {offset : Nat} {fate : Fate}
    (met : fate.Met (recursive options image regions) (merged options image regions) offset) :
    (fate = .abandoned ∧ offset ∈ (survey options image regions).unanalyzed) ∨
      ∃ trace ∈ merged options image regions, trace.entry.offset = offset ∧ trace.fate = fate := by
  cases fate with
  | found =>
    exact Or.inr (exists_found (List.count_pos_iff.mp (by rw [met]; exact Nat.one_pos)))
  | abandoned =>
    refine Or.inl ⟨rfl, mem_unanalyzed.mp (List.count_pos_iff.mp ?_)⟩
    rw [met.2.1]
    exact Nat.one_pos
  | truncated =>
    obtain ⟨trace, member, here, empty, -⟩ := met
    exact Or.inr ⟨trace, member, here, if_pos empty⟩
  | dropped =>
    obtain ⟨trace, member, here, nonempty, seed, doubt⟩ := met
    refine Or.inr ⟨trace, member, here, ?_⟩
    have doubtful : trace.isDoubtful = true := by simp [Trace.isDoubtful, seed, doubt]
    rw [Trace.fate, if_neg nonempty, if_pos doubtful]

/-- An accepted offset meets exactly one fate. -/
theorem existsUnique_met (limit : options.maxInstructions ≠ 0) {offset : Nat}
    (accepted : offset ∈ (survey options image regions).seen) :
    ∃! fate : Fate, fate.Met (recursive options image regions) (merged options image regions)
      offset := by
  rcases mem_seen_survey.mp accepted with ⟨trace, member, rfl⟩ | givenUp
  · refine ⟨trace.fate, met_fate limit member, fun fate met => ?_⟩
    rcases eq_abandoned_or_exists_of_met met with ⟨-, givenUp⟩ | ⟨other, merged, same, rfl⟩
    · exact absurd givenUp (not_mem_unanalyzed member)
    · rw [eq_of_mem_merged merged member same]
  · refine ⟨.abandoned, ⟨?_, ?_, ?_⟩, fun fate met => ?_⟩
    · rintro trace member rfl
      exact not_mem_unanalyzed member givenUp
    · exact List.count_eq_one_of_mem
        (nodup_ascending (nodup_handled options image regions).of_append_right)
        (mem_unanalyzed.mpr givenUp)
    · refine (placed_survey options image regions).givenUp fun none => ?_
      rw [none] at givenUp
      exact Array.not_mem_empty offset givenUp
    · rcases eq_abandoned_or_exists_of_met met with ⟨rfl, -⟩ | ⟨trace, member, rfl, -⟩
      · rfl
      · exact absurd givenUp (not_mem_unanalyzed member)

theorem mem_seen_of_routine {routine : Routine}
    (listed : routine ∈ (recursive options image regions).routines) :
    routine.start ∈ (survey options image regions).seen := by
  obtain ⟨trace, member, start, -⟩ := exists_found (List.mem_map_of_mem listed)
  exact mem_seen_survey.mpr (Or.inl ⟨trace, member, start⟩)

/-- Every accepted offset meets exactly one fate; routines start at, and unanalyzed offsets
are, accepted offsets of the range; and no two routines share a start. -/
theorem entries_accounted (strategy : options.strategy = .recursive)
    (valid : options.fault? = none) (image : Image) :
    (∀ offset ∈ (survey options image (scores options image)).seen, ∃! fate : Fate,
      fate.Met (run options image) (merged options image (scores options image)) offset) ∧
    (∀ routine ∈ (run options image).routines,
      routine.start ∈ (survey options image (scores options image)).seen ∧
        (scope options image).range.contains routine.start = true) ∧
    (∀ offset ∈ (run options image).unanalyzed,
      offset ∈ (survey options image (scores options image)).seen ∧
        (scope options image).range.contains offset = true) ∧
    (run options image).routines.Pairwise fun first second => first.start ≠ second.start := by
  have inside : ∀ {offset : Nat}, offset ∈ (survey options image (scores options image)).seen →
      (scope options image).range.contains offset = true :=
    (placed_survey options image (scores options image)).inside
  rw [run_of_recursive strategy]
  refine ⟨fun offset accepted => ?_, fun routine listed => ?_, fun offset listed => ?_, ?_⟩
  · exact existsUnique_met (Options.maxInstructions_ne_zero valid) accepted
  · exact ⟨mem_seen_of_routine listed, inside (mem_seen_of_routine listed)⟩
  · have accepted := mem_seen_survey.mpr (Or.inr (mem_unanalyzed.mp listed))
    exact ⟨accepted, inside accepted⟩
  · exact List.pairwise_map.mp (nodup_starts options image (scores options image))

/-- A routine that calls another one. -/
def callingImage : Image :=
  ⟨#[0x22, 0x05, 0x80, 0x00, 0x60, 0xEA, 0x60]⟩

/-- Options under which the budget is used up before the called routine is traced. -/
def budgetOptions : Options :=
  { seedVectors := false, seedRegions := false, layout := some .loRom,
    entryPoints := [⟨0x00, 0x8000⟩], instructionBudget := some 2 }

set_option maxRecDepth 100000 in
theorem entries_accounted_calling : budgetOptions.fault? = none ∧
    (survey budgetOptions callingImage (scores budgetOptions callingImage)).seen.toList =
      [0, 5] ∧
    (run budgetOptions callingImage).routines.map Routine.start = [0] ∧
    (run budgetOptions callingImage).unanalyzed = [5] ∧
    ∀ offset ∈ (survey budgetOptions callingImage (scores budgetOptions callingImage)).seen,
      ∃! fate : Fate, fate.Met (run budgetOptions callingImage)
        (merged budgetOptions callingImage (scores budgetOptions callingImage)) offset := by
  refine ⟨by decide +kernel, by decide +kernel, by decide +kernel, by decide +kernel, ?_⟩
  exact (entries_accounted rfl (by decide +kernel) callingImage).1

end Analysis

end Cartridge
