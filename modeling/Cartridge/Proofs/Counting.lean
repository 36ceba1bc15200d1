/-
This file counts the instructions of a trace. An instruction that is taken in is placed once
or not at all, so a trace never holds more instructions than it decoded; and a cut leaves as
many of them as it is asked to, the first ones.

The limit of a walk is a limit of the trace only between two walks: a trace that has reached
it takes in no further walk, but the walk that reaches it may go beyond it. So a trace always
holds fewer than twice as many instructions as a walk may have, and it holds more than that
exactly if its last walk, not the first one, overruns the limit.
-/

import Cartridge.Proofs.Ascending
import Cartridge.Proofs.Passage

namespace Cartridge

/-! ### Placing -/

namespace Tiling

@[simp]
theorem length_instructions (tiling : Tiling) : tiling.instructions.length = tiling.size := by
  rw [instructions, List.length_map, Std.TreeMap.length_toList]

theorem size_place_le (tiling : Tiling) (instruction : Instruction) :
    (tiling.place instruction).size ≤ tiling.size + 1 := by
  rw [place]
  split
  · exact Nat.le_succ _
  · exact Std.TreeMap.size_insert_le

theorem size_foldl_place_le (tiling : Tiling) (instructions : List Instruction) :
    (instructions.foldl place tiling).size ≤ tiling.size + instructions.length := by
  induction instructions generalizing tiling with
  | nil => exact Nat.le_refl _
  | cons instruction rest inductionHypothesis =>
    calc ((instruction :: rest).foldl place tiling).size
        ≤ (tiling.place instruction).size + rest.length := inductionHypothesis _
      _ ≤ tiling.size + 1 + rest.length := Nat.add_le_add_right (size_place_le _ _) _
      _ = tiling.size + (instruction :: rest).length := by rw [List.length_cons]; omega

end Tiling

namespace Trace

/-! ### Tracing -/

@[simp]
theorem decoded_absorb (scope : Scope) (trace : Trace) (walk : Walk) :
    (trace.absorb scope walk).decoded = trace.decoded + walk.steps.length := by
  unfold absorb
  split <;> rfl

/-- A trace holds no more instructions than it decoded. -/
theorem size_run_le (scope : Scope) (entry : Entry) :
    (run scope entry).tiling.size ≤ (run scope entry).decoded := by
  refine explore_of_absorb (fun trace => trace.tiling.size ≤ trace.decoded) ?_
    (entry.offset, entry.processor) (Nat.le_of_eq Std.TreeMap.size_emptyc)
  intro trace walk fewer
  rw [tiling_absorb, decoded_absorb]
  calc (walk.instructions.foldl Tiling.place trace.tiling).size
      ≤ trace.tiling.size + walk.instructions.length := Tiling.size_foldl_place_le _ _
    _ ≤ trace.decoded + walk.instructions.length := Nat.add_le_add_right fewer _
    _ = trace.decoded + walk.steps.length := by rw [Walk.instructions, List.length_map]

/-! ### Cutting -/

/-- A cut keeps the first instructions. -/
theorem instructions_cut (trace : Trace) (count : Nat) :
    (trace.cut count).tiling.instructions = trace.tiling.instructions.take count := by
  cases last : trace.tiling.keys[count]? with
  | none =>
    rw [cut, last]
    rw [List.getElem?_eq_none_iff, Std.TreeMap.length_keys] at last
    rw [List.take_of_length_le (by rwa [Tiling.length_instructions])]
  | some bound =>
    have sorted := (Std.TreeMap.ordered_keys_toList (t := trace.tiling)).imp Nat.compare_eq_lt.mp
    have place := last
    rw [← Std.TreeMap.map_fst_toList_eq_keys, List.getElem?_map] at place
    obtain ⟨pair, here, rfl⟩ := Option.map_eq_some_iff.mp place
    simp only [cut, last]
    rw [Tiling.instructions, Std.TreeMap.toList_filter, Tiling.instructions, ← List.map_take,
      ← filter_lt_eq_take sorted here]

theorem size_cut_le (trace : Trace) (count : Nat) : (trace.cut count).tiling.size ≤ count := by
  rw [← Tiling.length_instructions, instructions_cut]
  exact List.length_take_le _ _

/-- The trace of an entry gives a routine that was traced from there. -/
theorem origin_of_run {scope : Scope} {entry : Entry} {routine : Routine}
    (found : (run scope entry).routine? = some routine) : routine.origin = entry := by
  obtain ⟨start, processor, seed, -⟩ := routine?_eq_some found
  rw [Routine.origin, start, processor, seed, entry_run]

/-- The routine of a trace that a survey takes in begins the routine of the whole trace. -/
theorem Taken.exists_whole {scope : Scope} {trace : Trace} (taken : trace.Taken scope)
    {routine : Routine} (found : trace.routine? = some routine) :
    ∃ whole, (run scope routine.origin).routine? = some whole ∧
      routine.instructions <+: whole.instructions := by
  cases taken with
  | whole entry =>
    rw [origin_of_run found]
    exact ⟨routine, found, List.prefix_rfl⟩
  | @part entry count positive =>
    obtain ⟨start, processor, seed, -, instructions, first, head, -⟩ := routine?_eq_some found
    rw [instructions_cut] at instructions head
    rw [Routine.origin, start, processor, seed, entry_cut, entry_run]
    cases traced : (run scope entry).routine? with
    | none =>
      rw [routine?_eq_none_iff.mp traced, List.take_nil] at head
      exact nomatch head
    | some whole =>
      obtain ⟨-, -, -, -, all, -⟩ := routine?_eq_some traced
      refine ⟨whole, rfl, ?_⟩
      rw [instructions, all]
      exact List.take_prefix _ _

/-! ### The limit -/

theorem length_walk_le (scope : Scope) (offset : Nat) (processor : Processor) :
    (scope.walk offset processor).instructions.length ≤ scope.limit := by
  rw [Walk.instructions, List.length_map, Scope.walk, Board.steps_walk]
  exact Board.length_path_le _ _ _ _ _

/-- As long as a trace goes on, it is below the limit. -/
theorem size_lt_of_walksFrom {scope : Scope} {count : Nat} {trace : Trace} {frontier : Frontier}
    {walk : Walk} {earlier later : List Walk}
    (walks : walksFrom scope count trace frontier walk = earlier ++ later)
    (begun : earlier ≠ []) (more : later ≠ []) :
    (earlier.foldl (absorb scope) trace).tiling.size < scope.limit := by
  induction count generalizing trace frontier walk earlier with
  | zero => exact absurd (List.append_eq_nil_iff.mp walks.symm).1 begun
  | succ count inductionHypothesis =>
    obtain ⟨first, rest, rfl⟩ := List.exists_cons_of_ne_nil begun
    rcases walksFrom_succ_cases scope count trace frontier walk with
      ⟨only, -⟩ | ⟨below, wider, offset, processor, next, -⟩
    · rw [only] at walks
      obtain ⟨-, nothing⟩ := List.cons.inj walks
      exact absurd (List.append_eq_nil_iff.mp nothing.symm).2 more
    · rw [next] at walks
      obtain ⟨rfl, tail⟩ := List.cons.inj walks
      rw [List.foldl_cons]
      cases rest with
      | nil => exact below
      | cons second rest => exact inductionHypothesis tail (List.cons_ne_nil _ _)

/-- The last walk of a trace, which is not its first one, takes it from below the limit to
beyond it. -/
def Overruns (scope : Scope) (entry : Entry) : Prop :=
  ∃ earlier last, earlier ≠ [] ∧ walksOf scope entry = earlier ++ [last] ∧
    (after scope entry earlier).tiling.size < scope.limit ∧
    scope.limit < (after scope entry (earlier ++ [last])).tiling.size

/-- A trace ends with a walk, before which it was empty or below the limit. -/
theorem exists_last_walk (scope : Scope) (entry : Entry) :
    ∃ earlier last, walksOf scope entry = earlier ++ [last] ∧
      last.instructions.length ≤ scope.limit ∧
      (earlier ≠ [] → (after scope entry earlier).tiling.size < scope.limit) := by
  have any : walksOf scope entry ≠ [] := by
    rw [walksOf]
    rcases walksFrom_succ_cases scope scope.range.size
      (start entry (scope.walk entry.offset entry.processor)) (Frontier.start entry.offset)
      (scope.walk entry.offset entry.processor) with ⟨walks, -⟩ | ⟨-, _, _, _, walks, -⟩
    · rw [walks]
      exact List.cons_ne_nil _ _
    · rw [walks]
      exact List.cons_ne_nil _ _
  obtain ⟨earlier, last, walks⟩ := (List.eq_nil_or_concat _).resolve_left any
  rw [List.concat_eq_append] at walks
  refine ⟨earlier, last, walks, ?_, fun begun => ?_⟩
  · have member : last ∈ walksOf scope entry := by
      rw [walks]
      exact List.mem_append_right _ (List.mem_singleton_self last)
    obtain ⟨place, rfl⟩ := exists_place_of_mem_walksOf member
    exact length_walk_le scope _ _
  · exact size_lt_of_walksFrom walks begun (List.cons_ne_nil _ _)

theorem size_after_concat_le (scope : Scope) (entry : Entry) (earlier : List Walk)
    (last : Walk) : (after scope entry (earlier ++ [last])).tiling.size ≤
      (after scope entry earlier).tiling.size + last.instructions.length := by
  rw [after_concat, tiling_absorb]
  exact Tiling.size_foldl_place_le _ _

theorem size_after_singleton_le (scope : Scope) (entry : Entry) (first : Walk) :
    (after scope entry [first]).tiling.size ≤ first.instructions.length := by
  calc (after scope entry [first]).tiling.size
      ≤ (after scope entry []).tiling.size + first.instructions.length :=
        size_after_concat_le scope entry [] first
    _ = first.instructions.length := Nat.zero_add _

/-- A trace holds fewer than twice as many instructions as a walk may have. -/
theorem size_run_lt {scope : Scope} (limit : scope.limit ≠ 0) (entry : Entry) :
    (run scope entry).tiling.size < 2 * scope.limit := by
  obtain ⟨earlier, last, walks, short, below⟩ := exists_last_walk scope entry
  rw [run_eq_after, walks]
  by_cases begun : earlier = []
  · rw [begun, List.nil_append]
    have alone := size_after_singleton_le scope entry last
    omega
  · have grows := size_after_concat_le scope entry earlier last
    have within := below begun
    omega

/-- A trace goes beyond the limit exactly if its last walk overruns it. -/
theorem limit_lt_size_run_iff (scope : Scope) (entry : Entry) :
    scope.limit < (run scope entry).tiling.size ↔ Overruns scope entry := by
  constructor
  · obtain ⟨earlier, last, walks, short, below⟩ := exists_last_walk scope entry
    rw [run_eq_after, walks]
    intro exceeds
    have begun : earlier ≠ [] := by
      rintro rfl
      have alone := size_after_singleton_le scope entry last
      exact Nat.not_lt_of_le (Nat.le_trans alone short) exceeds
    exact ⟨earlier, last, begun, walks, below begun, exceeds⟩
  · rintro ⟨earlier, last, -, walks, -, exceeds⟩
    rwa [run_eq_after, walks]

end Trace

end Cartridge
