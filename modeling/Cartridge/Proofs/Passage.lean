/-
This file lists the walks that a trace takes in, oldest first. A trace is what taking in
these walks one after the other makes of an empty one. So its tiling is what placing all the
instructions that it passes leaves, and whatever it records about them, and counts, it has
from one of these walks.
-/

import Cartridge.Proofs.Routine
import Cartridge.Proofs.Trace

namespace Cartridge

/-- The entry from which a routine was traced. -/
def Routine.origin (routine : Routine) : Entry :=
  ⟨routine.start, routine.entry, routine.seed⟩

namespace Trace

/-! ### The walks of a trace -/

/-- The walks that a trace takes in from one that is due; no more than `count`. -/
def walksFrom (scope : Scope) : (count : Nat) → Trace → Frontier → Walk → List Walk
  | 0, _, _, _ => []
  | count + 1, trace, frontier, walk =>
    let grown := trace.absorb scope walk
    let wider := (frontier.add (trace.continuations scope walk)).prune grown.tiling
    match wider.pending with
    | [] => [walk]
    | (offset, processor) :: rest =>
      if scope.limit ≤ grown.tiling.size then [walk]
      else walk :: walksFrom scope count grown { wider with pending := rest }
        (scope.walk offset processor)

/-- The walks that the trace of an entry takes in. -/
def walksOf (scope : Scope) (entry : Entry) : List Walk :=
  let first := scope.walk entry.offset entry.processor
  walksFrom scope (scope.range.size + 1) (start entry first) (Frontier.start entry.offset) first

/-- The instructions that the trace of an entry passes, in order and as often as it does. -/
def passed (scope : Scope) (entry : Entry) : List Instruction :=
  (walksOf scope entry).flatMap Walk.instructions

/-- A walk is the last one, or the trace is below the limit and goes on with another one. -/
theorem walksFrom_succ_cases (scope : Scope) (count : Nat) (trace : Trace) (frontier : Frontier)
    (walk : Walk) :
    (walksFrom scope (count + 1) trace frontier walk = [walk] ∧
      explore scope (count + 1) trace frontier walk = trace.absorb scope walk) ∨
    ((trace.absorb scope walk).tiling.size < scope.limit ∧
      ∃ (wider : Frontier) (offset : Nat) (processor : Processor),
        walksFrom scope (count + 1) trace frontier walk =
          walk :: walksFrom scope count (trace.absorb scope walk) wider
            (scope.walk offset processor) ∧
        explore scope (count + 1) trace frontier walk =
          explore scope count (trace.absorb scope walk) wider (scope.walk offset processor)) := by
  rw [walksFrom, explore]
  generalize (frontier.add (trace.continuations scope walk)).prune
    (trace.absorb scope walk).tiling = wider
  obtain ⟨walked, pending⟩ := wider
  cases pending with
  | nil => exact Or.inl ⟨rfl, rfl⟩
  | cons target rest =>
    by_cases full : scope.limit ≤ (trace.absorb scope walk).tiling.size
    · exact Or.inl ⟨if_pos full, if_pos full⟩
    · exact Or.inr ⟨Nat.lt_of_not_le full, _, _, _, if_neg full, if_neg full⟩

theorem explore_eq_foldl (scope : Scope) (count : Nat) (trace : Trace) (frontier : Frontier)
    (walk : Walk) :
    explore scope count trace frontier walk =
      (walksFrom scope count trace frontier walk).foldl (absorb scope) trace := by
  induction count generalizing trace frontier walk with
  | zero => rfl
  | succ count inductionHypothesis =>
    rcases walksFrom_succ_cases scope count trace frontier walk with
      ⟨walks, last⟩ | ⟨-, wider, offset, processor, walks, more⟩
    · rw [walks, last]
      rfl
    · rw [walks, more, List.foldl_cons]
      exact inductionHypothesis _ _ _

/-- The trace of an entry as it is once some walks are taken in. -/
def after (scope : Scope) (entry : Entry) (walks : List Walk) : Trace :=
  walks.foldl (absorb scope) (start entry (scope.walk entry.offset entry.processor))

theorem after_concat (scope : Scope) (entry : Entry) (earlier : List Walk) (last : Walk) :
    after scope entry (earlier ++ [last]) = (after scope entry earlier).absorb scope last := by
  rw [after, List.foldl_append]
  rfl

/-- A trace takes in its walks in turn. -/
theorem run_eq_after (scope : Scope) (entry : Entry) :
    run scope entry = after scope entry (walksOf scope entry) :=
  explore_eq_foldl _ _ _ _ _

theorem exists_place_of_mem_walksFrom {scope : Scope} {count : Nat} {trace : Trace}
    {frontier : Frontier} {walk : Walk} (place : Nat × Processor)
    (member : walk ∈ walksFrom scope count trace frontier (scope.walk place.1 place.2)) :
    ∃ other : Nat × Processor, walk = scope.walk other.1 other.2 := by
  induction count generalizing trace frontier place with
  | zero => exact absurd member List.not_mem_nil
  | succ count inductionHypothesis =>
    rcases walksFrom_succ_cases scope count trace frontier (scope.walk place.1 place.2) with
      ⟨walks, -⟩ | ⟨-, wider, offset, processor, walks, -⟩
    · rw [walks] at member
      exact ⟨place, List.mem_singleton.mp member⟩
    · rw [walks] at member
      rcases List.mem_cons.mp member with rfl | later
      · exact ⟨place, rfl⟩
      · exact inductionHypothesis (offset, processor) later

/-- Every walk of a trace is one that the scope allows. -/
theorem exists_place_of_mem_walksOf {scope : Scope} {entry : Entry} {walk : Walk}
    (member : walk ∈ walksOf scope entry) :
    ∃ place : Nat × Processor, walk = scope.walk place.1 place.2 :=
  exists_place_of_mem_walksFrom (entry.offset, entry.processor) member

/-- An instruction that a trace passes is decoded where it stands. -/
theorem exists_decode_of_mem_passed {scope : Scope} {entry : Entry} {instruction : Instruction}
    (member : instruction ∈ passed scope entry) :
    ∃ processor, Instruction.decode scope.board.layout scope.board.image instruction.offset
      processor = .ok instruction := by
  obtain ⟨walk, taken, listed⟩ := List.mem_flatMap.mp member
  obtain ⟨step, stepped, rfl⟩ := List.mem_map.mp listed
  obtain ⟨place, rfl⟩ := exists_place_of_mem_walksOf taken
  rw [Scope.walk, Board.steps_walk] at stepped
  obtain ⟨processor, -, fetched, -⟩ := Board.path_invariant (fun _ _ => True)
    (fun _ _ _ => trivial) trivial stepped
  exact ⟨processor, (Board.fetch?_eq_some_iff.mp fetched).1⟩

/-! ### What a trace has from its walks -/

theorem tiling_foldl_absorb (scope : Scope) (trace : Trace) (walks : List Walk) :
    (walks.foldl (absorb scope) trace).tiling =
      (walks.flatMap Walk.instructions).foldl Tiling.place trace.tiling := by
  induction walks generalizing trace with
  | nil => rfl
  | cons walk rest inductionHypothesis =>
    rw [List.foldl_cons, inductionHypothesis, tiling_absorb, List.flatMap_cons,
      List.foldl_append]

/-- A trace places the instructions that it passes. -/
theorem tiling_run (scope : Scope) (entry : Entry) :
    (run scope entry).tiling = (passed scope entry).foldl Tiling.place Std.TreeMap.empty := by
  rw [run_eq_after, after, tiling_foldl_absorb]
  rfl

theorem mem_passed_of_mem_instructions {scope : Scope} {entry : Entry}
    {instruction : Instruction} (member : instruction ∈ (run scope entry).tiling.instructions) :
    instruction ∈ passed scope entry := by
  obtain ⟨offset, look⟩ := Tiling.mem_instructions.mp member
  rw [tiling_run] at look
  rcases Tiling.getElem?_of_foldl_place look with old | ⟨listed, -⟩
  · simp at old
  · exact listed

end Trace

end Cartridge
