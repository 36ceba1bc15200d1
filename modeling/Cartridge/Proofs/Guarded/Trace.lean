/-
This file guards a trace: the ends of the instructions that are placed among others, the range
in which an overlap is looked for, and the number of instructions decoded. Every instruction
comes from a fetch, so its end lies inside the image. No walk leaves the bank window of its
start, so it decodes no more instructions than a bank has bytes; and since a trace walks from
no offset twice, what it decodes in all stays far below the width of the counter.
-/

import Cartridge.Proofs.Branches
import Cartridge.Proofs.Counting
import Cartridge.Proofs.Guarded.Walk

namespace Cartridge

/-! ### Walks that fit -/

/-- An image and a range that fit the widths of the numbers that count in them. -/
structure Scope.Fits (scope : Scope) : Prop where
  size : scope.board.image.size < 2 ^ 63
  /-- No layout gives addresses to more offsets. -/
  range : scope.range.stop ≤ 0x7E0000

/-- The most instructions that a trace decodes: a bank for each offset of the range, and one
for the entry. -/
def Scope.mostDecoded (scope : Scope) : Nat :=
  (scope.range.size + 1) * 0x10000

theorem Scope.Fits.mostDecoded_le {scope : Scope} (fits : scope.Fits) :
    scope.mostDecoded ≤ 0x7E00010000 := by
  have range := fits.range
  rw [mostDecoded, Span.size]
  omega

/-- What every walk of a trace keeps to. -/
structure Walk.Fits (scope : Scope) (walk : Walk) : Prop where
  stop_le : ∀ instruction ∈ walk.instructions, instruction.stop ≤ scope.board.image.size
  shallow : ∀ step ∈ walk.steps, step.after.Shallow
  length_le : walk.steps.length ≤ 0x10000

namespace Board

/-- Every step takes at least one byte of the window. -/
theorem length_path_le_sub (board : Board) (stop limit offset : Nat) (processor : Processor) :
    (board.path stop limit offset processor).1.length ≤ stop - offset := by
  induction limit generalizing offset processor with
  | zero => exact Nat.zero_le _
  | succ limit inductionHypothesis =>
    rw [path]
    cases fetched : board.fetch? stop offset processor with
    | none => exact Nat.zero_le _
    | some instruction =>
      have before := lt_stop_of_fetch? fetched
      have inside := (fetch?_eq_some_iff.mp fetched).2
      cases ends : instruction.flow.ending? with
      | some ending =>
        simp only [ends, List.length_singleton]
        omega
      | none =>
        have rest := inductionHypothesis instruction.stop (processor.advance instruction)
        simp only [ends, List.length_cons]
        omega

end Board

/-- A bank window holds no more bytes behind an offset than a bank. -/
theorem Wiring.bankEnd_sub_le (wiring : Wiring) (offset : Nat) :
    wiring.bankEnd offset - offset ≤ 0x10000 := by
  have small := Guarded.bankSize_le wiring.layout
  have reached := Nat.div_mul_le_self offset wiring.layout.bankSize
  have stop : wiring.bankEnd offset ≤
      (offset / wiring.layout.bankSize + 1) * wiring.layout.bankSize := Nat.min_le_left _ _
  rw [Nat.succ_mul] at stop
  omega

theorem Walk.fits (scope : Scope) (offset : Nat) {processor : Processor}
    (shallow : processor.Shallow) : (scope.walk offset processor).Fits scope := by
  have fetched {step : Step} (member : step ∈ (scope.walk offset processor).steps) :=
    Board.path_invariant (fun _ before => before.Shallow)
      (fun known _ _ => known.advance _) shallow
      (Board.steps_walk scope.board scope.limit (some scope.range.stop) offset processor ▸ member)
  refine ⟨fun instruction member => ?_, fun step member => ?_, ?_⟩
  · obtain ⟨step, taken, rfl⟩ := List.mem_map.mp member
    obtain ⟨before, -, here, -⟩ := fetched taken
    exact Guarded.stop_le_of_fetch? here
  · obtain ⟨before, known, -, after⟩ := fetched member
    rw [after]
    exact known.advance _
  · have window := scope.board.wiring.bankEnd_sub_le offset
    have length := scope.board.length_path_le_sub
      (scope.board.windowEnd (some scope.range.stop) offset) scope.limit offset processor
    have cut : scope.board.windowEnd (some scope.range.stop) offset ≤
      scope.board.wiring.bankEnd offset := Nat.min_le_left _ _
    rw [Scope.walk, Board.steps_walk]
    omega

/-! ### Traces that fit -/

/-- What a trace keeps to while it may take in `count` walks more. -/
structure Trace.Fits (scope : Scope) (count : Nat) (trace : Trace) : Prop where
  stop_le : ∀ instruction ∈ trace.tiling.instructions, instruction.stop ≤ scope.board.image.size
  decoded_le : trace.decoded + count * 0x10000 ≤ scope.mostDecoded

theorem Trace.Fits.fewer {scope : Scope} {count fewer : Nat} {trace : Trace}
    (fits : trace.Fits scope count) (order : fewer ≤ count) : trace.Fits scope fewer :=
  ⟨fits.stop_le, Nat.le_trans (Nat.add_le_add_left (Nat.mul_le_mul_right _ order) _)
    fits.decoded_le⟩

/-- A place inside the range, with a state that fits the shadows. -/
def Scope.Due (scope : Scope) (place : Nat × Processor) : Prop :=
  scope.range.contains place.1 = true ∧ place.2.Shallow

theorem Tiling.mem_instructions_place {tiling : Tiling} {instruction placed : Instruction}
    (member : placed ∈ (tiling.place instruction).instructions) :
    placed ∈ tiling.instructions ∨ placed = instruction := by
  obtain ⟨offset, look⟩ := mem_instructions.mp member
  exact (getElem?_of_place look).imp (fun old => mem_instructions.mpr ⟨offset, old⟩) And.left

theorem Trace.due_of_mem_continuations {scope : Scope} {trace : Trace} {walk : Walk}
    (fits : walk.Fits scope) {place : Nat × Processor}
    (member : place ∈ trace.continuations scope walk) : scope.Due place := by
  refine ⟨contains_of_mem_continuations member, ?_⟩
  unfold continuations at member
  split at member
  · obtain ⟨target, branch, -, state, -⟩ := Scope.mem_staying.mp member
    obtain ⟨step, taken, address, -, rfl⟩ := Walk.mem_branches.mp branch
    rw [← state]
    exact fits.shallow step taken
  · exact absurd member List.not_mem_nil

namespace Guarded

/-! ### Placing -/

/-- The end of an instruction, guarded. -/
def stop (instruction : Instruction) : Guarded Nat :=
  add 64 instruction.offset instruction.size

/-- Places an instruction unless it overlaps one that is already placed, guarded. -/
def place (tiling : Tiling) (instruction : Instruction) : Guarded Tiling := do
  check (fun earlier => discard (stop earlier)) (tiling.nearest? instruction.offset).toList
  let last ← stop instruction
  discard (interval instruction.offset last)
  return tiling.place instruction

theorem stop_eq {instruction : Instruction} {size : Nat} (inside : instruction.stop ≤ size)
    (small : size < 2 ^ 63) : stop instruction = .ok instruction.stop :=
  add_eq (Nat.lt_of_le_of_lt inside (Nat.lt_trans small (by decide)))

theorem place_eq {tiling : Tiling} {size : Nat} (small : size < 2 ^ 63)
    (placed : ∀ earlier ∈ tiling.instructions, earlier.stop ≤ size) {instruction : Instruction}
    (inside : instruction.stop ≤ size) :
    place tiling instruction = .ok (tiling.place instruction) ∧
      ∀ earlier ∈ (tiling.place instruction).instructions, earlier.stop ≤ size := by
  constructor
  · rw [place, bind_eq (check_eq fun earlier member => ?_), bind_eq (stop_eq inside small),
      bind_eq (discard_eq ⟨_, interval_eq (Nat.le_of_lt instruction.offset_lt_stop)⟩)]
    · rfl
    · have listed := Tiling.mem_instructions_of_nearest? (Option.mem_toList.mp member)
      exact discard_eq ⟨_, stop_eq (placed earlier listed) small⟩
  · intro earlier member
    rcases Tiling.mem_instructions_place member with old | rfl
    · exact placed earlier old
    · exact inside

/-! ### Taking in a walk -/

/-- Takes in a walk, guarded. -/
def absorb (scope : Scope) (trace : Trace) (walk : Walk) : Guarded Trace := do
  let decoded ← add 64 trace.decoded walk.steps.length
  let tiling ← fold place trace.tiling walk.instructions
  return { trace.absorb scope walk with tiling, decoded }

theorem absorb_eq {scope : Scope} (fits : scope.Fits) {count : Nat} {trace : Trace} {walk : Walk}
    (kept : trace.Fits scope (count + 1)) (taken : walk.Fits scope) :
    absorb scope trace walk = .ok (trace.absorb scope walk) ∧
      (trace.absorb scope walk).Fits scope count := by
  have most := fits.mostDecoded_le
  have decoded := kept.decoded_le
  have length := taken.length_le
  obtain ⟨placed, inside⟩ := fold_eq
    (fun _ (tiling : Tiling) => ∀ earlier ∈ tiling.instructions,
      earlier.stop ≤ scope.board.image.size)
    (fun _ _ known instruction member =>
      place_eq fits.size known (taken.stop_le instruction member)) kept.stop_le
  have counted := Trace.decoded_absorb scope trace walk
  refine ⟨?_, fun earlier member => ?_, ?_⟩
  · rw [absorb, bind_eq (add_eq (by omega)), bind_eq placed, ← counted, ← Trace.tiling_absorb scope]
    rfl
  · rw [Trace.tiling_absorb] at member
    exact inside earlier member
  · rw [counted]
    omega

/-! ### Tracing -/

/-- Takes in a walk and goes on with the next pending target, guarded. -/
def explore (scope : Scope) : (count : Nat) → Trace → Frontier → Walk → Guarded Trace
  | 0, trace, _, _ => return trace
  | count + 1, trace, frontier, taken => do
    let grown ← absorb scope trace taken
    let wider := (frontier.add (trace.continuations scope taken)).prune grown.tiling
    match wider.pending with
    | [] => return grown
    | (offset, processor) :: rest =>
      if scope.limit ≤ grown.tiling.size then return grown
      else do
        let next ← walk scope.board scope.limit (some scope.range.stop) offset processor
        explore scope count grown { wider with pending := rest } next

/-- Traces an entry, guarded. -/
def trace (scope : Scope) (entry : Entry) : Guarded Trace := do
  let first ← walk scope.board scope.limit (some scope.range.stop) entry.offset entry.processor
  explore scope (scope.range.size + 1) (Trace.start entry first) (Frontier.start entry.offset)
    first

section Trace

variable {scope : Scope} (fits : scope.Fits)

include fits

theorem walk_eq_of_due {offset : Nat} {processor : Processor} (due : scope.Due (offset, processor)) :
    walk scope.board scope.limit (some scope.range.stop) offset processor =
      .ok (scope.walk offset processor) := by
  have range := fits.range
  have inside := (Span.contains_iff _ _).mp due.1
  exact walk_eq fits.size due.2 _ _ (by omega)

theorem explore_eq {count : Nat} {trace : Trace} {frontier : Frontier} {taken : Walk}
    (kept : trace.Fits scope count) (within : taken.Fits scope)
    (due : ∀ place ∈ frontier.pending, scope.Due place) :
    explore scope count trace frontier taken = .ok (Trace.explore scope count trace frontier taken) ∧
      (Trace.explore scope count trace frontier taken).Fits scope 0 := by
  induction count generalizing trace frontier taken with
  | zero => exact ⟨rfl, kept⟩
  | succ count inductionHypothesis =>
    obtain ⟨same, grown⟩ := absorb_eq fits kept within
    have ended := grown.fewer (Nat.zero_le count)
    have wider : ∀ place ∈ ((frontier.add (trace.continuations scope taken)).prune
        (trace.absorb scope taken).tiling).pending, scope.Due place := by
      intro place member
      rcases Frontier.mem_pending_add (Frontier.mem_pending_of_prune member) with old | new
      · exact due place old
      · exact Trace.due_of_mem_continuations within new
    rw [explore, bind_eq same, Trace.explore]
    simp only
    generalize (frontier.add (trace.continuations scope taken)).prune
      (trace.absorb scope taken).tiling = ahead at wider ⊢
    obtain ⟨walked, pending⟩ := ahead
    cases pending with
    | nil => exact ⟨rfl, ended⟩
    | cons place rest =>
      have first := wider place List.mem_cons_self
      simp only
      split
      · exact ⟨rfl, ended⟩
      · rw [bind_eq (walk_eq_of_due fits first)]
        exact inductionHypothesis grown (Walk.fits scope place.1 first.2)
          fun other later => wider other (List.mem_cons_of_mem _ later)

/-- A trace of an entry inside the range does not fail, and counts no more than the most. -/
theorem trace_eq {entry : Entry} (due : scope.Due (entry.offset, entry.processor)) :
    trace scope entry = .ok (Trace.run scope entry) ∧ (Trace.run scope entry).Fits scope 0 := by
  have begun : (Trace.start entry (scope.walk entry.offset entry.processor)).Fits scope
      (scope.range.size + 1) := by
    refine ⟨fun instruction member => ?_, ?_⟩
    · obtain ⟨offset, look⟩ := Tiling.mem_instructions.mp member
      simp [Trace.start] at look
    · exact Nat.le_of_eq (Nat.zero_add _)
  have none : ∀ place ∈ (Frontier.start entry.offset).pending, scope.Due place :=
    fun place member => absurd member List.not_mem_nil
  rw [trace, bind_eq (walk_eq_of_due fits due)]
  exact explore_eq fits begun (Walk.fits scope _ due.2) none

end Trace

end Guarded

end Cartridge
