/-
This file guards what a survey makes of a trace: the end of the routine, the gaps between its
instructions, the guess of what it does, and the bytes that it covers. All ends lie inside the
image, and there are no more instructions than the trace decoded.
-/

import Cartridge.Proofs.Guarded.Trace

namespace Cartridge

/-- What a trace keeps to when it is merged. -/
structure Trace.Modest (scope : Scope) (trace : Trace) : Prop where
  stop_le : ∀ instruction ∈ trace.tiling.instructions, instruction.stop ≤ scope.board.image.size
  length_le : trace.tiling.instructions.length ≤ scope.mostDecoded

theorem Trace.modest_run {scope : Scope} {entry : Entry} (ended : (run scope entry).Fits scope 0) :
    (run scope entry).Modest scope := by
  refine ⟨ended.stop_le, ?_⟩
  rw [Tiling.length_instructions]
  exact Nat.le_trans (size_run_le scope entry) (Nat.le_trans (Nat.le_add_right _ _) ended.decoded_le)

theorem Trace.Modest.cut {scope : Scope} {trace : Trace} (modest : trace.Modest scope)
    (count : Nat) : (trace.cut count).Modest scope := by
  refine ⟨fun instruction member => ?_, ?_⟩
  · rw [instructions_cut] at member
    exact modest.stop_le instruction (List.mem_of_mem_take member)
  · rw [instructions_cut, List.length_take]
    exact Nat.le_trans (Nat.min_le_right _ _) modest.length_le

namespace Guarded

/-! ### What a routine does -/

/-- The guess of what a routine does from its operations, guarded. -/
def role (mnemonics : List Mnemonic) : Guarded Role :=
  let total := mnemonics.length
  if mnemonics.contains .rti then return .interruptHandler
  else do
    let tail ← slice mnemonics.toArray (total - 5) total
    if 50 < total ∧ tail.any Mnemonic.isUnconditionalTransfer then return .mainLoop
    else do
      let moves ← mul 64 (mnemonics.countP Role.isMove) 10
      let most ← mul 64 total 6
      if most < moves then return .dataHandler
      else do
        let calculations ← mul 64 (mnemonics.countP Role.isCalculation) 10
        let many ← mul 64 total 4
        return if many < calculations then .calculation else .subroutine

theorem role_eq {mnemonics : List Mnemonic} (few : mnemonics.length < 2 ^ 60) :
    role mnemonics = .ok (Role.ofMnemonics mnemonics) := by
  have moves := List.countP_le_length (p := Role.isMove) (l := mnemonics)
  have calculations := List.countP_le_length (p := Role.isCalculation) (l := mnemonics)
  have tail : (mnemonics.toArray.extract (mnemonics.length - 5) mnemonics.length).any
      Mnemonic.isUnconditionalTransfer =
        (Role.lastFive mnemonics).any Mnemonic.isUnconditionalTransfer := by
    rw [← Array.any_toList, Array.toList_extract, List.extract_eq_take_drop, Role.lastFive,
      List.take_of_length_le (Nat.le_of_eq List.length_drop)]
  have present : slice mnemonics.toArray (mnemonics.length - 5) mnemonics.length =
      .ok (mnemonics.toArray.extract (mnemonics.length - 5) mnemonics.length) :=
    slice_eq (Nat.sub_le _ _) (Nat.le_refl _)
  rw [role, Role.ofMnemonics]
  split
  · rfl
  · rw [bind_eq present, tail]
    split
    · rfl
    · rw [bind_eq (mul_eq (by omega)), bind_eq (mul_eq (by omega))]
      split
      · rfl
      · rw [bind_eq (mul_eq (by omega)), bind_eq (mul_eq (by omega))]
        split <;> rfl

/-! ### Routines -/

/-- The gap between two neighbouring instructions, guarded: the end of the first one is compared
with the start of the second. -/
def gap (pair : Instruction × Instruction) : Guarded Unit := do
  index 2 0
  index 2 1
  discard (stop pair.1)

/-- The routine of a trace, guarded. -/
def routine? (trace : Trace) : Guarded (Option Routine) := do
  let instructions := trace.tiling.instructions
  check (fun last => discard (stop last)) instructions.getLast?.toList
  check gap (instructions.zip instructions.tail)
  discard (role (instructions.map Instruction.mnemonic))
  return trace.routine?

/-- Merges a trace, guarded: its routine is made, and its bytes are covered. -/
def merge (range : Span) (survey : Survey) (trace : Trace) : Guarded Survey := do
  let found ← routine? trace
  check (fun routine => check (fun instruction => discard (stop instruction))
    routine.instructions) found.toList
  return survey.merge range trace

variable {scope : Scope} (fits : scope.Fits) {trace : Trace} (modest : trace.Modest scope)

include fits modest

theorem stop_eq_of_mem {instruction : Instruction}
    (member : instruction ∈ trace.tiling.instructions) : discard (stop instruction) = .ok () :=
  discard_eq ⟨_, stop_eq (modest.stop_le instruction member) fits.size⟩

theorem routine?_eq : routine? trace = .ok trace.routine? := by
  have most := fits.mostDecoded_le
  have length := modest.length_le
  have few : (trace.tiling.instructions.map Instruction.mnemonic).length < 2 ^ 60 := by
    rw [List.length_map]
    omega
  rw [routine?, bind_eq (check_eq fun last member => ?_), bind_eq (check_eq fun pair member => ?_),
    bind_eq (discard_eq ⟨_, role_eq few⟩)]
  · rfl
  · have first := (List.of_mem_zip member).1
    rw [gap, bind_eq (index_eq (by decide)), bind_eq (index_eq (by decide)),
      stop_eq_of_mem fits modest first]
  · exact stop_eq_of_mem fits modest (List.mem_of_getLast? (Option.mem_toList.mp member))

theorem merge_eq (survey : Survey) :
    merge scope.range survey trace = .ok (survey.merge scope.range trace) := by
  rw [merge, bind_eq (routine?_eq fits modest), bind_eq (check_eq fun routine found => ?_)]
  · rfl
  · obtain ⟨-, -, -, -, instructions, -⟩ := Trace.routine?_eq_some (Option.mem_toList.mp found)
    refine check_eq fun instruction member => ?_
    rw [instructions] at member
    exact stop_eq_of_mem fits modest member

end Guarded

end Cartridge
