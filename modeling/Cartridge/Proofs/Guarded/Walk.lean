/-
This file guards the processor state and all that follows code with it: the two shadows of the
stack, a fetch, a walk, a sweep and a listing. The shadows have eight places each, so a state
that came about by advancing fills no more of them; every push, pull, save and restore then
finds its place. A fetched instruction ends inside the image, so neither its end nor the place
behind it overflows.
-/

import Cartridge.Proofs.Guarded.Instruction
import Cartridge.Proofs.ProcessorState
import Cartridge.Sweep

namespace Cartridge

namespace Guarded

/-! ### Shadows of the stack -/

/-- Makes room for an entry on top of a shadow, guarded: a full shadow is rotated and gives up
its last place. -/
def claim (depth : Nat) : Guarded Unit :=
  if depth < Processor.shadowDepth then do
    index Processor.shadowDepth depth
    discard (add 8 depth 1)
  else do
    discard (sub Processor.shadowDepth 1)
    index Processor.shadowDepth (Processor.shadowDepth - 1)

/-- Takes the entry off the top of a shadow, guarded. -/
def release (depth : Nat) : Guarded Unit :=
  if depth = 0 then return ()
  else do
    let top ← sub depth 1
    index Processor.shadowDepth top

theorem claim_eq (depth : Nat) : claim depth = .ok () := by
  have places : Processor.shadowDepth = 8 := rfl
  rw [claim]
  split
  · rename_i free
    rw [bind_eq (index_eq free), discard_eq ⟨_, add_eq (by omega)⟩]
  · rw [bind_eq (discard_eq ⟨_, sub_eq (by omega)⟩), index_eq (by omega)]

theorem release_eq {depth : Nat} (within : depth ≤ Processor.shadowDepth) :
    release depth = .ok () := by
  rw [release]
  split
  · rfl
  · rw [bind_eq (sub_eq (by omega)), index_eq (by omega)]

/-- Pushes a byte, guarded. -/
def push (processor : Processor) (byte : Option UInt8) : Guarded Processor := do
  claim processor.pushed.length
  return processor.push byte

/-- Pushes unknown bytes, guarded. -/
def pushUnknown (processor : Processor) : Nat → Guarded Processor
  | 0 => return processor
  | count + 1 => do
    let pushed ← push processor none
    pushUnknown pushed count

/-- Pulls bytes off the stack one by one, guarded. -/
def pull (processor : Processor) : Nat → Guarded Processor
  | 0 => return processor
  | count + 1 => do
    release processor.pushed.length
    pull (processor.pull 1) count

/-- Saves the widths, guarded. -/
def saveWidths (processor : Processor) : Guarded Processor := do
  claim processor.saved.length
  return processor.saveWidths

/-- Restores the widths, guarded. -/
def restoreWidths (processor : Processor) : Guarded Processor := do
  release processor.saved.length
  return processor.restoreWidths

theorem push_eq (processor : Processor) (byte : Option UInt8) :
    push processor byte = .ok (processor.push byte) := by
  rw [push, bind_eq (claim_eq _)]
  rfl

theorem pushUnknown_eq (processor : Processor) (count : Nat) :
    pushUnknown processor count = .ok (processor.pushUnknown count) := by
  induction count generalizing processor with
  | zero => rfl
  | succ count inductionHypothesis =>
    rw [pushUnknown, bind_eq (push_eq _ _), inductionHypothesis, Processor.pushUnknown]

theorem pull_eq {processor : Processor} (shallow : processor.Shallow) (count : Nat) :
    pull processor count = .ok (processor.pull count) := by
  induction count generalizing processor with
  | zero => rfl
  | succ count inductionHypothesis =>
    have together : (processor.pull 1).pull count = processor.pull (count + 1) := by
      rw [Processor.pull, Processor.pull, Processor.pull, List.drop_drop, Nat.add_comm]
    rw [pull, bind_eq (release_eq shallow.pushed), inductionHypothesis (shallow.pull 1), together]

/-- Behind the last place of a shadow, a pull would find nothing. -/
example : pull { pushed := List.replicate 10 none } 1 = .error .outOfBounds := rfl

theorem saveWidths_eq (processor : Processor) :
    saveWidths processor = .ok processor.saveWidths := by
  rw [saveWidths, bind_eq (claim_eq _)]
  rfl

theorem restoreWidths_eq {processor : Processor} (shallow : processor.Shallow) :
    restoreWidths processor = .ok processor.restoreWidths := by
  rw [restoreWidths, bind_eq (release_eq shallow.saved)]
  rfl

/-- The state after an instruction, guarded. -/
def advance (processor : Processor) (instruction : Instruction) : Guarded Processor :=
  match instruction.mnemonic with
  | .php => do
    let saved ← saveWidths processor
    push saved none
  | .plp => do
    let restored ← restoreWidths processor
    pull restored 1
  | .phk => push processor (some instruction.address.bank)
  | .phb => push processor processor.dataBank
  | .plb => do
    let pulled ← pull processor 1
    return { pulled with dataBank := processor.top }
  | .pha => pushUnknown processor processor.accumulatorSize
  | .phx | .phy => pushUnknown processor processor.indexSize
  | .phd | .pea | .pei | .per => pushUnknown processor 2
  | .pla => pull processor processor.accumulatorSize
  | .plx | .ply => pull processor processor.indexSize
  | .pld => pull processor 2
  | _ => return processor.advance instruction

theorem advance_eq {processor : Processor} (shallow : processor.Shallow)
    (instruction : Instruction) :
    advance processor instruction = .ok (processor.advance instruction) := by
  unfold advance Processor.advance
  cases instruction.mnemonic with
  | php => rw [bind_eq (saveWidths_eq _), push_eq]
  | plp => rw [bind_eq (restoreWidths_eq shallow), pull_eq shallow.restoreWidths]
  | phk | phb => exact push_eq _ _
  | plb =>
    rw [bind_eq (pull_eq shallow 1)]
    rfl
  | pha | phx | phy | phd | pea | pei | per => exact pushUnknown_eq _ _
  | pla | plx | ply | pld => exact pull_eq shallow _
  | _ => rfl

/-! ### Fetching -/

/-- The instruction at an offset, if it decodes and ends at or before `stop`, guarded. -/
def fetch? (board : Board) (stop offset : Nat) (processor : Processor) :
    Guarded (Option Instruction) := do
  match ← decode board.layout board.image offset processor with
  | .ok instruction => do
    let last ← add 64 instruction.offset instruction.size
    return if last ≤ stop then some instruction else none
  | .error _ => return none

/-- A decoded instruction ends inside the image. -/
theorem stop_le_of_decode {layout : Layout} {image : Image} {offset : Nat} {processor : Processor}
    {instruction : Instruction}
    (decoded : Instruction.decode layout image offset processor = .ok instruction) :
    instruction.stop ≤ image.size := by
  obtain ⟨codeAt, -, operandAt, here, -⟩ := Instruction.decode_eq_ok_iff.mp decoded
  have inside : offset < image.size := by
    rw [← image.byte?_isSome_iff, codeAt]
    rfl
  have stop := (size_slice_of_read? inside operandAt).1
  rw [← Operand.size_of_read? operandAt] at stop
  rw [Instruction.stop, Instruction.size, here]
  exact stop

theorem stop_le_of_fetch? {board : Board} {stop offset : Nat} {processor : Processor}
    {instruction : Instruction}
    (fetched : board.fetch? stop offset processor = some instruction) :
    instruction.stop ≤ board.image.size :=
  stop_le_of_decode (Board.fetch?_eq_some_iff.mp fetched).1

section Board

variable {board : Board} (size : board.image.size < 2 ^ 63)

include size

theorem fetch?_eq (stop offset : Nat) (processor : Processor) :
    fetch? board stop offset processor = .ok (board.fetch? stop offset processor) := by
  rw [fetch?, bind_eq (decode_eq size _ _ _), Board.fetch?]
  cases decoded : Instruction.decode board.layout board.image offset processor with
  | error _ => rfl
  | ok instruction =>
    have bound : instruction.offset + instruction.size ≤ board.image.size :=
      stop_le_of_decode decoded
    simp only
    rw [bind_eq (add_eq (by omega))]
    rfl

end Board

/-! ### Walking -/

/-- Looks up the offset of the target of a transfer. -/
def lookUp (wiring : Wiring) : Flow → Guarded Unit
  | .call (some address) | .branch address | .goto address | .jump (some address) =>
    discard (offset? wiring address)
  | .call none | .jump none | .next | .leave | .halt => return ()

theorem lookUp_eq (wiring : Wiring) (flow : Flow) : lookUp wiring flow = .ok () := by
  have found (address : Address) : discard (offset? wiring address) = .ok () :=
    discard_eq ⟨_, offset?_eq _ _⟩
  cases flow with
  | branch address | goto address => exact found address
  | call target | jump target =>
    cases target with
    | none => rfl
    | some address => exact found address
  | next | leave | halt => rfl

/-- The steps from an offset inside a window, and how they end, guarded. -/
def path (board : Board) (stop : Nat) :
    (limit offset : Nat) → Processor → Guarded (List Step × Ending)
  | 0, _, _ => return ([], .limited)
  | limit + 1, offset, processor => do
    match ← fetch? board stop offset processor with
    | none => return ([], .truncated)
    | some instruction => do
      let after ← advance processor instruction
      lookUp board.wiring instruction.flow
      let next ← add 64 instruction.offset instruction.size
      match instruction.flow.ending? with
      | some ending => return ([⟨instruction, after⟩], ending)
      | none => do
        let rest ← path board stop limit next after
        return (⟨instruction, after⟩ :: rest.1, rest.2)

/-- Walks from a start, guarded. -/
def walk (board : Board) (limit : Nat) (bound : Option Nat) (start : Nat)
    (processor : Processor) : Guarded Walk := do
  let bank ← bankEnd board.wiring start
  let stop := match bound with
    | some bound => min bank bound
    | none => bank
  let taken ← path board stop limit start processor
  return ⟨start, processor, taken.1, taken.2⟩

/-- The instructions from an offset up to `stop`, guarded. -/
def run (board : Board) (stop : Nat) :
    (count offset : Nat) → Processor → Guarded (List Instruction)
  | 0, _, _ => return []
  | count + 1, offset, processor => do
    match ← fetch? board stop offset processor with
    | none => return []
    | some instruction => do
      let after ← advance processor instruction
      let next ← add 64 instruction.offset instruction.size
      let rest ← run board stop count next after
      return instruction :: rest

section Board

variable {board : Board} (size : board.image.size < 2 ^ 63) {processor : Processor}
  (shallow : processor.Shallow)

include size shallow

theorem path_eq (stop limit offset : Nat) :
    path board stop limit offset processor = .ok (board.path stop limit offset processor) := by
  induction limit generalizing offset processor with
  | zero => rfl
  | succ limit inductionHypothesis =>
    rw [path, bind_eq (fetch?_eq size _ _ _), Board.path]
    cases fetched : board.fetch? stop offset processor with
    | none => rfl
    | some instruction =>
      have bound : instruction.offset + instruction.size ≤ board.image.size :=
        stop_le_of_fetch? fetched
      simp only
      rw [bind_eq (advance_eq shallow instruction), bind_eq (lookUp_eq _ _),
        bind_eq (add_eq (by omega))]
      cases instruction.flow.ending? with
      | some ending => rfl
      | none =>
        simp only
        rw [bind_eq (inductionHypothesis (shallow.advance instruction) _)]
        rfl

theorem walk_eq (limit : Nat) (bound : Option Nat) {start : Nat} (inside : start < 2 ^ 63) :
    walk board limit bound start processor = .ok (board.walk limit bound start processor) := by
  rw [walk, bind_eq (bankEnd_eq _ inside), bind_eq (path_eq size shallow _ _ _), Board.walk,
    Board.follow_eq_path, List.reverse_nil, List.nil_append]
  cases bound <;> rfl

theorem run_eq (stop count offset : Nat) :
    run board stop count offset processor = .ok (board.run stop count offset processor) := by
  induction count generalizing offset processor with
  | zero => rfl
  | succ count inductionHypothesis =>
    rw [run, bind_eq (fetch?_eq size _ _ _), Board.run]
    cases fetched : board.fetch? stop offset processor with
    | none => rfl
    | some instruction =>
      have bound : instruction.offset + instruction.size ≤ board.image.size :=
        stop_le_of_fetch? fetched
      simp only
      rw [bind_eq (advance_eq shallow instruction), bind_eq (add_eq (by omega)),
        bind_eq (inductionHypothesis (shallow.advance instruction) _)]
      rfl

end Board

end Guarded

end Cartridge
