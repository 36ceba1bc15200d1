/-
This file proves that the data bank is followed soundly. A machine holds the data bank itself
and the whole stack, without a bound. What the processor state knows is compared with it: the
data bank, where it is known, is that of the machine, and the bytes pushed shadow the top of the
stack, entry by entry, where an unknown entry shadows any byte. A shadow that loses its oldest
entries still shadows the top of the stack, and an empty one shadows every stack. That is why
neither a full shadow nor a pull from an empty one does harm, and every instruction keeps the
comparison.

While the shadow neither overflows nor is pulled empty there is nothing else to know: every byte
can be what an unknown data bank holds.
-/

import Cartridge.Proofs.Assembler
import Cartridge.Sweep

namespace Cartridge

/-! ### The machine -/

/-- The data bank and the stack of a running processor. -/
structure Machine where
  dataBank : UInt8
  /-- The bytes on the stack, most recent first. -/
  stack : List UInt8
deriving DecidableEq

namespace Machine

/-- The number of bytes that a register takes on the stack. -/
def registerSize (wide : Bool) : Nat :=
  if wide then 2 else 1

/-- Pushes a byte. -/
def push (machine : Machine) (byte : UInt8) : Machine :=
  { machine with stack := byte :: machine.stack }

/-- Pulls bytes that are not looked at. -/
def pull (machine : Machine) (count : Nat) : Machine :=
  { machine with stack := machine.stack.drop count }

/-- Some bytes are pushed, of which only the number is known. -/
def Pushes (count : Nat) (before after : Machine) : Prop :=
  ∃ bytes : List UInt8, bytes.length = count ∧ after = bytes.foldl push before

/-- The data bank is pulled. From an empty stack comes any byte. -/
def PullsDataBank (before after : Machine) : Prop :=
  match before.stack with
  | byte :: rest => after = ⟨byte, rest⟩
  | [] => after.stack = []

/-- What an instruction may do to the data bank and the stack, where the processor state tells
the widths of the registers. The destination of a block move is its first operand byte. -/
def Next (processor : Processor) (instruction : Instruction) (before after : Machine) : Prop :=
  match instruction.mnemonic with
  | .phk => after = before.push instruction.address.bank
  | .phb => after = before.push before.dataBank
  | .plb => PullsDataBank before after
  | .mvn | .mvp => after = { before with dataBank := instruction.operand.low }
  | .php => Pushes 1 before after
  | .pha => Pushes (registerSize processor.wideAccumulator) before after
  | .phx | .phy => Pushes (registerSize processor.wideIndex) before after
  | .phd | .pea | .pei | .per => Pushes 2 before after
  | .plp => after = before.pull 1
  | .pla => after = before.pull (registerSize processor.wideAccumulator)
  | .plx | .ply => after = before.pull (registerSize processor.wideIndex)
  | .pld => after = before.pull 2
  | .tcs | .txs => after.dataBank = before.dataBank
  | _ => after = before

/-- What a sequence of instructions may do, while the processor state follows it. -/
inductive Runs : Processor → List Instruction → Machine → Machine → Prop
  | nil (processor : Processor) (machine : Machine) : Runs processor [] machine machine
  | cons {processor : Processor} {instruction : Instruction} {rest : List Instruction}
      {before between after : Machine} (next : Next processor instruction before between)
      (runs : Runs (processor.advance instruction) rest between after) :
      Runs processor (instruction :: rest) before after

theorem exists_pushes (count : Nat) (before : Machine) : ∃ after, Pushes count before after :=
  ⟨_, List.replicate count 0, List.length_replicate, rfl⟩

theorem exists_pullsDataBank (before : Machine) : ∃ after, PullsDataBank before after := by
  unfold PullsDataBank
  cases before.stack with
  | nil => exact ⟨⟨0, []⟩, rfl⟩
  | cons byte rest => exact ⟨_, rfl⟩

/-- No instruction is stuck. -/
theorem exists_next (processor : Processor) (instruction : Instruction) (before : Machine) :
    ∃ after, Next processor instruction before after := by
  unfold Next
  cases instruction.mnemonic
  case plb => exact exists_pullsDataBank before
  case php | pha | phx | phy | phd | pea | pei | per => exact exists_pushes _ before
  all_goals exact ⟨_, rfl⟩

theorem exists_runs (processor : Processor) (instructions : List Instruction) (before : Machine) :
    ∃ after, Runs processor instructions before after := by
  induction instructions generalizing processor before with
  | nil => exact ⟨before, .nil processor before⟩
  | cons instruction rest inductionHypothesis =>
    obtain ⟨between, next⟩ := exists_next processor instruction before
    obtain ⟨after, runs⟩ := inductionHypothesis (processor.advance instruction) between
    exact ⟨after, .cons next runs⟩

end Machine

/-! ### Shadows -/

/-- A byte is what an entry says, if the entry knows it. -/
def Admits (entry : Option UInt8) (byte : UInt8) : Prop :=
  ∀ known, entry = some known → byte = known

theorem Admits.some (byte : UInt8) : Admits (some byte) byte :=
  fun _ same => Option.some.inj same

theorem Admits.none (byte : UInt8) : Admits none byte :=
  nofun

/-- A shadow tells of the top of a stack, entry by entry. -/
inductive Shadows : List (Option UInt8) → List UInt8 → Prop
  | nil (stack : List UInt8) : Shadows [] stack
  | cons {entry : Option UInt8} {byte : UInt8} {shadow : List (Option UInt8)}
      {stack : List UInt8} (top : Admits entry byte) (below : Shadows shadow stack) :
      Shadows (entry :: shadow) (byte :: stack)

namespace Shadows

variable {shadow : List (Option UInt8)} {stack : List UInt8}

/-- A shadow that forgets its oldest entries is still one. -/
theorem take (shadows : Shadows shadow stack) (count : Nat) :
    Shadows (shadow.take count) stack := by
  induction shadows generalizing count with
  | nil stack =>
    rw [List.take_nil]
    exact .nil stack
  | cons top below inductionHypothesis =>
    cases count with
    | zero => exact .nil _
    | succ count => exact .cons top (inductionHypothesis count)

/-- A stack loses bytes below its shadow unnoticed. -/
theorem drop (shadows : Shadows shadow stack) (count : Nat) :
    Shadows (shadow.drop count) (stack.drop count) := by
  induction shadows generalizing count with
  | nil stack =>
    rw [List.drop_nil]
    exact .nil _
  | cons top below inductionHypothesis =>
    cases count with
    | zero => exact .cons top below
    | succ count => exact inductionHypothesis count

theorem remember (shadows : Shadows shadow stack) {entry : Option UInt8} {byte : UInt8}
    (top : Admits entry byte) : Shadows (Processor.remember entry shadow) (byte :: stack) :=
  (cons top shadows).take Processor.shadowDepth

end Shadows

/-! ### Following a machine -/

/-- What a processor state knows of the data bank and the stack is true of a machine. -/
structure Processor.Follows (processor : Processor) (machine : Machine) : Prop where
  dataBank : Admits processor.dataBank machine.dataBank
  stack : Shadows processor.pushed machine.stack

namespace Processor

/-! The widths, the mode and the carry change without the data bank and the stack. -/

@[simp]
theorem dataBank_exchangeMode (processor : Processor) :
    processor.exchangeMode.dataBank = processor.dataBank := by
  unfold exchangeMode
  cases processor.carry <;> rfl

@[simp]
theorem pushed_exchangeMode (processor : Processor) :
    processor.exchangeMode.pushed = processor.pushed := by
  unfold exchangeMode
  cases processor.carry <;> rfl

@[simp]
theorem dataBank_restoreWidths (processor : Processor) :
    processor.restoreWidths.dataBank = processor.dataBank := by
  unfold restoreWidths
  cases processor.saved <;> rfl

@[simp]
theorem pushed_restoreWidths (processor : Processor) :
    processor.restoreWidths.pushed = processor.pushed := by
  unfold restoreWidths
  cases processor.saved <;> rfl

end Processor

namespace Processor.Follows

variable {processor other : Processor} {machine : Machine}

/-- Only the data bank and the bytes pushed matter. -/
theorem of_eq (follows : processor.Follows machine) (bank : other.dataBank = processor.dataBank)
    (pushed : other.pushed = processor.pushed) : other.Follows machine :=
  ⟨bank ▸ follows.dataBank, pushed ▸ follows.stack⟩

theorem push (follows : processor.Follows machine) {entry : Option UInt8} {byte : UInt8}
    (top : Admits entry byte) : (processor.push entry).Follows (machine.push byte) :=
  ⟨follows.dataBank, follows.stack.remember top⟩

theorem pushUnknown (follows : processor.Follows machine) {count : Nat} {after : Machine}
    (pushes : machine.Pushes count after) : (processor.pushUnknown count).Follows after := by
  obtain ⟨bytes, rfl, rfl⟩ := pushes
  induction bytes generalizing processor machine with
  | nil => exact follows
  | cons byte bytes inductionHypothesis => exact inductionHypothesis (follows.push (.none byte))

theorem pull (follows : processor.Follows machine) (count : Nat) :
    (processor.pull count).Follows (machine.pull count) :=
  ⟨follows.dataBank, follows.stack.drop count⟩

/-- The shadow is empty where the stack is, so nothing is known of a byte from below it. -/
theorem pullDataBank (follows : processor.Follows machine) {after : Machine}
    (pulls : machine.PullsDataBank after) :
    Processor.Follows { processor.pull 1 with dataBank := processor.top } after := by
  obtain ⟨bank, stack⟩ := machine
  have shadows := follows.stack
  unfold Machine.PullsDataBank at pulls
  unfold Processor.pull Processor.top
  generalize processor.pushed = shadow at shadows ⊢
  cases shadows with
  | nil => exact ⟨.none _, .nil _⟩
  | cons top below =>
    obtain rfl := pulls
    exact ⟨top, below⟩

theorem moveBlock (follows : processor.Follows machine) (instruction : Instruction) :
    Processor.Follows
      { processor with dataBank := instruction.blockMove?.map BlockMove.destination }
      { machine with dataBank := instruction.operand.low } := by
  refine ⟨?_, follows.stack⟩
  unfold Instruction.blockMove?
  split
  · rename_i wordAt
    rw [wordAt]
    exact .some _
  · exact .none _

theorem forgetStack (follows : processor.Follows machine) {after : Machine}
    (same : after.dataBank = machine.dataBank) :
    Processor.Follows { processor with pushed := [] } after :=
  ⟨same ▸ follows.dataBank, .nil _⟩

/-- Whatever an instruction does, what is known afterwards is true. -/
theorem advance (follows : processor.Follows machine) {instruction : Instruction}
    {after : Machine} (next : machine.Next processor instruction after) :
    (processor.advance instruction).Follows after := by
  unfold Machine.Next at next
  unfold Processor.advance
  generalize instruction.mnemonic = mnemonic at next ⊢
  cases mnemonic
  case phk => exact next ▸ follows.push (.some _)
  case phb => exact next ▸ follows.push follows.dataBank
  case plb => exact follows.pullDataBank next
  case mvn | mvp => exact next ▸ follows.moveBlock instruction
  case php =>
    have saved : processor.saveWidths.Follows machine := follows.of_eq rfl rfl
    exact saved.pushUnknown next
  case pha | phx | phy | phd | pea | pei | per => exact follows.pushUnknown next
  case plp =>
    exact next ▸ (follows.of_eq (dataBank_restoreWidths _) (pushed_restoreWidths _)).pull 1
  case pla | plx | ply | pld => exact next ▸ follows.pull _
  case tcs | txs => exact follows.forgetStack next
  case xce => exact next ▸ follows.of_eq (dataBank_exchangeMode _) (pushed_exchangeMode _)
  -- The rest writes at most the widths, the mode and the carry.
  all_goals exact next ▸ follows.of_eq rfl rfl

end Processor.Follows

/-- What is known stays true along a sequence of instructions. -/
theorem Processor.Follows.foldl_advance {processor : Processor} {instructions : List Instruction}
    {before after : Machine} (follows : processor.Follows before)
    (runs : Machine.Runs processor instructions before after) :
    (instructions.foldl Processor.advance processor).Follows after := by
  induction runs with
  | nil => exact follows
  | cons next _ inductionHypothesis => exact inductionHypothesis (follows.advance next)

/-- Following the data bank is sound. Take a machine whose data bank is the known one, if one is
known, with any stack below an empty shadow. Whatever bytes the machine pushes and finds, it
runs through every sequence of instructions, and where a data bank is known behind them, it is
the data bank of the machine. -/
theorem Processor.dataBank_followed (processor : Processor) (instructions : List Instruction)
    (before : Machine) (empty : processor.pushed = [])
    (known : Admits processor.dataBank before.dataBank) :
    (∃ after, Machine.Runs processor instructions before after) ∧
      ∀ after, Machine.Runs processor instructions before after →
        ∀ bank, (instructions.foldl advance processor).dataBank = some bank →
          after.dataBank = bank := by
  refine ⟨Machine.exists_runs processor instructions before, fun after runs => ?_⟩
  have follows : processor.Follows before := ⟨known, empty ▸ .nil before.stack⟩
  exact (follows.foldl_advance runs).dataBank

/-- A switch to a wide accumulator, `PHB`, `PHA`, `PLA`, a block move to bank `$01` and `PLB`. -/
def pushingImage : Image :=
  ⟨#[0xC2, 0x20, 0x8B, 0x48, 0x68, 0x54, 0x01, 0x02, 0xAB]⟩

/-- The known bank `$7E` comes back from below a word and in spite of a block move. -/
theorem Processor.dataBank_followed_pulled :
    let start : Processor := { dataBank := some 0x7E }
    let instructions := Board.listing ⟨.loRom, pushingImage⟩ ⟨0, 9⟩ start
    let before : Machine := ⟨0x7E, [0x12]⟩
    start.pushed = [] ∧ Admits start.dataBank before.dataBank ∧
      instructions.map Instruction.text =
        ["REP #$20", "PHB", "PHA", "PLA", "MVN $02,$01", "PLB"] ∧
      (instructions.foldl advance start).dataBank = some 0x7E ∧
      (∃ after, Machine.Runs start instructions before after) ∧
      ∀ after, Machine.Runs start instructions before after → after.dataBank = 0x7E := by
  intro start instructions before
  have known : Admits start.dataBank before.dataBank := .some 0x7E
  have found : (instructions.foldl advance start).dataBank = some 0x7E := by decide +kernel
  obtain ⟨runs, sound⟩ := dataBank_followed start instructions before rfl known
  exact ⟨rfl, known, by decide +kernel, found, runs, fun after run => sound after run 0x7E found⟩

/-! ### Nothing else is known -/

theorem Opcode.mode_of_blockMove {code : UInt8}
    (moves : (ofByte code).mnemonic = .mvn ∨ (ofByte code).mnemonic = .mvp) :
    (ofByte code).mode = .blockMove := by
  have table : ∀ row column : Fin 16,
      ((matrix.get row).get column).mnemonic = .mvn ∨
        ((matrix.get row).get column).mnemonic = .mvp →
      ((matrix.get row).get column).mode = .blockMove := by
    decide
  exact table _ _ moves

namespace Processor

/-- The machine whose unknown bytes are all the same one. -/
def filled (processor : Processor) (byte : UInt8) : Machine :=
  ⟨processor.dataBank.getD byte, processor.pushed.map fun entry => entry.getD byte⟩

/-- Before each instruction of a sequence the shadow has room for two more bytes, which is as
many as an instruction pushes. -/
def HasRoom : Processor → List Instruction → Prop
  | _, [] => True
  | processor, instruction :: rest =>
    processor.pushed.length + 2 ≤ shadowDepth ∧ (processor.advance instruction).HasRoom rest

variable {processor other : Processor} (byte : UInt8)

theorem filled_eq (bank : other.dataBank = processor.dataBank)
    (pushed : other.pushed = processor.pushed) : other.filled byte = processor.filled byte := by
  rw [filled, filled, bank, pushed]

theorem follows_filled : processor.Follows (processor.filled byte) := by
  have admits (entry : Option UInt8) : Admits entry (entry.getD byte) := by
    cases entry with
    | none => exact .none _
    | some known => exact .some known
  refine ⟨admits _, ?_⟩
  unfold filled
  induction processor.pushed with
  | nil => exact .nil _
  | cons entry shadow inductionHypothesis => exact .cons (admits entry) inductionHypothesis

theorem filled_push {entry : Option UInt8} (room : processor.pushed.length < shadowDepth) :
    (processor.push entry).filled byte = (processor.filled byte).push (entry.getD byte) := by
  have fits : (entry :: processor.pushed).length ≤ shadowDepth := room
  rw [push, filled, remember, List.take_of_length_le fits]
  rfl

theorem pushes_filled {count : Nat} (room : processor.pushed.length + count ≤ shadowDepth) :
    (processor.filled byte).Pushes count ((processor.pushUnknown count).filled byte) := by
  refine ⟨List.replicate count byte, List.length_replicate, ?_⟩
  induction count generalizing processor with
  | zero => rfl
  | succ count inductionHypothesis =>
    have first : processor.pushed.length < shadowDepth := by omega
    have fits : (none :: processor.pushed).length ≤ shadowDepth := first
    have rest : (processor.push none).pushed.length + count ≤ shadowDepth := by
      rw [push, remember, List.take_of_length_le fits, List.length_cons]
      omega
    rw [pushUnknown, inductionHypothesis rest, filled_push byte first]
    rfl

theorem filled_pull (count : Nat) :
    (processor.pull count).filled byte = (processor.filled byte).pull count := by
  rw [filled, filled, Machine.pull, pull, List.map_drop]

theorem pullsDataBank_filled : (processor.filled byte).PullsDataBank
    (filled { processor.pull 1 with dataBank := processor.top } byte) := by
  unfold Machine.PullsDataBank filled pull top
  cases processor.pushed <;> rfl

/-- Moving a block needs two operand bytes, which decoding guarantees. -/
theorem filled_moveBlock {instruction : Instruction} (regular : instruction.Regular)
    (mode : instruction.mode = .blockMove) :
    filled { processor with dataBank := instruction.blockMove?.map BlockMove.destination } byte =
      { processor.filled byte with dataBank := instruction.operand.low } := by
  have size : instruction.operand.size = 2 := by
    rw [regular.size (by rw [mode]; decide), mode]
    rfl
  obtain ⟨destination, source, wordAt⟩ := Operand.eq_word_of_size size
  rw [filled, Instruction.blockMove?, mode, wordAt]
  rfl

/-- While the shadow has room, the machine whose unknown bytes are all the same takes each step
together with the processor state. -/
theorem next_filled {instruction : Instruction} (regular : instruction.Regular)
    (room : processor.pushed.length + 2 ≤ shadowDepth) :
    (processor.filled byte).Next processor instruction
      ((processor.advance instruction).filled byte) := by
  have one : processor.pushed.length + 1 ≤ shadowDepth := by omega
  have register (wide : Bool) :
      processor.pushed.length + Machine.registerSize wide ≤ shadowDepth := by
    cases wide <;> assumption
  have mode : instruction.mnemonic = .mvn ∨ instruction.mnemonic = .mvp →
      instruction.mode = .blockMove := Opcode.mode_of_blockMove
  unfold Machine.Next advance
  generalize instruction.mnemonic = mnemonic at mode ⊢
  cases mnemonic
  case phk | phb => exact filled_push byte one
  case plb => exact pullsDataBank_filled byte
  case mvn | mvp => exact filled_moveBlock byte regular (mode (by decide))
  case php =>
    have saved : processor.saveWidths.pushed.length + 1 ≤ shadowDepth := one
    exact pushes_filled byte saved
  case pha | phx | phy => exact pushes_filled byte (register _)
  case phd | pea | pei | per => exact pushes_filled byte room
  case plp =>
    have restored := filled_eq byte (dataBank_restoreWidths processor)
      (pushed_restoreWidths processor)
    exact (filled_pull byte 1).trans (congrArg (Machine.pull · 1) restored)
  case pla | plx | ply | pld => exact filled_pull byte _
  case xce => exact filled_eq byte (dataBank_exchangeMode _) (pushed_exchangeMode _)
  all_goals rfl

theorem runs_filled {instructions : List Instruction}
    (regular : ∀ instruction ∈ instructions, instruction.Regular)
    (room : processor.HasRoom instructions) :
    Machine.Runs processor instructions (processor.filled byte)
      ((instructions.foldl advance processor).filled byte) := by
  induction instructions generalizing processor with
  | nil => exact .nil _ _
  | cons instruction rest inductionHypothesis =>
    obtain ⟨here, later⟩ := room
    obtain ⟨first, others⟩ := List.forall_mem_cons.mp regular
    exact .cons (next_filled byte first here) (inductionHypothesis others later)

/-- Following the data bank forgets nothing but what falls off the shadow. Where the data bank
is unknown behind a sequence of instructions that leaves room in the shadow, it can be any byte,
for machines that are in keeping with all that was known at the start. -/
theorem exists_runs_of_dataBank_eq_none {instructions : List Instruction}
    (regular : ∀ instruction ∈ instructions, instruction.Regular)
    (room : processor.HasRoom instructions)
    (unknown : (instructions.foldl advance processor).dataBank = none) :
    ∃ before after, processor.Follows before ∧
      Machine.Runs processor instructions before after ∧ after.dataBank = byte := by
  refine ⟨_, _, follows_filled byte, runs_filled byte regular room, ?_⟩
  rw [filled, unknown]
  rfl

/-- Without room more is forgotten. `PHK` and then `PLB`, nine times each, leave `$01` in the data
bank of every machine, but the shadow has lost the first byte. -/
example :
    let push : Instruction := ⟨0, ⟨0x01, 0x8000⟩, 0x4B, .absent, none⟩
    let pull : Instruction := ⟨1, ⟨0x01, 0x8001⟩, 0xAB, .absent, none⟩
    ((List.replicate 9 push ++ List.replicate 9 pull).foldl advance {}).dataBank = none := by
  decide +kernel

end Processor

end Cartridge
