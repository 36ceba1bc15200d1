/-
This file proves that the assembler form of an instruction, together with its address, tells
the bytes of the instruction. The first three characters are the operation. What follows splits
into digits and into the marks around them. The marks leave a few addressing modes to choose
from, and the number of digits leaves one that the operation has, so the opcode byte is known.
The digits then write the operand; those of a branch write its target, and counting back from
the target gives the distance that the operand holds.
-/

import Cartridge.Instruction.Decode
import Cartridge.Proofs.Agreement
import Mathlib.Data.List.Nodup
import Mathlib.Data.String.Basic
import Mathlib.Order.Fin.Basic

namespace Cartridge

/-! ### Operations -/

namespace Mnemonic

theorem ctorIdx_lt (mnemonic : Mnemonic) : mnemonic.ctorIdx < 92 := by
  cases mnemonic <;> decide

/-- The operations are listed in the order of their spellings. -/
theorem strictMono_text : StrictMono fun index : Fin 92 => (ofNat index).text := by
  rw [Fin.strictMono_iff_lt_succ]
  decide +kernel

theorem text_injective {first second : Mnemonic} (same : first.text = second.text) :
    first = second := by
  have index : (⟨first.ctorIdx, first.ctorIdx_lt⟩ : Fin 92) =
      ⟨second.ctorIdx, second.ctorIdx_lt⟩ := by
    apply strictMono_text.injective
    simp only [ofNat_ctorIdx]
    exact same
  rw [← ofNat_ctorIdx first, ← ofNat_ctorIdx second, Fin.mk.inj index]

@[simp]
theorem length_text (mnemonic : Mnemonic) : mnemonic.text.toList.length = 3 := by
  cases mnemonic <;> rfl

end Mnemonic

/-! ### Digits -/

namespace Hex

/-- Whether a character is a digit of a fixed-width numeral. -/
def isUpperDigit (character : Char) : Bool :=
  ('0' ≤ character ∧ character ≤ '9') ∨ ('A' ≤ character ∧ character ≤ 'F')

theorem isUpperDigit_upperDigit {value : Nat} (small : value < 16) :
    isUpperDigit (upperDigit value) = true := by
  have every : ∀ digit : Fin 16, isUpperDigit (upperDigit digit) = true := by decide
  exact every ⟨value, small⟩

theorem isUpperDigit_of_mem_fixedDigits {width value : Nat} {character : Char}
    (member : character ∈ fixedDigits width value) : isUpperDigit character = true := by
  induction width generalizing value with
  | zero => exact absurd member List.not_mem_nil
  | succ width inductionHypothesis =>
    rcases List.mem_append.mp member with before | last
    · exact inductionHypothesis before
    · rw [List.mem_singleton.mp last]
      exact isUpperDigit_upperDigit (Nat.mod_lt _ (by decide))

@[simp]
theorem filter_fixedDigits (width value : Nat) :
    (fixedDigits width value).filter isUpperDigit = fixedDigits width value :=
  List.filter_eq_self.mpr fun _ member => isUpperDigit_of_mem_fixedDigits member

@[simp]
theorem filter_not_fixedDigits (width value : Nat) :
    (fixedDigits width value).filter (not ∘ isUpperDigit) = [] := by
  refine List.filter_eq_nil_iff.mpr fun character member => ?_
  rw [Function.comp_apply, isUpperDigit_of_mem_fixedDigits member]
  decide

@[simp]
theorem toList_fixed (width value : Nat) : (fixed width value).toList = fixedDigits width value :=
  String.toList_ofList

/-- Two digits for each of two bytes are the four digits of the bytes as one number. -/
theorem fixedDigits_append_fixedDigits (high low : UInt8) :
    fixedDigits 2 high.toNat ++ fixedDigits 2 low.toNat =
      fixedDigits 4 (0x100 * high.toNat + low.toNat) := by
  have highBound := high.toNat_lt
  have lowBound := low.toNat_lt
  simp only [fixedDigits, List.nil_append, List.cons_append, List.cons.injEq, and_true]
  refine ⟨?_, ?_, ?_, ?_⟩ <;> exact congrArg upperDigit (by omega)

end Hex

/-! ### How operands look -/

namespace Mode

/-- The characters behind the operation that are not digits. -/
def marks : Mode → List Char
  | .implied => []
  | .accumulator => [' ']
  | .immediate => [' ', '#', '$']
  | .absolute | .absoluteLong | .direct | .relative | .relativeLong => [' ', '$']
  | .absoluteX | .absoluteLongX | .directX => [' ', '$', ',', 'X']
  | .absoluteY | .directY => [' ', '$', ',', 'Y']
  | .absoluteIndirect | .directIndirect => [' ', '(', '$', ')']
  | .absoluteIndexedIndirect | .directIndexedIndirect => [' ', '(', '$', ',', 'X', ')']
  | .directIndirectIndexed => [' ', '(', '$', ')', ',', 'Y']
  | .absoluteIndirectLong | .directIndirectLong => [' ', '[', '$', ']']
  | .directIndirectLongIndexed => [' ', '[', '$', ']', ',', 'Y']
  | .stackRelative => [' ', '$', ',', 'S']
  | .stackRelativeIndirectIndexed => [' ', '(', '$', ',', 'S', ')', ',', 'Y']
  | .blockMove => [' ', '$', ',', '$']

/-- The number of digits for an operand of a given size. The accumulator is one, since its
name is a digit; a branch writes all of its target. -/
def digitCount (mode : Mode) (size : Nat) : Nat :=
  match mode with
  | .accumulator => 1
  | .relative | .relativeLong => 4
  | _ => 2 * size

/-- Only an immediate operand has its marks. -/
theorem eq_immediate_of_marks {mode : Mode} (same : mode.marks = immediate.marks) :
    mode = immediate := by
  cases mode <;> first | rfl | exact absurd same (by decide)

end Mode

theorem Operand.eq_word_of_size {operand : Operand} (size : operand.size = 2) :
    ∃ low high, operand = .word low high := by
  cases operand with
  | word low high => exact ⟨low, high, rfl⟩
  | _ => exact nomatch size

/-- The number that the digits of an operand write. -/
def Operand.written (operand : Operand) (mode : Mode) (address : Address) : Nat :=
  match mode with
  | .accumulator => 0xA
  | .relative =>
    (address.advance (1 + operand.size + Int.bmod operand.value 0x100)).low.toNat
  | .relativeLong =>
    (address.advance (1 + operand.size + Int.bmod operand.value 0x10000)).low.toNat
  | .blockMove => match operand with
    | .word destination source => 0x100 * source.toNat + destination.toNat
    | _ => operand.value
  | _ => operand.value

/-! ### Operands from what is written -/

/-- Places that agree are reached by distances that agree up to the size of a bank. -/
theorem Address.emod_eq_of_advance {address : Address} {first second : Int}
    (same : (address.advance first).low.toNat = (address.advance second).low.toNat) :
    first % 0x10000 = second % 0x10000 := by
  simp only [advance, UInt16.toNat_ofNat'] at same
  omega

/-- A distance is known up to the size of a bank only, but its operand writes it in as many
values as `span`, which divides that size. -/
theorem Address.eq_of_advance_bmod {address : Address} {size span first second : Nat}
    (divides : (span : Int) ∣ 0x10000) (firstBound : first < span) (secondBound : second < span)
    (same : (address.advance (1 + size + Int.bmod first span)).low.toNat =
      (address.advance (1 + size + Int.bmod second span)).low.toNat) : first = second := by
  have places : (Int.bmod first span) % 0x10000 = (Int.bmod second span) % 0x10000 := by
    have advances := emod_eq_of_advance same
    omega
  have values : (first : Int) % span = (second : Int) % span := by
    have reduced := congrArg (· % (span : Int)) places
    simp only [Int.emod_emod_of_dvd _ divides, Int.bmod_emod] at reduced
    exact reduced
  have natural : first % span = second % span := by exact_mod_cast values
  rwa [Nat.mod_eq_of_lt firstBound, Nat.mod_eq_of_lt secondBound] at natural

namespace Operand

/-- The size and the value of an operand tell its bytes. -/
theorem eq_of_value {first second : Operand} (sizes : first.size = second.size)
    (values : first.value = second.value) : first = second := by
  cases first <;> cases second
  case absent.absent => rfl
  case byte.byte low other => rw [UInt8.toNat_inj.mp values]
  case word.word low high low' high' =>
    have bounds := And.intro low.toNat_lt low'.toNat_lt
    simp only [value] at values
    rw [UInt8.toNat_inj.mp (show low.toNat = low'.toNat by omega),
      UInt8.toNat_inj.mp (show high.toNat = high'.toNat by omega)]
  case long.long low high bank low' high' bank' =>
    have lows := And.intro low.toNat_lt low'.toNat_lt
    have highs := And.intro high.toNat_lt high'.toNat_lt
    simp only [value] at values
    rw [UInt8.toNat_inj.mp (show low.toNat = low'.toNat by omega),
      UInt8.toNat_inj.mp (show high.toNat = high'.toNat by omega),
      UInt8.toNat_inj.mp (show bank.toNat = bank'.toNat by omega)]
  all_goals simp [size] at sizes

theorem value_lt_of_size {operand : Operand} {size : Nat} (sized : operand.size = size) :
    operand.value < Hex.capacity (2 * size) :=
  sized ▸ operand.value_lt

theorem written_lt (operand : Operand) (mode : Mode) (address : Address) :
    operand.written mode address < Hex.capacity (mode.digitCount operand.size) := by
  unfold written Mode.digitCount
  cases mode
  case accumulator => exact (by decide : 0xA < Hex.capacity 1)
  case relative | relativeLong => exact UInt16.toNat_lt _
  case blockMove =>
    cases operand with
    | word destination source =>
      have destinationBound := destination.toNat_lt
      have sourceBound := source.toNat_lt
      simp only [size, Hex.capacity]
      omega
    | _ => exact value_lt _
  all_goals exact operand.value_lt

/-- At one address, operands of one size and mode differ in what they write. -/
theorem eq_of_written {mode : Mode} {address : Address} {first second : Operand}
    (sizes : first.size = second.size)
    (fixed : mode ≠ .immediate → first.size = mode.operandSize)
    (same : first.written mode address = second.written mode address) : first = second := by
  cases mode
  case accumulator =>
    have size : first.size = 0 := fixed (by decide)
    have firstBound : first.value < 1 := value_lt_of_size size
    have secondBound : second.value < 1 := value_lt_of_size (sizes ▸ size)
    exact eq_of_value sizes (by omega)
  case relative =>
    have size : first.size = 1 := fixed (by decide)
    have firstBound : first.value < 0x100 := value_lt_of_size size
    have secondBound : second.value < 0x100 := value_lt_of_size (sizes ▸ size)
    simp only [written, ← sizes] at same
    exact eq_of_value sizes (Address.eq_of_advance_bmod (by decide) firstBound secondBound same)
  case relativeLong =>
    have size : first.size = 2 := fixed (by decide)
    have firstBound : first.value < 0x10000 := value_lt_of_size size
    have secondBound : second.value < 0x10000 := value_lt_of_size (sizes ▸ size)
    simp only [written, ← sizes] at same
    exact eq_of_value sizes (Address.eq_of_advance_bmod (by decide) firstBound secondBound same)
  case blockMove =>
    have size : first.size = 2 := fixed (by decide)
    obtain ⟨destination, source, rfl⟩ := eq_word_of_size size
    obtain ⟨destination', source', rfl⟩ := eq_word_of_size (sizes ▸ size)
    have destinations := And.intro destination.toNat_lt destination'.toNat_lt
    refine eq_of_value sizes ?_
    simp only [written, value] at same ⊢
    omega
  all_goals exact eq_of_value sizes same

end Operand

namespace Instruction

/-- The characters behind the operation. -/
def tail (instruction : Instruction) : List Char :=
  match instruction.mode with
  | .implied => []
  | _ => ' ' :: instruction.operandText.toList

theorem toList_text (instruction : Instruction) :
    instruction.text.toList = instruction.mnemonic.text.toList ++ instruction.tail := by
  unfold text tail
  cases instruction.mode <;> simp

/-- Texts that are equal name the same operation, and the same follows it. -/
theorem mnemonic_and_tail_of_text {first second : Instruction} (same : first.text = second.text) :
    first.mnemonic = second.mnemonic ∧ first.tail = second.tail := by
  have characters := congrArg String.toList same
  rw [toList_text, toList_text] at characters
  obtain ⟨operation, behind⟩ := List.append_inj characters (by simp)
  exact ⟨Mnemonic.text_injective (String.toList_injective operation), behind⟩

/-- What decoding guarantees of an operand: its size, unless that follows a register, and the
target of a branch. -/
structure Regular (instruction : Instruction) : Prop where
  size : instruction.mode ≠ .immediate →
    instruction.operand.size = instruction.mode.operandSize
  relative : instruction.mode = .relative →
    instruction.resolvedAddress = some (instruction.address.advance
      (1 + instruction.operand.size + Int.bmod instruction.operand.value 0x100))
  relativeLong : instruction.mode = .relativeLong →
    instruction.resolvedAddress = some (instruction.address.advance
      (1 + instruction.operand.size + Int.bmod instruction.operand.value 0x10000))

theorem Regular.of_decode {layout : Layout} {image : Image} {offset : Nat}
    {processor : Processor} {instruction : Instruction}
    (decoded : decode layout image offset processor = .ok instruction) :
    instruction.Regular := by
  obtain ⟨-, -, operandAt, -, resolves⟩ := decode_eq_ok_iff.mp decoded
  have target (span : Nat) : Address.ofNat (relativeTarget instruction.address
      instruction.operand span) = instruction.address.advance
        (1 + instruction.operand.size + Int.bmod instruction.operand.value span) :=
    Address.ofNat_toNat _
  constructor
  · intro fixed
    rw [Operand.size_of_read? operandAt, operandSizeUnder, Opcode.operandSizeWith]
    exact if_neg fixed
  · intro relative
    rw [resolvedAddress, resolves, resolve?, show instruction.opcode.mode = _ from relative]
    exact congrArg some (target _)
  · intro relative
    rw [resolvedAddress, resolves, resolve?, show instruction.opcode.mode = _ from relative]
    exact congrArg some (target _)

/-- What follows the operation splits into the digits of the number written and the marks. -/
theorem partition_tail {instruction : Instruction} (regular : instruction.Regular) :
    instruction.tail.partition Hex.isUpperDigit =
      (Hex.fixedDigits (instruction.mode.digitCount instruction.operand.size)
        (instruction.operand.written instruction.mode instruction.address),
        instruction.mode.marks) := by
  rw [List.partition_eq_filter_filter]
  unfold tail operandText Operand.written
  cases operandMode : instruction.mode
  case relative =>
    simp +decide [regular.relative operandMode, Mode.marks, Mode.digitCount]
  case relativeLong =>
    simp +decide [regular.relativeLong operandMode, Mode.marks, Mode.digitCount]
  case blockMove =>
    have size := regular.size (by rw [operandMode]; decide)
    rw [operandMode] at size
    obtain ⟨destination, source, operand⟩ := Operand.eq_word_of_size size
    have move : instruction.blockMove? = some ⟨source, destination⟩ := by
      rw [blockMove?, operandMode, operand]
    simp +decide [operand, move, Mode.marks, Mode.digitCount, Operand.size,
      Hex.fixedDigits_append_fixedDigits]
  case implied =>
    have size := regular.size (by rw [operandMode]; decide)
    rw [operandMode] at size
    simp [size, Mode.marks, Mode.digitCount, Mode.operandSize, Hex.fixedDigits]
  case accumulator =>
    simp +decide [Mode.marks, Mode.digitCount]
  -- The other modes put their marks around the digits of the operand itself.
  all_goals
    simp +decide [operandDigits, Mode.marks, Mode.digitCount]

/-- Texts that are equal have the same marks and write the same number with as many digits. -/
theorem written_of_text {first second : Instruction} (firstRegular : first.Regular)
    (secondRegular : second.Regular) (same : first.text = second.text) :
    first.mode.marks = second.mode.marks ∧
      first.mode.digitCount first.operand.size = second.mode.digitCount second.operand.size ∧
      first.operand.written first.mode first.address =
        second.operand.written second.mode second.address := by
  have parts := partition_tail firstRegular
  rw [(mnemonic_and_tail_of_text same).2, partition_tail secondRegular, Prod.mk.injEq] at parts
  obtain ⟨digits, marks⟩ := parts
  have counts := congrArg List.length digits
  rw [Hex.length_fixedDigits, Hex.length_fixedDigits] at counts
  refine ⟨marks.symm, counts.symm, Hex.eq_of_fixedDigits_eq (first.operand.written_lt _ _) ?_ ?_⟩
  · rw [← counts]
    exact second.operand.written_lt _ _
  · rw [← digits, counts]

end Instruction

/-! ### Opcodes -/

/-- How the operands of a mode look: the number of digits with narrow registers, and the
marks. -/
def Mode.look (mode : Mode) : Nat × List Char :=
  (mode.digitCount mode.operandSize, mode.marks)

/-- The opcode bytes whose operands look like those of a mode. -/
def Mode.codes (mode : Mode) : List UInt8 :=
  ((List.range 256).map UInt8.ofNat).filter fun code => (Opcode.ofByte code).mode.look = mode.look

theorem Mode.mem_codes {mode : Mode} {code : UInt8}
    (alike : (Opcode.ofByte code).mode.look = mode.look) : code ∈ mode.codes := by
  refine List.mem_filter.mpr ⟨List.mem_map.mpr ⟨code.toNat, ?_, UInt8.ofNat_toNat⟩, ?_⟩
  · exact List.mem_range.mpr code.toNat_lt
  · exact decide_eq_true alike

/-- No two opcodes whose operands look alike have the same operation. -/
theorem Mode.nodup_mnemonics (mode : Mode) :
    (mode.codes.map fun code => (Opcode.ofByte code).mnemonic).Nodup := by
  have table : ∀ index : Fin 24,
      ((ofNat index).codes.map fun code => (Opcode.ofByte code).mnemonic).Nodup := by
    decide +kernel
  have bound : mode.ctorIdx < 24 := by cases mode <;> decide
  rw [← ofNat_ctorIdx mode]
  exact table ⟨mode.ctorIdx, bound⟩

theorem Opcode.eq_of_look {first second : UInt8}
    (operation : (ofByte first).mnemonic = (ofByte second).mnemonic)
    (looks : (ofByte first).mode.look = (ofByte second).mode.look) : first = second :=
  List.inj_on_of_nodup_map (Mode.nodup_mnemonics _) (Mode.mem_codes looks)
    (Mode.mem_codes rfl) operation

/-! ### Instructions from their texts -/

namespace Instruction

variable {first second : Instruction} (firstRegular : first.Regular)
  (secondRegular : second.Regular) (sameText : first.text = second.text)
include firstRegular secondRegular sameText

theorem code_eq_of_text : first.code = second.code := by
  obtain ⟨marks, counts, -⟩ := written_of_text firstRegular secondRegular sameText
  refine Opcode.eq_of_look (mnemonic_and_tail_of_text sameText).1 (Prod.ext ?_ marks)
  change first.mode.digitCount first.mode.operandSize =
    second.mode.digitCount second.mode.operandSize
  -- An immediate operand may be wide, but only another immediate operand has its marks.
  by_cases immediate : first.mode = .immediate
  · rw [immediate] at marks ⊢
    rw [Mode.eq_immediate_of_marks marks.symm]
  · have other : second.mode ≠ .immediate := fun equal =>
      immediate (Mode.eq_immediate_of_marks (equal ▸ marks))
    rw [← firstRegular.size immediate, ← secondRegular.size other]
    exact counts

theorem operand_eq_of_text (sameAddress : first.address = second.address) :
    first.operand = second.operand := by
  obtain ⟨-, counts, written⟩ := written_of_text firstRegular secondRegular sameText
  have mode : first.mode = second.mode := by
    rw [Instruction.mode, Instruction.mode, opcode, opcode,
      code_eq_of_text firstRegular secondRegular sameText]
  rw [← mode] at counts
  rw [← mode, ← sameAddress] at written
  refine Operand.eq_of_written ?_ firstRegular.size written
  by_cases immediate : first.mode = .immediate
  · rw [immediate] at counts
    exact Nat.eq_of_mul_eq_mul_left (by decide : 0 < 2) counts
  · rw [firstRegular.size immediate, secondRegular.size (mode ▸ immediate), mode]

end Instruction

/-- The assembler text is lossless: whatever images, offsets, layouts and states two
instructions are decoded from, if they stand at one address and read the same, they are made of
the same bytes. -/
theorem Instruction.machineCode_of_text {firstLayout secondLayout : Layout}
    {firstImage secondImage : Image} {firstOffset secondOffset : Nat}
    {firstProcessor secondProcessor : Processor} {first second : Instruction}
    (decodedFirst : decode firstLayout firstImage firstOffset firstProcessor = .ok first)
    (decodedSecond : decode secondLayout secondImage secondOffset secondProcessor = .ok second)
    (sameAddress : first.address = second.address) (sameText : first.text = second.text) :
    first.bytes = second.bytes ∧ first.code = second.code ∧ first.mnemonic = second.mnemonic ∧
      first.mode = second.mode ∧ first.size = second.size ∧ first.operand = second.operand := by
  have firstRegular := Regular.of_decode decodedFirst
  have secondRegular := Regular.of_decode decodedSecond
  have code := code_eq_of_text firstRegular secondRegular sameText
  have operand := operand_eq_of_text firstRegular secondRegular sameText sameAddress
  have opcode : first.opcode = second.opcode := congrArg Opcode.ofByte code
  refine ⟨?_, code, congrArg Opcode.mnemonic opcode, congrArg Opcode.mode opcode, ?_, operand⟩
  · rw [bytes, bytes, code, operand]
  · rw [size, size, operand]

/-- `LDA $1234` at `$00:8000`, with the address that it is known to refer to. -/
def loadOf (resolved : Option Nat) : Instruction :=
  ⟨0, ⟨0x00, 0x8000⟩, 0xAD, .word 0x34 0x12, resolved⟩

/-- A load is found in two images, once with the data bank known and once without. What it
refers to differs, its text and its bytes do not. -/
theorem Instruction.machineCode_of_text_load :
    decode .loRom ⟨#[0xAD, 0x34, 0x12]⟩ 0 { dataBank := some 0x7E } =
        .ok (loadOf (some 0x7E1234)) ∧
      decode .loRom ⟨#[0xAD, 0x34, 0x12, 0x60]⟩ 0 { wideAccumulator := true } =
        .ok (loadOf none) ∧
      (loadOf (some 0x7E1234)).text = "LDA $1234" ∧ (loadOf none).text = "LDA $1234" ∧
      (loadOf (some 0x7E1234)).bytes = (loadOf none).bytes := by
  have decodedKnown : decode .loRom ⟨#[0xAD, 0x34, 0x12]⟩ 0 { dataBank := some 0x7E } =
      .ok (loadOf (some 0x7E1234)) := rfl
  have decodedUnknown :
      decode .loRom ⟨#[0xAD, 0x34, 0x12, 0x60]⟩ 0 { wideAccumulator := true } =
        .ok (loadOf none) := rfl
  exact ⟨decodedKnown, decodedUnknown, by decide +kernel, by decide +kernel,
    (machineCode_of_text decodedKnown decodedUnknown rfl rfl).1⟩

/-- Without the address the text of a branch, which shows its target, does not tell the bytes. -/
example : (Instruction.mk 0 ⟨0x00, 0x8000⟩ 0x80 (.byte 3) (some 0x8005)).text =
    (Instruction.mk 1 ⟨0x00, 0x8001⟩ 0x80 (.byte 2) (some 0x8005)).text := by
  decide +kernel

end Cartridge
