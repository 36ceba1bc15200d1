/-
This file proves that decoding is exact. Whether it fails, and how, is told by three lengths: that
of the image, that of the part of it which the layout shows, and that of the instruction, which
its first byte and the widths of the registers decide. What it gives otherwise is a copy of the
bytes of the image: the opcode byte, and an operand whose value has just the bytes that follow.
No other byte of the image matters.
-/

import Cartridge.Proofs.Assembler
import Cartridge.Proofs.Listing
import Cartridge.Proofs.Routine

namespace Cartridge

/-! ### The bytes of an operand -/

/-- The low bytes of a number, the lowest first. -/
def littleEndian : (count : Nat) → (value : Nat) → List UInt8
  | 0, _ => []
  | count + 1, value => UInt8.ofNat value :: littleEndian count (value / 0x100)

namespace Operand

theorem littleEndian_value (operand : Operand) :
    littleEndian operand.size operand.value = operand.bytes := by
  have byte (low : UInt8) (rest : Nat) : UInt8.ofNat (low.toNat + 0x100 * rest) = low := by
    apply UInt8.toNat_inj.mp
    rw [UInt8.toNat_ofNat']
    have := low.toNat_lt
    omega
  have shift (low : UInt8) (rest : Nat) : (low.toNat + 0x100 * rest) / 0x100 = rest := by
    have := low.toNat_lt
    omega
  cases operand with
  | absent => rfl
  | byte low => simp [littleEndian, size, value, bytes]
  | word low high => simp [littleEndian, size, value, bytes, byte, shift]
  | long low high bank =>
    have split : (Operand.long low high bank).value =
        low.toNat + 0x100 * (high.toNat + 0x100 * bank.toNat) := by
      simp only [value]
      omega
    rw [split]
    simp [littleEndian, size, bytes, byte, shift]

theorem value?_eq_none_iff (operand : Operand) : operand.value? = none ↔ operand.size = 0 := by
  cases operand <;> simp [value?, size]

/-- The bytes of a value are those of its operand, also where there is neither. -/
theorem littleEndian_value? (operand : Operand) :
    littleEndian operand.size (operand.value?.getD 0) = operand.bytes := by
  rw [← littleEndian_value]
  cases operand <;> rfl

/-- An operand can be read unless the image ends before it does. -/
theorem read?_eq_none_iff {image : Image} {offset size : Nat} (short : size ≤ 3)
    (inside : offset ≤ image.size) :
    read? image offset size = none ↔ image.size < offset + size := by
  constructor
  · intro missing
    refine Nat.lt_of_not_le fun room => ?_
    obtain ⟨operand, read⟩ := exists_read? short room
    simp [missing] at read
  · intro ends
    refine Option.eq_none_iff_forall_ne_some.mpr fun operand read => ?_
    have filled := size_of_read? read
    have behind : image.byte? (offset + (size - 1)) = none :=
      (image.byte?_eq_none_iff _).mpr (by omega)
    rw [byte?_of_read? read (by omega), List.getElem?_eq_none_iff, length_bytes] at behind
    omega

end Operand

namespace Instruction

/-! ### The outcome of a decoding -/

/-- The number of bytes of the instruction at an offset: one for the opcode byte and as many as
its operand has under the widths of a state. Where the image has ended, the opcode byte alone. -/
def extent (image : Image) (offset : Nat) (processor : Processor) : Nat :=
  match image.byte? offset with
  | some code => 1 + operandSizeUnder processor code
  | none => 1

variable (layout : Layout) (image : Image) (offset : Nat) (processor : Processor)

theorem one_le_extent : 1 ≤ extent image offset processor := by
  rw [extent]
  split <;> omega

/-- Decoding has four outcomes, and lengths tell which it is. -/
theorem decode_cases :
    (image.size ≤ offset ∧
      decode layout image offset processor = .error (.truncated offset 1 0)) ∨
    (offset < image.size ∧ layout.reach ≤ offset ∧
      decode layout image offset processor = .error (.unmapped offset)) ∨
    (offset < image.size ∧ offset < layout.reach ∧
      image.size < offset + extent image offset processor ∧
      decode layout image offset processor =
        .error (.truncated offset (extent image offset processor) (image.size - offset))) ∨
    (offset < image.size ∧ offset < layout.reach ∧
      offset + extent image offset processor ≤ image.size ∧
      ∃ instruction, decode layout image offset processor = .ok instruction) := by
  rw [decode, extent]
  cases codeAt : image.byte? offset with
  | none =>
    have outside := (image.byte?_eq_none_iff offset).mp codeAt
    exact Or.inl ⟨outside, by rw [Nat.sub_eq_zero_of_le outside]⟩
  | some code =>
    have inside : offset < image.size := by
      rw [← image.byte?_isSome_iff, codeAt]
      rfl
    have shown := layout.address?_isSome_iff offset
    have short : operandSizeUnder processor code ≤ 3 := Opcode.operandSizeWith_le _ _ _
    have readable := Operand.read?_eq_none_iff short (Nat.succ_le_of_lt inside)
    refine Or.inr ?_
    simp only
    cases addressAt : layout.address? offset with
    | none =>
      rw [addressAt] at shown
      refine Or.inl ⟨inside, ?_, rfl⟩
      simpa using shown
    | some address =>
      rw [addressAt] at shown
      have reached := shown.mp rfl
      refine Or.inr ?_
      cases read : Operand.read? image (offset + 1) (operandSizeUnder processor code) with
      | none =>
        have ends := readable.mp read
        exact Or.inl ⟨inside, reached, by omega, rfl⟩
      | some operand =>
        have room : ¬ image.size < offset + 1 + operandSizeUnder processor code := by
          rw [← readable, read]
          exact Option.some_ne_none operand
        exact Or.inr ⟨inside, reached, by omega, _, rfl⟩

theorem size_of_decode {layout : Layout} {image : Image} {offset : Nat} {processor : Processor}
    {instruction : Instruction}
    (decoded : decode layout image offset processor = .ok instruction) :
    instruction.size = extent image offset processor := by
  obtain ⟨codeAt, -, operandAt, -, -⟩ := decode_eq_ok_iff.mp decoded
  rw [extent, codeAt, size, Operand.size_of_read? operandAt]

/-- Decoding looks at no byte but those of the instruction. -/
theorem decode_eq_of_agreeOn {layout : Layout} {image other : Image} {offset : Nat}
    {processor : Processor}
    (agree : image.AgreeOn ⟨offset, offset + extent image offset processor⟩ other) :
    decode layout image offset processor = decode layout other offset processor := by
  have positive := one_le_extent image offset processor
  have first : image.byte? offset = other.byte? offset :=
    agree.bytes offset ((Span.contains_iff _ _).mpr (by simp only; omega))
  rw [decode, decode, ← first, agree.size]
  cases codeAt : image.byte? offset with
  | none => rfl
  | some code =>
    have behind : Operand.read? image (offset + 1) (operandSizeUnder processor code) =
        Operand.read? other (offset + 1) (operandSizeUnder processor code) := by
      refine Operand.read?_congr fun index within => agree.bytes _ ?_
      rw [Span.contains_iff, extent, codeAt]
      simp only
      omega
    simp only [behind]

/-! ### Copies of the image -/

/-- An instruction copies the image at an offset. -/
structure Copies (layout : Layout) (image : Image) (offset : Nat) (instruction : Instruction) :
    Prop where
  place : instruction.offset = offset
  address : layout.address? offset = some instruction.address
  bounds : 1 ≤ instruction.size ∧ instruction.size ≤ 4
  operand : instruction.operand.value? = none ↔ instruction.size = 1
  /-- The opcode byte and the little-endian bytes of the operand are those of the image. -/
  bytes : instruction.code ::
      littleEndian (instruction.size - 1) (instruction.operand.value?.getD 0) =
    (image.slice offset (offset + instruction.size)).toList
  /-- Of the banks of a block move, the destination comes first. -/
  moves : instruction.mode = .blockMove → ∃ destination source,
    image.byte? (offset + 1) = some destination ∧ image.byte? (offset + 2) = some source ∧
      instruction.blockMove? = some ⟨source, destination⟩

theorem copies_of_decode {layout : Layout} {image : Image} {offset : Nat} {processor : Processor}
    {instruction : Instruction}
    (decoded : decode layout image offset processor = .ok instruction) :
    instruction.Copies layout image offset := by
  have here := offset_of_decode decoded
  refine ⟨here, (decode_eq_ok_iff.mp decoded).2.1, ⟨instruction.size_pos, instruction.size_le⟩,
    ?_, ?_, fun mode => ?_⟩
  · rw [instruction.operand.value?_eq_none_iff, size]
    omega
  · have copied := slice_of_decode decoded
    rw [stop, here] at copied
    rw [copied, size, Nat.add_sub_cancel_left, Operand.littleEndian_value?]
    rfl
  · have fixed := (Regular.of_decode decoded).size (mode ▸ by decide)
    obtain ⟨low, high, word⟩ := Operand.eq_word_of_size (fixed.trans (mode ▸ rfl))
    have whole : instruction.size = 3 := by rw [size, word]; rfl
    have copied (index : Nat) (within : index < 3) := byte?_of_decode decoded (whole ▸ within)
    refine ⟨low, high, ?_, ?_, ?_⟩
    · rw [copied 1 (by decide), bytes, word]
      rfl
    · rw [copied 2 (by decide), bytes, word]
      rfl
    · rw [blockMove?, mode, word]

/-! ### Exactness -/

/-- What decoding at an offset gives, and what it depends on. -/
structure Exact (layout : Layout) (image : Image) (offset : Nat) (processor : Processor) : Prop
    where
  exhausted : decode layout image offset processor = .error (.truncated offset 1 0) ↔
    image.size ≤ offset
  unmapped : offset < image.size →
    (decode layout image offset processor = .error (.unmapped offset) ↔ layout.reach ≤ offset)
  truncated : offset < image.size → offset < layout.reach →
    (decode layout image offset processor =
        .error (.truncated offset (extent image offset processor) (image.size - offset)) ↔
      image.size < offset + extent image offset processor)
  whole : offset < image.size → offset < layout.reach →
    offset + extent image offset processor ≤ image.size →
    ∃ instruction, decode layout image offset processor = .ok instruction ∧
      instruction.size = extent image offset processor ∧
      instruction.Copies layout image offset
  /-- The bytes of the instruction and the length of the image decide the outcome. -/
  confined : ∀ other,
    image.AgreeOn ⟨offset, offset + extent image offset processor⟩ other →
      decode layout other offset processor = decode layout image offset processor

/-- Decoding is exact: three lengths tell its outcome, and an instruction copies the image. -/
theorem decode_exact : Exact layout image offset processor where
  exhausted := by
    rcases decode_cases layout image offset processor with
      ⟨outside, fails⟩ | ⟨inside, -, fails⟩ | ⟨inside, -, -, fails⟩ | ⟨inside, -, -, _, decoded⟩
    · exact iff_of_true fails outside
    · exact iff_of_false (by simp [fails]) (Nat.not_le.mpr inside)
    · have present : image.size - offset ≠ 0 := Nat.sub_ne_zero_of_lt inside
      exact iff_of_false (by simp [fails, present]) (Nat.not_le.mpr inside)
    · exact iff_of_false (by simp [decoded]) (Nat.not_le.mpr inside)
  unmapped inside := by
    rcases decode_cases layout image offset processor with
      ⟨outside, -⟩ | ⟨-, beyond, fails⟩ | ⟨-, reached, -, fails⟩ | ⟨-, reached, -, _, decoded⟩
    · exact absurd inside (Nat.not_lt.mpr outside)
    · exact iff_of_true fails beyond
    · exact iff_of_false (by simp [fails]) (Nat.not_le.mpr reached)
    · exact iff_of_false (by simp [decoded]) (Nat.not_le.mpr reached)
  truncated inside reached := by
    rcases decode_cases layout image offset processor with
      ⟨outside, -⟩ | ⟨-, beyond, -⟩ | ⟨-, -, ends, fails⟩ | ⟨-, -, room, _, decoded⟩
    · exact absurd inside (Nat.not_lt.mpr outside)
    · exact absurd reached (Nat.not_lt.mpr beyond)
    · exact iff_of_true fails ends
    · exact iff_of_false (by simp [decoded]) (Nat.not_lt.mpr room)
  whole inside reached room := by
    rcases decode_cases layout image offset processor with
      ⟨outside, -⟩ | ⟨-, beyond, -⟩ | ⟨-, -, ends, -⟩ | ⟨-, -, -, instruction, decoded⟩
    · exact absurd inside (Nat.not_lt.mpr outside)
    · exact absurd reached (Nat.not_lt.mpr beyond)
    · exact absurd ends (Nat.not_lt.mpr room)
    · exact ⟨instruction, decoded, size_of_decode decoded, copies_of_decode decoded⟩
  confined other agree := (decode_eq_of_agreeOn agree).symm

end Instruction

end Cartridge
