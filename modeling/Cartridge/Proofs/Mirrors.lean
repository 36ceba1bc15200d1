/-
This file proves that finding the offset of an address undoes finding the canonical address
of an offset. An address at which a layout shows a byte of an image, be it canonical or a
mirror, has the place that the byte has in its bank window, so the offset tells this place
back, and mirrors differ in their banks alone.

Two detours have to lead back too. The 32 KiB layout shows its last two banks at `$FE` and
`$FF`, since work RAM hides `$7E` and `$7F`; the extended layout shows its first half from
`$C0` on, and again in upper halves from `$80`, but the rest from `$40` and in upper halves
from `$00`.
-/

import Cartridge.Proofs.BankWindow

namespace Cartridge

namespace Layout

variable {layout : Layout} {address : Address} {offset : Nat}

/-! ### The two parts of a canonical address -/

theorem address?_eq_some_iff : layout.address? offset = some address ↔
    offset < layout.reach ∧
      address.bank.toNat = layout.canonicalBank (offset / layout.bankSize) ∧
      address.low.toNat = layout.base + offset % layout.bankSize := by
  have inBank := Nat.mod_lt offset layout.bankSize_pos
  have window := layout.base_add_bankSize_le
  have placeBound : layout.base + offset % layout.bankSize < 2 ^ 16 := by omega
  rw [address?, Option.ite_none_right_eq_some, Option.some.injEq]
  refine and_congr_right fun reached => ?_
  have bankBound : layout.canonicalBank (offset / layout.bankSize) < 2 ^ 8 :=
    canonicalBank_lt (Nat.lt_of_le_of_lt (Nat.div_mul_le_self _ _) reached)
  constructor
  · rintro rfl
    exact ⟨UInt8.toNat_ofNat_of_lt' bankBound, UInt16.toNat_ofNat_of_lt' placeBound⟩
  · obtain ⟨bank, low⟩ := address
    rintro ⟨sameBank, sameLow⟩
    rw [← sameBank, ← sameLow, UInt8.ofNat_toNat, UInt16.ofNat_toNat]

/-! ### Back to the offset -/

/-- The canonical address of an offset leads back to it. -/
theorem offset?_of_address? (placed : layout.address? offset = some address) :
    layout.offset? address = some offset := by
  obtain ⟨reached, bank, low⟩ := address?_eq_some_iff.mp placed
  cases layout with
  | loRom =>
    rw [canonicalBank] at bank
    split at bank
    all_goals
      rename_i index
      simp only [reach, plainReach, bankSize, base] at reached bank low index
      simp only [offset?]
      rw [if_neg (by omega), if_neg (by omega), Option.some.injEq]
      omega
  | hiRom =>
    simp only [reach, plainReach, canonicalBank, bankSize, base] at reached bank low
    simp only [offset?]
    rw [if_neg (by omega), Option.some.injEq]
    omega
  | exHiRom =>
    rw [canonicalBank] at bank
    split at bank
    all_goals
      rename_i index
      simp only [reach, bankSize, base] at reached bank low index
      simp only [offset?, plainReach]
      rw [if_neg (by omega)]
    · rw [if_pos (by omega), Option.some.injEq]
      omega
    · rw [if_neg (by omega), if_neg (by omega), if_pos (by omega), Option.some.injEq]
      omega

/-- Different offsets have different canonical addresses. -/
theorem eq_of_address?_eq {first second : Nat} (placedFirst : layout.address? first = some address)
    (placedSecond : layout.address? second = some address) : first = second :=
  Option.some.inj ((offset?_of_address? placedFirst).symm.trans (offset?_of_address? placedSecond))

/-! ### Mirrors -/

/-- A layout shows only bytes that it reaches, each at its place in the bank window. -/
theorem place_of_offset? (found : layout.offset? address = some offset) :
    offset < layout.reach ∧ address.low.toNat = layout.base + offset % layout.bankSize := by
  have bankBound : address.bank.toNat < 0x100 := address.bank.toNat_lt
  have lowBound : address.low.toNat < 0x10000 := address.low.toNat_lt
  unfold offset? at found
  rw [Option.ite_none_left_eq_some] at found
  obtain ⟨notWorkRam, found⟩ := found
  cases layout with
  | loRom =>
    simp only [Option.ite_none_left_eq_some, Option.some.injEq] at found
    simp only [reach, plainReach, base, bankSize]
    omega
  | hiRom =>
    simp only [Option.some.injEq] at found
    simp only [reach, plainReach, base, bankSize]
    omega
  | exHiRom =>
    simp only [plainReach] at found
    simp only [reach, base, bankSize]
    split at found
    · rw [Option.some.injEq] at found
      omega
    · split at found
      · rw [Option.ite_none_left_eq_some, Option.some.injEq] at found
        omega
      · split at found
        · rw [Option.some.injEq] at found
          omega
        · rw [Option.ite_none_right_eq_some, Option.some.injEq] at found
          omega

/-- Every address of a byte has the place of its canonical address. -/
theorem exists_canonical (found : layout.offset? address = some offset) :
    ∃ canonical, layout.address? offset = some canonical ∧ canonical.low = address.low ∧
      layout.offset? canonical = some offset := by
  obtain ⟨reached, place⟩ := place_of_offset? found
  obtain ⟨canonical, placed⟩ := exists_address? reached
  refine ⟨canonical, placed, UInt16.toNat_inj.mp ?_, offset?_of_address? placed⟩
  rw [(address?_eq_some_iff.mp placed).2.2, place]

end Layout

/-- Where an offset has an address, decoding fails only because the image ends. -/
theorem Instruction.decode_ne_unmapped {layout : Layout} {offset : Nat} {address : Address}
    (placed : layout.address? offset = some address) {image : Image} {processor : Processor} :
    decode layout image offset processor ≠ .error (.unmapped offset) := by
  rw [decode, placed]
  cases image.byte? offset with
  | none => simp
  | some code =>
    simp only
    split <;> simp

/-! ### Retraction -/

namespace Wiring

open Layout

theorem offset?_eq_some_iff {wiring : Wiring} {address : Address} {offset : Nat} :
    wiring.offset? address = some offset ↔
      wiring.layout.offset? address = some offset ∧ offset < wiring.length := by
  rw [offset?, Option.filter_eq_some_iff, decide_eq_true_eq]

/-- Finding the offset of an address is a retraction of finding the canonical address of an
offset, exactly on the part of the image that has addresses; and every address at which the
image has a byte is a mirror of the canonical one, so nothing that it leads to is unmapped. -/
theorem offset?_retraction (wiring : Wiring) :
    (∀ offset, (wiring.layout.address? offset).isSome = true ↔ offset < wiring.layout.reach) ∧
    (∀ offset, offset < wiring.mappedSize ↔
      ∃ canonical, wiring.address? offset = some canonical ∧
        wiring.offset? canonical = some offset) ∧
    ∀ address offset, wiring.offset? address = some offset →
      offset < wiring.mappedSize ∧
      (∃ canonical, wiring.address? offset = some canonical ∧ canonical.low = address.low ∧
        wiring.offset? canonical = some offset) ∧
      (∀ mirror, wiring.offset? mirror = some offset → mirror.low = address.low) ∧
      ∀ (image : Image) (processor : Processor),
        Instruction.decode wiring.layout image offset processor ≠ .error (.unmapped offset) := by
  refine ⟨address?_isSome_iff wiring.layout, fun offset => ?_, fun address offset found => ?_⟩
  · rw [mappedSize, Nat.lt_min, and_comm]
    constructor
    · rintro ⟨reached, within⟩
      obtain ⟨canonical, placed⟩ :=
        Option.isSome_iff_exists.mp ((address?_isSome_iff _ _).mpr reached)
      exact ⟨canonical, placed, offset?_eq_some_iff.mpr ⟨offset?_of_address? placed, within⟩⟩
    · rintro ⟨canonical, placed, found⟩
      exact ⟨(address?_eq_some_iff.mp placed).1, (offset?_eq_some_iff.mp found).2⟩
  · obtain ⟨shown, within⟩ := offset?_eq_some_iff.mp found
    obtain ⟨canonical, placed, low, back⟩ := exists_canonical shown
    refine ⟨Nat.lt_min.mpr ⟨within, (place_of_offset? shown).1⟩,
      ⟨canonical, placed, low, offset?_eq_some_iff.mpr ⟨back, within⟩⟩, ?_, ?_⟩
    · intro mirror mirrored
      have place := (place_of_offset? (offset?_eq_some_iff.mp mirrored).1).2
      exact UInt16.toNat_inj.mp (place.trans (place_of_offset? shown).2.symm)
    · intro image processor failed
      exact Instruction.decode_ne_unmapped placed failed

theorem offset?_retraction_upperHalf :
    (Wiring.mk .exHiRom 0x7E0000).offset? ⟨0x3D, 0xFFFF⟩ = some 0x7DFFFF ∧
    (Wiring.mk .exHiRom 0x7E0000).address? 0x7DFFFF = some ⟨0x7D, 0xFFFF⟩ ∧
    ∃ canonical, (Wiring.mk .exHiRom 0x7E0000).address? 0x7DFFFF = some canonical ∧
      canonical.low = 0xFFFF ∧
      (Wiring.mk .exHiRom 0x7E0000).offset? canonical = some 0x7DFFFF := by
  have found : (Wiring.mk .exHiRom 0x7E0000).offset? ⟨0x3D, 0xFFFF⟩ = some 0x7DFFFF := by decide
  refine ⟨found, by decide, ?_⟩
  exact ((offset?_retraction ⟨.exHiRom, 0x7E0000⟩).2.2 _ _ found).2.1

end Wiring

end Cartridge
