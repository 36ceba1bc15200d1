/-
This file proves that the bank table says what the maps between offsets and addresses do. The
banks have the bank windows of the mapped part of the image as their spans, so they partition it,
and each offset of a bank has the canonical address that the bank gives it. The bus bank of a
mirror differs from that of the bank in its upper bits alone, and its addresses lead back to the
same offsets; the extended layout mirrors upper halves only.
-/

import Cartridge.Proofs.Mirrors
import Cartridge.Proofs.Partition
import Mathlib.Data.List.Basic

namespace Cartridge

/-- The offsets of a bank. -/
def Bank.span (bank : Bank) : Span :=
  ⟨bank.offset, bank.offset + bank.size⟩

namespace Wiring

variable {wiring : Wiring} {index offset : Nat} {bank : Bank}

/-! ### The banks by their indices -/

/-- A bank is the one with a given index. -/
structure Shows (wiring : Wiring) (index : Nat) (bank : Bank) : Prop where
  inside : bank.offset < wiring.mappedSize
  span : bank.span = Span.piece ⟨0, wiring.mappedSize⟩ wiring.layout.bankSize index
  number : bank.number.toNat = wiring.layout.canonicalBank index
  first : bank.first.toNat = wiring.layout.base
  last : bank.last.toNat = wiring.layout.base + (wiring.layout.bankSize - 1)
  mirror : bank.mirror = mirrorBank wiring.layout bank.number

/-- The end of a bank in the mapped part is the end of one in the image, since a layout shows
bank windows whole. -/
theorem stop_eq_min_mappedSize (inside : index * wiring.layout.bankSize < wiring.mappedSize) :
    index * wiring.layout.bankSize + min wiring.layout.bankSize
        (wiring.length - index * wiring.layout.bankSize) =
      min wiring.mappedSize ((index + 1) * wiring.layout.bankSize) := by
  rw [mappedSize] at inside ⊢
  cases layout : wiring.layout <;> rw [layout] at inside <;>
    simp only [Layout.bankSize, Layout.reach, Layout.plainReach] at inside ⊢ <;> omega

theorem exists_bank (wiring : Wiring) (index : Nat)
    (inside : index * wiring.layout.bankSize < wiring.mappedSize) :
    ∃ bank, wiring.bank? index = some bank ∧ wiring.Shows index bank := by
  have reached := Nat.lt_of_lt_of_le inside (Nat.min_le_right _ _)
  obtain ⟨address, placed⟩ := Layout.exists_address? reached
  have shown : wiring.address? (index * wiring.layout.bankSize) = some address := placed
  obtain ⟨-, number, low⟩ := Layout.address?_eq_some_iff.mp placed
  rw [Nat.mul_div_cancel _ wiring.layout.bankSize_pos] at number
  rw [Nat.mul_mod_left, Nat.add_zero] at low
  have window := wiring.layout.base_add_bankSize_le
  have positive := wiring.layout.bankSize_pos
  rw [bank?, shown, Option.map_some]
  refine ⟨_, rfl, inside, ?_, number, low, ?_, rfl⟩
  · rw [Bank.span, stop_eq_min_mappedSize inside, Span.piece, Nat.max_eq_right (Nat.zero_le _)]
  · rw [UInt16.toNat_ofNat_of_lt' (show _ < 2 ^ 16 by omega), low]

theorem exists_index_of_mem (member : bank ∈ wiring.banks) :
    ∃ index, wiring.Shows index bank := by
  obtain ⟨index, within, found⟩ := List.mem_filterMap.mp member
  have before := (Nat.lt_div_iff_mul_lt wiring.layout.bankSize_pos).mp (List.mem_range.mp within)
  obtain ⟨other, same, shows⟩ := exists_bank wiring index (by omega)
  obtain rfl := Option.some.inj (found.symm.trans same)
  exact ⟨index, shows⟩

/-- The banks have the bank windows of the mapped part as their spans. -/
theorem map_span_banks (wiring : Wiring) : wiring.banks.map Bank.span =
    Span.pieces ⟨0, wiring.mappedSize⟩ wiring.layout.bankSize := by
  have positive := wiring.layout.bankSize_pos
  have each : ∀ index ∈ List.range
      ((wiring.mappedSize + wiring.layout.bankSize - 1) / wiring.layout.bankSize),
      (wiring.bank? index).map Bank.span =
        some (Span.piece ⟨0, wiring.mappedSize⟩ wiring.layout.bankSize index) := by
    intro index within
    have before := (Nat.lt_div_iff_mul_lt positive).mp (List.mem_range.mp within)
    obtain ⟨bank, found, shows⟩ := exists_bank wiring index (by omega)
    rw [found, Option.map_some, shows.span]
  rw [banks, List.map_filterMap, List.filterMap_eq_map_iff_forall_eq_some.mpr each, Span.pieces]
  split
  · rename_i nonempty
    have count : wiring.mappedSize + wiring.layout.bankSize - 1 =
        wiring.mappedSize - 1 + wiring.layout.bankSize := Nat.sub_add_comm nonempty
    rw [count, Nat.add_div_right _ positive, List.range_eq_range', Nat.zero_div]
    rfl
  · rename_i empty
    have count : (wiring.mappedSize + wiring.layout.bankSize - 1) / wiring.layout.bankSize = 0 := by
      have nothing : wiring.mappedSize = 0 := Nat.eq_zero_of_not_pos empty
      exact Nat.div_eq_of_lt (by omega)
    rw [count]
    rfl

/-- The banks partition the mapped part of the image. -/
theorem partition_banks (wiring : Wiring) :
    Span.Partition 0 (wiring.banks.map Bank.span) wiring.mappedSize := by
  have partition :=
    Span.partition_pieces wiring.layout.bankSize_pos 0 wiring.mappedSize
  rwa [Nat.max_eq_right (Nat.zero_le _), ← map_span_banks] at partition

/-! ### The offsets of a bank -/

namespace Shows

variable (shows : wiring.Shows index bank)
include shows

theorem offset_eq : bank.offset = index * wiring.layout.bankSize := by
  have start := congrArg Span.start shows.span
  rwa [Span.piece, Nat.max_eq_right (Nat.zero_le _)] at start

theorem stop_eq : bank.offset + bank.size =
    min wiring.mappedSize ((index + 1) * wiring.layout.bankSize) :=
  congrArg Span.stop shows.span

theorem contains_offset : bank.span.contains bank.offset = true := by
  have inside := shows.inside
  refine (Span.contains_iff _ _).mpr ⟨Nat.le_refl _, ?_⟩
  rw [Bank.span, shows.stop_eq, Nat.lt_min]
  refine ⟨inside, ?_⟩
  rw [shows.offset_eq]
  exact Nat.mul_lt_mul_of_pos_right (Nat.lt_succ_self _) wiring.layout.bankSize_pos

variable (within : bank.span.contains offset = true)
include within

theorem lt_mappedSize : offset < wiring.mappedSize := by
  have before := ((Span.contains_iff _ _).mp within).2
  rw [Bank.span, shows.stop_eq] at before
  exact Nat.lt_of_lt_of_le before (Nat.min_le_left _ _)

theorem div_eq : offset / wiring.layout.bankSize = index := by
  obtain ⟨after, before⟩ := (Span.contains_iff _ _).mp within
  rw [Bank.span, shows.offset_eq] at after
  rw [Bank.span, shows.stop_eq] at before
  have next := Nat.lt_of_lt_of_le before (Nat.min_le_right _ _)
  exact Nat.div_eq_of_lt_le after next

/-- A bank gives its offsets their canonical addresses. -/
theorem address?_eq : ∃ address, wiring.address? offset = some address ∧
    address.bank = bank.number ∧
    address.low.toNat = bank.first.toNat + (offset - bank.offset) ∧
    address.low ≤ bank.last := by
  have reached := Nat.lt_of_lt_of_le (shows.lt_mappedSize within) (Nat.min_le_right _ _)
  obtain ⟨address, placed⟩ := Layout.exists_address? reached
  obtain ⟨-, number, low⟩ := Layout.address?_eq_some_iff.mp placed
  have index := shows.div_eq within
  have inBank := Nat.mod_lt offset wiring.layout.bankSize_pos
  have rest : offset % wiring.layout.bankSize = offset - bank.offset := by
    rw [shows.offset_eq, ← index, Nat.mod_eq_sub_div_mul]
  rw [index, ← shows.number] at number
  refine ⟨address, placed, UInt8.toNat_inj.mp number, ?_, UInt16.le_iff_toNat_le.mpr ?_⟩
  · rw [low, shows.first, rest]
  · rw [low, shows.last]
    omega

theorem bankEnd_eq : wiring.bankEnd offset = bank.offset + bank.size := by
  have inside := shows.inside
  rw [shows.offset_eq] at inside
  have whole := stop_eq_min_mappedSize inside
  rw [bankEnd, shows.div_eq within, shows.stop_eq, ← whole]
  have mapped : wiring.mappedSize ≤ wiring.length := Nat.min_le_left _ _
  rw [Nat.add_mul]
  omega

end Shows

/-! ### Mirrors -/

theorem toNat_or_half (number : UInt8) (lower : number.toNat < 0x80) :
    (number ||| 0x80).toNat = number.toNat + 0x80 := by
  rw [UInt8.toNat_or, Nat.or_comm, Nat.add_comm]
  exact (Nat.two_pow_add_eq_or_of_lt (i := 7) lower 1).symm

theorem toNat_or_threeQuarters (number : UInt8) (lower : number.toNat < 0x40) :
    (number ||| 0xC0).toNat = number.toNat + 0xC0 := by
  rw [UInt8.toNat_or, Nat.or_comm, Nat.add_comm]
  exact (Nat.two_pow_add_eq_or_of_lt (i := 6) lower 3).symm

theorem toNat_sub_quarter (number : UInt8) (upper : 0x40 ≤ number.toNat) :
    (number - 0x40).toNat = number.toNat - 0x40 :=
  UInt8.toNat_sub_of_le _ _ (UInt8.le_iff_toNat_le.mpr upper)

/-- A mirror shows the bytes of its bank at the same places, the extended layout in upper halves
only. -/
theorem offset?_of_mirrorBank {layout : Layout} {address : Address} {mirror : UInt8}
    (placed : layout.address? offset = some address)
    (mirrored : mirrorBank layout address.bank = some mirror)
    (upper : layout = .exHiRom → 0x8000 ≤ address.low.toNat) :
    layout.offset? ⟨mirror, address.low⟩ = some offset := by
  obtain ⟨reached, number, low⟩ := Layout.address?_eq_some_iff.mp placed
  cases layout with
  | loRom =>
    rw [mirrorBank, Option.ite_none_right_eq_some, Option.some.injEq] at mirrored
    obtain ⟨lower, rfl⟩ := mirrored
    rw [UInt8.lt_iff_toNat_lt] at lower
    have bank := toNat_or_half _ lower
    rw [Layout.canonicalBank] at number
    split at number
    all_goals
      rename_i index
      simp only [UInt8.reduceToNat, Layout.base, Layout.bankSize] at lower number low index
      simp only [Layout.offset?, bank]
      rw [if_neg (by omega), if_neg (by omega), Option.some.injEq]
      omega
  | hiRom =>
    rw [mirrorBank, Option.some.injEq] at mirrored
    simp only [Layout.reach, Layout.plainReach, Layout.canonicalBank, Layout.base,
      Layout.bankSize] at reached number low
    have bank := toNat_or_threeQuarters address.bank (by omega)
    simp only [Layout.offset?, ← mirrored, bank]
    rw [if_neg (by omega), Option.some.injEq]
    omega
  | exHiRom =>
    have high := upper rfl
    rw [mirrorBank, Option.some.injEq] at mirrored
    rw [Layout.canonicalBank] at number
    split at number
    all_goals
      rename_i index
      simp only [Layout.reach, Layout.base, Layout.bankSize] at reached number low index
      have bank := toNat_sub_quarter address.bank (by omega)
      simp only [Layout.offset?, Layout.plainReach, ← mirrored, bank]
      rw [if_neg (by omega), if_neg (by omega)]
    · rw [if_pos (by omega), if_neg (by omega), Option.some.injEq]
      omega
    · rw [if_neg (by omega), if_neg (by omega), if_pos (by omega), Option.some.injEq]
      omega

/-! ### The table -/

/-- A list of banks says what the maps between the offsets of an image and the bus do. -/
structure Tabulates (wiring : Wiring) (banks : List Bank) : Prop where
  ascending : banks.Pairwise fun first second => first.offset < second.offset
  /-- The spans of the banks follow one another, none of them is empty, and together they are the
  mapped part of the image. -/
  partition : Span.Partition 0 (banks.map Bank.span) wiring.mappedSize
  numbers : (banks.map Bank.number).Nodup
  address? : ∀ bank ∈ banks, ∀ offset, bank.span.contains offset = true →
    ∃ address, wiring.address? offset = some address ∧ address.bank = bank.number ∧
      address.low.toNat = bank.first.toNat + (offset - bank.offset) ∧ address.low ≤ bank.last
  bankEnd : ∀ bank ∈ banks, ∀ offset, bank.span.contains offset = true →
    wiring.bankEnd offset = bank.offset + bank.size
  mirror : ∀ bank ∈ banks, ∀ mirror, bank.mirror = some mirror →
    ∀ offset, bank.span.contains offset = true →
      ∀ address, wiring.address? offset = some address →
        (wiring.layout = .exHiRom → 0x8000 ≤ address.low.toNat) →
          wiring.offset? ⟨mirror, address.low⟩ = some offset

theorem pairwise_offset_banks (wiring : Wiring) :
    wiring.banks.Pairwise fun first second => first.offset < second.offset := by
  have partition := wiring.partition_banks
  have ends := List.pairwise_map.mp partition.pairwise_stop_le
  refine ends.imp_of_mem fun {first second} member _ before => ?_
  have nonempty := (partition.start_le_of_mem (List.mem_map_of_mem member)).2
  exact Nat.lt_of_lt_of_le nonempty before

/-- Banks with one number would show their first bytes at one address. -/
theorem number_ne_of_offset_lt {first second : Bank} (memberFirst : first ∈ wiring.banks)
    (memberSecond : second ∈ wiring.banks) (before : first.offset < second.offset) :
    first.number ≠ second.number := by
  intro same
  obtain ⟨_, showsFirst⟩ := exists_index_of_mem memberFirst
  obtain ⟨_, showsSecond⟩ := exists_index_of_mem memberSecond
  obtain ⟨address, placed, bank, low, -⟩ := showsFirst.address?_eq showsFirst.contains_offset
  obtain ⟨other, placedOther, bankOther, lowOther, -⟩ :=
    showsSecond.address?_eq showsSecond.contains_offset
  rw [Nat.sub_self, Nat.add_zero, showsFirst.first] at low
  rw [Nat.sub_self, Nat.add_zero, showsSecond.first, ← low] at lowOther
  have one : address = other := by
    obtain ⟨bank, low⟩ := address
    obtain ⟨bank', low'⟩ := other
    simp only at bank bankOther lowOther
    rw [bank, bankOther, same, UInt16.toNat_inj.mp lowOther]
  exact Nat.ne_of_lt before (Layout.eq_of_address?_eq placed (one ▸ placedOther))

/-- The bank table of every image is exact. -/
theorem banks_exact (wiring : Wiring) : wiring.Tabulates wiring.banks where
  ascending := wiring.pairwise_offset_banks
  partition := wiring.partition_banks
  numbers := by
    refine List.pairwise_map.mpr ?_
    exact wiring.pairwise_offset_banks.imp_of_mem fun memberFirst memberSecond before =>
      number_ne_of_offset_lt memberFirst memberSecond before
  address? bank member offset within := by
    obtain ⟨index, shows⟩ := exists_index_of_mem member
    exact shows.address?_eq within
  bankEnd bank member offset within := by
    obtain ⟨index, shows⟩ := exists_index_of_mem member
    exact shows.bankEnd_eq within
  mirror bank member mirror mirrored offset within address placed upper := by
    obtain ⟨index, shows⟩ := exists_index_of_mem member
    obtain ⟨other, same, number, -⟩ := shows.address?_eq within
    obtain rfl := Option.some.inj (placed.symm.trans same)
    rw [shows.mirror, ← number] at mirrored
    have inside := Nat.lt_of_lt_of_le (shows.lt_mappedSize within) (Nat.min_le_left _ _)
    exact offset?_eq_some_iff.mpr ⟨offset?_of_mirrorBank placed mirrored upper, inside⟩

/-- The last bank of an image may be short, and the last two of the largest one have no mirror. -/
example : (Wiring.mk .loRom 0x8001).banks.map Bank.size = [0x8000, 1] ∧
    ((Wiring.mk .loRom 0x400000).banks.drop 0x7D).map (fun bank => (bank.number, bank.mirror)) =
      [(0x7D, some 0xFD), (0xFE, none), (0xFF, none)] := by
  decide +kernel

end Wiring

end Cartridge
