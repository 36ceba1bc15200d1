/-
This file proves what the two ways to list an image from front to back give, and that they give
the same. Asked for directly, a listing is made up of the sweeps of its bank windows. Since
every window is swept anew, a multiple of the bank size divides a listing into two. An analysis
from front to back cuts its range off at both ends where the addresses end, which takes no
window away; and as the instructions of a listing ascend, its index holds just these.
-/

import Cartridge.Proofs.Analysis.References
import Cartridge.Proofs.Listing

namespace Cartridge

namespace Analysis

/-! ### The index of a listing -/

/-- An index of instructions that ascend strictly holds these, each under its own offset. -/
theorem toList_indexInstructions {instructions : List Instruction}
    (ascending : instructions.Pairwise fun earlier later => earlier.offset < later.offset) :
    (indexInstructions Std.TreeMap.empty instructions).toList =
      instructions.map fun instruction => (instruction.offset, instruction) := by
  refine eq_of_pairwise_lt Prod.fst ?_ (List.pairwise_map.mpr ascending) fun item => ?_
  · exact Std.TreeMap.ordered_keys_toList.imp Nat.compare_eq_lt.mp
  · obtain ⟨offset, instruction⟩ := item
    have nothing : (Std.TreeMap.empty : Std.TreeMap Nat Instruction)[offset]? = none := by simp
    rw [Std.TreeMap.mem_toList_iff_getElem?_eq_some, getElem?_indexInstructions, nothing,
      Option.none_or, find?_key_eq_some_iff (nodup_of_pairwise_lt ascending), List.mem_map]
    simp only [Prod.mk.injEq]
    constructor
    · rintro ⟨listed, here⟩
      exact ⟨instruction, listed, here, rfl⟩
    · rintro ⟨_, listed, here, rfl⟩
      exact ⟨listed, here⟩

/-- An analysis from front to back indexes the listing of its range. -/
theorem index_run_of_linear {options : Options} (strategy : options.strategy = .linear)
    (image : Image) :
    (run options image).index = indexInstructions Std.TreeMap.empty
        ((board options image).listing (options.range.getD ⟨0, image.size⟩) {}) ∧
      (run options image).decoded =
        ((board options image).listing (options.range.getD ⟨0, image.size⟩) {}).length := by
  have same : (board options image).listing (effectiveRange options (board options image).wiring)
      {} = (board options image).listing (options.range.getD ⟨0, image.size⟩) {} :=
    Board.listing_clamp _ _ _
  have index : (run options image).index = indexInstructions Std.TreeMap.empty
      ((run options image).routines.flatMap Routine.instructions ++ (board options image).listing
        (effectiveRange options (board options image).wiring) {}) := by
    rw [run_of_linear strategy]
    rfl
  rw [index, routines_run_of_linear strategy, List.flatMap_nil, List.nil_append, same]
  refine ⟨rfl, ?_⟩
  rw [run_of_linear strategy, ← same]
  rfl

/-! ### Listings -/

/-- A listing is made up of one sweep for each bank window of the part of its span that has
addresses. The windows partition this part, and their sweeps fill them; so the instructions
ascend and share no byte. -/
theorem disassemble_tiles (layout : Option Layout) (image : Image) (span : Span)
    (processor : Processor) :
    let board : Board := ⟨layout.getD (Detection.detect image).layout, image⟩
    let stop := min span.stop board.wiring.mappedSize
    ∃ (windows : List Span) (sweeps : List (List Instruction)),
      disassemble layout image span processor = sweeps.flatten ∧
      Span.Partition span.start windows (max span.start stop) ∧
      (∀ window ∈ windows, window.stop = min (board.wiring.bankEnd window.start) stop) ∧
      List.Forall₂ (board.Fills processor) windows sweeps ∧
      (disassemble layout image span processor).Pairwise fun earlier later =>
        earlier.offset < later.offset ∧ earlier.stop ≤ later.offset := by
  intro board stop
  refine ⟨board.windows span, (board.windows span).map fun window => board.sweep window processor,
    List.flatMap_def, board.partition_windows span, fun window => board.stop_of_mem_windows span,
    ?_, ?_⟩
  · rw [List.forall₂_map_right_iff, List.forall₂_same]
    exact fun window => board.fills_of_mem_windows span processor
  · refine (board.pairwise_listing span processor).imp fun before => ⟨?_, before⟩
    exact Nat.lt_of_lt_of_le (Instruction.offset_lt_stop _) before

/-- A multiple of the bank size divides a listing into the listings before and behind it,
wherever the addresses and the image end; and an analysis from front to back finds the listing
of its range and nothing else. -/
theorem listings_compose :
    (∀ (layout : Option Layout) (image : Image) (processor : Processor) (start middle stop : Nat),
      start ≤ middle → middle ≤ stop →
      (layout.getD (Detection.detect image).layout).bankSize ∣ middle →
      disassemble layout image ⟨start, stop⟩ processor =
        disassemble layout image ⟨start, middle⟩ processor ++
          disassemble layout image ⟨middle, stop⟩ processor) ∧
    ∀ (options : Options) (image : Image), options.strategy = .linear →
      (run options image).detection.layout =
        options.layout.getD (Detection.detect image).layout ∧
      (run options image).routines = [] ∧
      (run options image).index.toList.map Prod.snd =
        disassemble (some (run options image).detection.layout) image
          (options.range.getD ⟨0, image.size⟩) {} ∧
      (run options image).decoded = (run options image).index.size := by
  constructor
  · intro layout image processor start middle stop first second aligned
    exact Board.listing_append ⟨_, image⟩ processor aligned first second
  · intro options image strategy
    have settled : (run options image).detection.layout = (board options image).layout := by
      rw [run_of_linear strategy]
      rfl
    have ascending := ((board options image).pairwise_listing
      (options.range.getD ⟨0, image.size⟩) {}).imp
        fun before => Nat.lt_of_lt_of_le (Instruction.offset_lt_stop _) before
    obtain ⟨index, decoded⟩ := index_run_of_linear strategy image
    refine ⟨?_, routines_run_of_linear strategy image, ?_, ?_⟩
    · rw [settled, board, Profile.layout]
      cases options.layout <;> rfl
    · rw [settled, index, toList_indexInstructions ascending, List.map_map]
      exact List.map_id _
    · rw [decoded, index, ← Std.TreeMap.length_toList, toList_indexInstructions ascending,
        List.length_map]

/-- An instruction of three bytes across the end of the first bank. -/
def straddlingImage : Image :=
  ⟨Array.replicate 0x7FFE 0xEA ++ #[0xAD, 0x00, 0xEA, 0xEA]⟩

/-- Two bytes of filler, a switch to wide registers, a load with a wide operand, a return, and
an instruction that the end of the image cuts off. -/
def wideningImage : Image :=
  ⟨#[0x00, 0x00, 0xC2, 0x30, 0xA9, 0x34, 0x12, 0x60, 0xAD]⟩

/-- Options under which an image is listed from its third byte on, beyond its end. -/
def listingOptions : Options :=
  { bareOptions with strategy := .linear, range := some ⟨2, 0x9000⟩ }

theorem listings_compose_straddling :
    (0x7FFC ≤ 0x8000 ∧ 0x8000 ≤ 0x8002 ∧ Layout.loRom.bankSize ∣ 0x8000) ∧
      disassemble (some .loRom) straddlingImage ⟨0x7FFC, 0x8002⟩ {} =
        disassemble (some .loRom) straddlingImage ⟨0x7FFC, 0x8000⟩ {} ++
          disassemble (some .loRom) straddlingImage ⟨0x8000, 0x8002⟩ {} ∧
      listingOptions.strategy = .linear ∧
      ((run listingOptions wideningImage).index.toList.map Prod.snd).map Instruction.offset =
        [2, 4, 7] ∧
      (run listingOptions wideningImage).decoded =
        (run listingOptions wideningImage).index.size := by
  obtain ⟨layout, -, index, decoded⟩ := listings_compose.2 listingOptions wideningImage rfl
  refine ⟨by decide, ?_, rfl, ?_, decoded⟩
  · exact listings_compose.1 (some .loRom) straddlingImage {} 0x7FFC 0x8000 0x8002 (by decide)
      (by decide) (by decide)
  · rw [index, layout]
    decide +kernel

end Analysis

end Cartridge
