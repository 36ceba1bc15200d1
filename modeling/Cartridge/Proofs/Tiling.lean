/-
This file proves that placing instructions keeps them apart. A tiling is orderly if every
instruction stands under its own offset and no two of them share a byte. Looking at the
instruction that begins nearest before an offset finds every one that reaches beyond it,
because those that begin still earlier end where the nearest one begins; and since no
instruction is longer than four bytes, looking at three offsets would do as well. So placing
keeps a tiling orderly and refuses an instruction only if it really overlaps one that is
there. In ascending order the instructions of an orderly tiling follow one another without
overlap.
-/

import Cartridge.Proofs.Nearest
import Cartridge.Tiling

namespace Cartridge.Tiling

/-- Every instruction stands under its own offset, and no two share a byte. -/
structure Orderly (tiling : Tiling) : Prop where
  keyed : ∀ {offset : Nat} {instruction : Instruction},
    tiling[offset]? = some instruction → instruction.offset = offset
  apart : ∀ {first second : Nat} {earlier later : Instruction},
    tiling[first]? = some earlier → tiling[second]? = some later → first < second →
      earlier.stop ≤ second

theorem orderly_empty : Orderly (Std.TreeMap.empty : Tiling) where
  keyed look := by simp at look
  apart look := by simp at look

/-- Two instructions share a byte. -/
def Clash (first second : Instruction) : Prop :=
  first.offset < second.stop ∧ second.offset < first.stop

/-! ### The first instruction at an offset -/

/-- A map to which something is added for each instruction in turn, but only at offsets at which
it has nothing, keeps what it had and else shows the first instruction at an offset. -/
theorem getElem?_foldl_insertIfNew {α : Type} (value : Instruction → α)
    (map : Std.TreeMap Nat α) (instructions : List Instruction) (offset : Nat) :
    (instructions.foldl (fun map instruction =>
      map.insertIfNew instruction.offset (value instruction)) map)[offset]? =
      map[offset]?.or
        ((instructions.find? fun instruction => instruction.offset == offset).map value) := by
  induction instructions generalizing map with
  | nil => simp
  | cons first rest inductionHypothesis =>
    rw [List.foldl_cons, inductionHypothesis, Std.TreeMap.getElem?_insertIfNew]
    simp only [Nat.compare_eq_eq]
    by_cases here : first.offset = offset
    · subst here
      rw [List.find?_cons_of_pos (by exact beq_self_eq_true first.offset)]
      by_cases known : first.offset ∈ map
      · rw [if_neg fun new => new.2 known]
        obtain ⟨kept, look⟩ := Option.isSome_iff_exists.mp
          (Std.TreeMap.mem_iff_isSome_getElem?.mp known)
        rw [look, Option.some_or, Option.some_or]
      · rw [if_pos ⟨rfl, known⟩, Std.TreeMap.getElem?_eq_none known, Option.some_or,
          Option.none_or, Option.map_some]
    · rw [if_neg fun new => here new.1, List.find?_cons_of_neg (by simpa using here)]

/-! ### The test for overlaps -/

/-- An instruction is the last one placed at or before an offset. -/
structure Nearest (tiling : Tiling) (offset : Nat) (placed : Instruction) : Prop where
  here : tiling[placed.offset]? = some placed
  before : placed.offset ≤ offset
  last : ∀ between, placed.offset < between → between ≤ offset → tiling[between]? = none

theorem nearest?_eq_some_iff {tiling : Tiling} (orderly : tiling.Orderly) {offset : Nat}
    {placed : Instruction} :
    tiling.nearest? offset = some placed ↔ tiling.Nearest offset placed := by
  rw [nearest?, Option.map_eq_some_iff]
  constructor
  · rintro ⟨⟨place, _⟩, search, rfl⟩
    obtain ⟨look, before, last⟩ := getEntryLE?_eq_some_iff.mp search
    obtain rfl := orderly.keyed look
    exact ⟨look, before, last⟩
  · intro nearest
    exact ⟨(placed.offset, placed),
      getEntryLE?_eq_some_iff.mpr ⟨nearest.here, nearest.before, nearest.last⟩, rfl⟩

/-- An instruction that reaches beyond an offset is the nearest one there: any other that begins
nearer would begin before its end. -/
theorem Orderly.nearest {tiling : Tiling} (orderly : tiling.Orderly) {offset : Nat}
    {placed : Instruction} (look : tiling[placed.offset]? = some placed)
    (before : placed.offset ≤ offset) (reaches : offset < placed.stop) :
    tiling.Nearest offset placed := by
  refine ⟨look, before, fun between behind within => ?_⟩
  refine Option.eq_none_iff_forall_not_mem.mpr fun other found => ?_
  have apart := orderly.apart look found behind
  exact Nat.not_lt_of_le (Nat.le_trans apart within) reaches

/-- An instruction is refused exactly if the nearest one before it reaches into it, or another
one begins inside it. -/
theorem overlaps_iff_nearest {tiling : Tiling} (orderly : tiling.Orderly)
    (instruction : Instruction) : tiling.overlaps instruction = true ↔
      (∃ nearest, tiling.Nearest instruction.offset nearest ∧ instruction.offset < nearest.stop) ∨
        ∃ offset, Span.contains ⟨instruction.offset, instruction.stop⟩ offset = true ∧
          tiling.contains offset = true := by
  rw [overlaps, Bool.or_eq_true, Option.any_eq_true, Span.hasKey_iff]
  simp only [nearest?_eq_some_iff orderly, decide_eq_true_eq]

/-- The test for overlaps finds exactly the instructions that share a byte with the new
one. -/
theorem overlaps_iff {tiling : Tiling} (orderly : tiling.Orderly) (instruction : Instruction) :
    tiling.overlaps instruction = true ↔
      ∃ (offset : Nat) (placed : Instruction),
        tiling[offset]? = some placed ∧ Clash placed instruction := by
  rw [overlaps_iff_nearest orderly]
  constructor
  · rintro (⟨nearest, ⟨here, before, -⟩, reaches⟩ | ⟨offset, inside, known⟩)
    · exact ⟨_, nearest, here, Nat.lt_of_le_of_lt before instruction.offset_lt_stop, reaches⟩
    · obtain ⟨placed, look⟩ := contains_iff_exists.mp known
      obtain rfl := orderly.keyed look
      obtain ⟨low, high⟩ := (Span.contains_iff _ _).mp inside
      exact ⟨_, placed, look, high, Nat.lt_of_le_of_lt low placed.offset_lt_stop⟩
  · rintro ⟨_, placed, look, before, reaches⟩
    obtain rfl := orderly.keyed look
    rcases Nat.lt_or_ge instruction.offset placed.offset with inside | outside
    · exact Or.inr ⟨_, (Span.contains_iff _ _).mpr ⟨Nat.le_of_lt inside, before⟩,
        contains_iff_exists.mpr ⟨_, look⟩⟩
    · exact Or.inl ⟨placed, orderly.nearest look outside reaches, reaches⟩

/-- Since no instruction is longer than four bytes, looking at the three offsets before an
instruction and at the offsets inside it is as good as looking for the nearest one. -/
theorem overlaps_iff_lookBack {tiling : Tiling} (orderly : tiling.Orderly)
    (instruction : Instruction) : tiling.overlaps instruction = true ↔
      (∃ back ∈ [1, 2, 3], back ≤ instruction.offset ∧
        ∃ earlier, tiling[instruction.offset - back]? = some earlier ∧
          instruction.offset < earlier.stop) ∨
      ∃ ahead < instruction.size, tiling.contains (instruction.offset + ahead) = true := by
  rw [overlaps_iff_nearest orderly]
  constructor
  · rintro (⟨nearest, ⟨here, before, -⟩, reaches⟩ | ⟨offset, inside, known⟩)
    · rcases Nat.eq_or_lt_of_le before with same | earlier
      · rw [same] at here
        exact Or.inr ⟨0, instruction.size_pos, contains_iff_exists.mpr ⟨nearest, here⟩⟩
      · have short := nearest.size_le
        have extent : nearest.stop = nearest.offset + nearest.size := rfl
        have close : instruction.offset - nearest.offset ∈ [1, 2, 3] := by
          simp only [List.mem_cons, List.not_mem_nil, or_false]
          omega
        refine Or.inl ⟨_, close, Nat.sub_le _ _, nearest, ?_, reaches⟩
        rwa [Nat.sub_sub_self before]
    · obtain ⟨low, high⟩ := (Span.contains_iff _ _).mp inside
      refine Or.inr ⟨offset - instruction.offset, Nat.sub_lt_left_of_lt_add low high, ?_⟩
      rwa [Nat.add_sub_cancel' low]
  · rintro (⟨back, -, within, earlier, look, reaches⟩ | ⟨ahead, inside, known⟩)
    · have here := orderly.keyed look
      rw [← here] at look
      refine Or.inl ⟨earlier, orderly.nearest look ?_ reaches, reaches⟩
      rw [here]
      exact Nat.sub_le _ _
    · refine Or.inr ⟨_, (Span.contains_iff _ _).mpr ⟨Nat.le_add_right _ _, ?_⟩, known⟩
      exact Nat.add_lt_add_left inside _

/-! ### What placing does to a look-up -/

theorem getElem?_place_of_not_overlaps {tiling : Tiling} {instruction : Instruction}
    (free : ¬ tiling.overlaps instruction = true) (offset : Nat) :
    (tiling.place instruction)[offset]? =
      if instruction.offset = offset then some instruction else tiling[offset]? := by
  rw [place, if_neg free, Std.TreeMap.getElem?_insert]
  simp

theorem getElem?_place_empty (instruction : Instruction) :
    (place Std.TreeMap.empty instruction)[instruction.offset]? = some instruction := by
  rw [getElem?_place_of_not_overlaps, if_pos rfl]
  rw [overlaps_iff orderly_empty]
  rintro ⟨offset, placed, look, -⟩
  simp at look

/-- An instruction that was placed comes from the tiling or is the new one. -/
theorem getElem?_of_place {tiling : Tiling} {instruction placed : Instruction} {offset : Nat}
    (look : (tiling.place instruction)[offset]? = some placed) :
    tiling[offset]? = some placed ∨ placed = instruction ∧ offset = instruction.offset := by
  by_cases overlaps : tiling.overlaps instruction = true
  · rw [place, if_pos overlaps] at look
    exact Or.inl look
  · rw [getElem?_place_of_not_overlaps overlaps] at look
    split at look
    · rename_i same
      exact Or.inr ⟨(Option.some.inj look).symm, same.symm⟩
    · exact Or.inl look

/-- What was placed first stays. -/
theorem getElem?_place_of_some {tiling : Tiling} {placed : Instruction} {offset : Nat}
    (look : tiling[offset]? = some placed) (instruction : Instruction) :
    (tiling.place instruction)[offset]? = some placed := by
  by_cases overlaps : tiling.overlaps instruction = true
  · rwa [place, if_pos overlaps]
  · rw [getElem?_place_of_not_overlaps overlaps, if_neg, look]
    intro same
    apply overlaps
    rw [Tiling.overlaps, Bool.or_eq_true, Span.hasKey_iff]
    refine Or.inr ⟨offset, (Span.contains_iff _ _).mpr ⟨Nat.le_of_eq same, ?_⟩,
      contains_iff_exists.mpr ⟨placed, look⟩⟩
    rw [← same]
    exact instruction.offset_lt_stop

/-! ### Orderly tilings -/

theorem Orderly.place {tiling : Tiling} (orderly : tiling.Orderly) (instruction : Instruction) :
    (tiling.place instruction).Orderly := by
  by_cases overlaps : tiling.overlaps instruction = true
  · rwa [Tiling.place, if_pos overlaps]
  have free : ∀ {offset : Nat} {placed : Instruction}, tiling[offset]? = some placed →
      ¬ Clash placed instruction :=
    fun look clash => overlaps ((overlaps_iff orderly instruction).mpr ⟨_, _, look, clash⟩)
  constructor
  · intro offset placed look
    rcases getElem?_of_place look with old | ⟨rfl, here⟩
    · exact orderly.keyed old
    · exact here.symm
  · intro first second earlier later lookFirst lookSecond before
    rcases getElem?_of_place lookFirst with oldFirst | ⟨rfl, hereFirst⟩
    · have keyedFirst := orderly.keyed oldFirst
      rcases getElem?_of_place lookSecond with oldSecond | ⟨rfl, hereSecond⟩
      · exact orderly.apart oldFirst oldSecond before
      · apply Nat.le_of_not_lt
        intro reaches
        refine free oldFirst ⟨?_, by omega⟩
        exact Nat.lt_trans (by omega) later.offset_lt_stop
    · rcases getElem?_of_place lookSecond with oldSecond | ⟨rfl, hereSecond⟩
      · have keyedSecond := orderly.keyed oldSecond
        apply Nat.le_of_not_lt
        intro reaches
        refine free oldSecond ⟨by omega, ?_⟩
        exact Nat.lt_trans (by omega) later.offset_lt_stop
      · omega

theorem Orderly.filter {tiling : Tiling} (orderly : tiling.Orderly)
    (keep : Nat → Instruction → Bool) : Orderly (tiling.filter keep) := by
  have kept : ∀ {offset : Nat} {placed : Instruction},
      (tiling.filter keep)[offset]? = some placed → tiling[offset]? = some placed := by
    intro offset placed look
    rw [Std.TreeMap.getElem?_filter', Option.filter_eq_some_iff] at look
    exact look.1
  exact ⟨fun look => orderly.keyed (kept look),
    fun lookFirst lookSecond => orderly.apart (kept lookFirst) (kept lookSecond)⟩

/-! ### Placing a list of instructions -/

theorem Orderly.foldl_place {tiling : Tiling} (orderly : tiling.Orderly)
    (instructions : List Instruction) : (instructions.foldl Tiling.place tiling).Orderly := by
  induction instructions generalizing tiling with
  | nil => exact orderly
  | cons instruction rest inductionHypothesis =>
    exact inductionHypothesis (orderly.place instruction)

theorem getElem?_of_foldl_place {tiling : Tiling} {instructions : List Instruction}
    {placed : Instruction} {offset : Nat}
    (look : (instructions.foldl place tiling)[offset]? = some placed) :
    tiling[offset]? = some placed ∨ placed ∈ instructions ∧ offset = placed.offset := by
  induction instructions generalizing tiling with
  | nil => exact Or.inl look
  | cons instruction rest inductionHypothesis =>
    rcases inductionHypothesis look with before | ⟨member, here⟩
    · rcases getElem?_of_place before with old | ⟨rfl, here⟩
      · exact Or.inl old
      · exact Or.inr ⟨List.mem_cons_self, here⟩
    · exact Or.inr ⟨List.mem_cons_of_mem _ member, here⟩

theorem getElem?_foldl_place_of_some {tiling : Tiling} {placed : Instruction} {offset : Nat}
    (look : tiling[offset]? = some placed) (instructions : List Instruction) :
    (instructions.foldl place tiling)[offset]? = some placed := by
  induction instructions generalizing tiling with
  | nil => exact look
  | cons instruction rest inductionHypothesis =>
    exact inductionHypothesis (getElem?_place_of_some look instruction)

/-- An instruction that is placed, or refused, shares a byte with one that stays; it may be
this one itself. -/
theorem exists_clash_of_mem {tiling : Tiling} (orderly : tiling.Orderly)
    {instructions : List Instruction} {instruction : Instruction}
    (member : instruction ∈ instructions) :
    ∃ (offset : Nat) (placed : Instruction),
      (instructions.foldl place tiling)[offset]? = some placed ∧ Clash placed instruction := by
  induction instructions generalizing tiling with
  | nil => exact absurd member List.not_mem_nil
  | cons first rest inductionHypothesis =>
    rcases List.mem_cons.mp member with rfl | later
    · by_cases overlaps : tiling.overlaps instruction = true
      · obtain ⟨offset, placed, look, clash⟩ := (overlaps_iff orderly instruction).mp overlaps
        exact ⟨offset, placed, getElem?_foldl_place_of_some look _, clash⟩
      · refine ⟨instruction.offset, instruction, getElem?_foldl_place_of_some ?_ rest,
          instruction.offset_lt_stop, instruction.offset_lt_stop⟩
        rw [getElem?_place_of_not_overlaps overlaps, if_pos rfl]
    · exact inductionHypothesis (orderly.place first) later

/-! ### The instructions in ascending order -/

theorem mem_instructions {tiling : Tiling} {instruction : Instruction} :
    instruction ∈ tiling.instructions ↔ ∃ offset : Nat, tiling[offset]? = some instruction := by
  simp [instructions, Std.TreeMap.mem_toList_iff_getElem?_eq_some]

theorem mem_instructions_of_nearest? {tiling : Tiling} {offset : Nat} {placed : Instruction}
    (found : tiling.nearest? offset = some placed) : placed ∈ tiling.instructions := by
  obtain ⟨⟨place, _⟩, search, rfl⟩ := Option.map_eq_some_iff.mp found
  exact mem_instructions.mpr ⟨place, (getEntryLE?_eq_some_iff.mp search).1⟩

/-- In ascending order every instruction ends at or before the start of the next. -/
theorem Orderly.pairwise_instructions {tiling : Tiling} (orderly : tiling.Orderly) :
    tiling.instructions.Pairwise fun earlier later => earlier.stop ≤ later.offset := by
  rw [instructions, List.pairwise_map]
  have ordered := Std.TreeMap.ordered_keys_toList (t := tiling)
  refine List.Pairwise.imp_of_mem ?_ ordered
  intro first second memberFirst memberSecond before
  have lookFirst := Std.TreeMap.mem_toList_iff_getElem?_eq_some.mp memberFirst
  have lookSecond := Std.TreeMap.mem_toList_iff_getElem?_eq_some.mp memberSecond
  rw [orderly.keyed lookSecond]
  exact orderly.apart lookFirst lookSecond (Nat.compare_eq_lt.mp before)

/-- The first instruction in ascending order is the one at the least offset. -/
theorem Orderly.head?_instructions {tiling : Tiling} (orderly : tiling.Orderly) {start : Nat}
    {first : Instruction} (look : tiling[start]? = some first)
    (least : ∀ {offset : Nat} {placed : Instruction},
      tiling[offset]? = some placed → start ≤ offset) :
    tiling.instructions.head? = some first := by
  have apart := orderly.pairwise_instructions
  have member : first ∈ tiling.instructions := mem_instructions.mpr ⟨start, look⟩
  have bounded : ∀ placed ∈ tiling.instructions, start ≤ placed.offset := by
    intro placed listed
    obtain ⟨offset, found⟩ := mem_instructions.mp listed
    rw [orderly.keyed found]
    exact least found
  cases list : tiling.instructions with
  | nil => rw [list] at member; exact absurd member List.not_mem_nil
  | cons head rest =>
    rw [list] at member apart bounded
    rcases List.mem_cons.mp member with rfl | later
    · rfl
    · have before := (List.pairwise_cons.mp apart).1 first later
      have atLeast := bounded head List.mem_cons_self
      have positive := head.offset_lt_stop
      rw [orderly.keyed look] at before
      omega

end Cartridge.Tiling
