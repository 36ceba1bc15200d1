/-
This file proves that placing instructions in turn chooses among them first come, first
served. What is placed stays, and a new instruction is added exactly if it shares no byte
with any that is there. Only two things have to be looked at for that: the instruction that
begins nearest at or before the new one, and the offsets inside the new one. Those that begin
still earlier end where the nearest one begins, because no two of them overlap; so what is
placed in the end is the list from which every instruction was struck that overlaps an
earlier one which was kept.
-/

import Cartridge.Proofs.Routine

namespace Cartridge

/-! ### Sharing no byte -/

namespace Instruction

/-- Whether an instruction ends before another one begins, or begins behind it. -/
def isApart (first second : Instruction) : Bool :=
  decide (first.stop ≤ second.offset) || decide (second.stop ≤ first.offset)

theorem isApart_iff {first second : Instruction} :
    first.isApart second = true ↔ ¬ Tiling.Clash second first := by
  rw [isApart, Bool.or_eq_true, decide_eq_true_eq, decide_eq_true_eq, Tiling.Clash]
  omega

/-- Instructions that do not clash have no offset in common. -/
theorem disjoint_span_iff {first second : Instruction} :
    first.span.Disjoint second.span ↔ ¬ Tiling.Clash first second := by
  have positiveFirst := first.offset_lt_stop
  have positiveSecond := second.offset_lt_stop
  constructor
  · rintro disjoint ⟨before, after⟩
    refine disjoint (max first.offset second.offset) ?_
    rw [Span.contains_iff, Span.contains_iff, span, span]
    dsimp only
    omega
  · rintro free offset ⟨inFirst, inSecond⟩
    obtain ⟨lowFirst, highFirst⟩ := (Span.contains_iff _ _).mp inFirst
    obtain ⟨lowSecond, highSecond⟩ := (Span.contains_iff _ _).mp inSecond
    exact free ⟨Nat.lt_of_le_of_lt lowFirst highSecond, Nat.lt_of_le_of_lt lowSecond highFirst⟩

end Instruction

namespace Tiling

/-! ### First come, first served -/

/-- Chooses an instruction if it is apart from all those chosen before. -/
def choose (chosen : List Instruction) (instruction : Instruction) : List Instruction :=
  if chosen.all instruction.isApart then chosen ++ [instruction] else chosen

/-- The instructions of a list that are chosen first come, first served. -/
def firstCome (instructions : List Instruction) : List Instruction :=
  instructions.foldl choose []

/-- An instruction shares no byte with any that is placed. -/
def Admits (tiling : Tiling) (instruction : Instruction) : Prop :=
  ∀ placed ∈ tiling.instructions, placed.span.Disjoint instruction.span

theorem admits_iff {tiling : Tiling} (orderly : tiling.Orderly) {instruction : Instruction} :
    tiling.Admits instruction ↔ ¬ tiling.overlaps instruction = true := by
  rw [overlaps_iff orderly, Admits]
  constructor
  · rintro apart ⟨offset, placed, look, clash⟩
    exact Instruction.disjoint_span_iff.mp (apart placed (mem_instructions.mpr ⟨offset, look⟩))
      clash
  · rintro free placed member
    obtain ⟨offset, look⟩ := mem_instructions.mp member
    exact Instruction.disjoint_span_iff.mpr fun clash => free ⟨offset, placed, look, clash⟩

/-- Nothing is placed where an instruction begins that shares no byte with any. -/
theorem getElem?_of_admits {tiling : Tiling} (orderly : tiling.Orderly)
    {instruction : Instruction} (admits : tiling.Admits instruction) :
    tiling[instruction.offset]? = none := by
  refine Option.eq_none_iff_forall_not_mem.mpr fun placed look => ?_
  have here := orderly.keyed look
  refine Instruction.disjoint_span_iff.mp (admits placed (mem_instructions.mpr ⟨_, look⟩)) ⟨?_, ?_⟩
  · rw [here]
    exact instruction.offset_lt_stop
  · rw [← here]
    exact placed.offset_lt_stop

/-- A tiling holds the instructions of a list, each under its own offset. -/
def Holds (tiling : Tiling) (instructions : List Instruction) : Prop :=
  ∀ (offset : Nat) (placed : Instruction),
    tiling[offset]? = some placed ↔ placed ∈ instructions ∧ offset = placed.offset

namespace Holds

theorem empty : Holds (Std.TreeMap.empty : Tiling) [] := by
  intro offset placed
  simp

theorem mem_instructions_iff {tiling : Tiling} {chosen : List Instruction}
    (holds : tiling.Holds chosen) {placed : Instruction} :
    placed ∈ tiling.instructions ↔ placed ∈ chosen := by
  rw [mem_instructions]
  constructor
  · rintro ⟨offset, look⟩
    exact ((holds offset placed).mp look).1
  · intro member
    exact ⟨placed.offset, (holds _ _).mpr ⟨member, rfl⟩⟩

theorem all_isApart_iff {tiling : Tiling} {chosen : List Instruction}
    (holds : tiling.Holds chosen) {instruction : Instruction} :
    chosen.all instruction.isApart = true ↔ tiling.Admits instruction := by
  rw [List.all_eq_true]
  refine forall_congr' fun placed => ?_
  rw [holds.mem_instructions_iff, Instruction.disjoint_span_iff, Instruction.isApart_iff]

/-- Placing an instruction is choosing it. -/
theorem place {tiling : Tiling} {chosen : List Instruction} (holds : tiling.Holds chosen)
    (orderly : tiling.Orderly) (instruction : Instruction) :
    (tiling.place instruction).Holds (choose chosen instruction) := by
  by_cases admits : tiling.Admits instruction
  · have free := (admits_iff orderly).mp admits
    rw [choose, if_pos (holds.all_isApart_iff.mpr admits)]
    intro offset placed
    rw [getElem?_place_of_not_overlaps free, List.mem_append, List.mem_singleton, or_and_right,
      ← holds offset placed]
    split
    · rename_i same
      subst same
      rw [getElem?_of_admits orderly admits, Option.some.injEq]
      constructor
      · rintro rfl
        exact Or.inr ⟨rfl, rfl⟩
      · rintro (none | ⟨same, -⟩)
        · exact nomatch none
        · exact same.symm
    · rename_i other
      refine ⟨Or.inl, ?_⟩
      rintro (look | ⟨rfl, rfl⟩)
      · exact look
      · exact absurd rfl other
  · have overlaps := of_not_not (mt (admits_iff orderly).mpr admits)
    rw [choose, if_neg (mt holds.all_isApart_iff.mp admits), Tiling.place, if_pos overlaps]
    exact holds

theorem foldl_place {tiling : Tiling} {chosen : List Instruction} (holds : tiling.Holds chosen)
    (orderly : tiling.Orderly) (instructions : List Instruction) :
    (instructions.foldl Tiling.place tiling).Holds (instructions.foldl choose chosen) := by
  induction instructions generalizing tiling chosen with
  | nil => exact holds
  | cons instruction rest inductionHypothesis =>
    exact inductionHypothesis (holds.place orderly instruction) (orderly.place instruction)

end Holds

/-! ### The nearest instruction -/

/-- An instruction is refused exactly if the nearest one before it reaches into it, or another
one begins inside it. -/
theorem not_admits_iff {tiling : Tiling} (orderly : tiling.Orderly) {instruction : Instruction} :
    ¬ tiling.Admits instruction ↔
      (∃ nearest, tiling.Nearest instruction.offset nearest ∧
          instruction.offset < nearest.stop) ∨
        ∃ offset, instruction.span.contains offset = true ∧ tiling.contains offset = true := by
  rw [admits_iff orderly, not_not]
  exact overlaps_iff_nearest orderly instruction

/-! ### Placing from nothing -/

/-- What a tiling shows after the instructions of a list were placed in turn. -/
structure Selects (tiling : Tiling) (instructions : List Instruction) : Prop where
  /-- Every instruction stands under its own offset. -/
  keyed : ∀ (offset : Nat) (placed : Instruction),
    tiling[offset]? = some placed → placed.offset = offset
  /-- No two instructions share a byte. -/
  disjoint : tiling.instructions.Pairwise fun first second => first.span.Disjoint second.span
  /-- An instruction that shares no byte with those placed is added to them. -/
  added : ∀ instruction, tiling.Admits instruction →
    tiling[instruction.offset]? = none ∧
      tiling.place instruction = tiling.insert instruction.offset instruction
  /-- Any other changes nothing. -/
  refused : ∀ instruction, ¬ tiling.Admits instruction → tiling.place instruction = tiling
  /-- What is placed stays as it is. -/
  kept : ∀ (instruction placed : Instruction) (offset : Nat),
    tiling[offset]? = some placed → (tiling.place instruction)[offset]? = some placed
  /-- The nearest instruction before the new one and the offsets inside it decide. -/
  decided : ∀ instruction, ¬ tiling.Admits instruction ↔
    (∃ nearest, tiling.Nearest instruction.offset nearest ∧ instruction.offset < nearest.stop) ∨
      ∃ offset, instruction.span.contains offset = true ∧ tiling.contains offset = true
  /-- The instructions placed are those of the list, chosen first come, first served. -/
  chosen : tiling.Holds (firstCome instructions)

/-- Placing instructions in turn chooses among them first come, first served. -/
theorem selects_foldl_place (instructions : List Instruction) :
    Selects (instructions.foldl place Std.TreeMap.empty) instructions := by
  have orderly := orderly_empty.foldl_place instructions
  have holds := Holds.empty.foldl_place orderly_empty instructions
  refine ⟨fun offset placed look => orderly.keyed look, ?_, fun instruction admits => ?_,
    fun instruction refused => ?_, fun instruction placed offset look => ?_,
    fun instruction => not_admits_iff orderly, holds⟩
  · exact orderly.pairwise_instructions.imp fun before => Span.disjoint_of_stop_le before
  · have free := (admits_iff orderly).mp admits
    exact ⟨getElem?_of_admits orderly admits, by rw [place, if_neg free]⟩
  · rw [place, if_pos (of_not_not (mt (admits_iff orderly).mpr refused))]
  · exact getElem?_place_of_some look instruction

end Tiling

end Cartridge
