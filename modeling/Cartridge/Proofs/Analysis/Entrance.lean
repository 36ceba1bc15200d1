/-
This file proves under which state the routines of an analysis are entered. A routine that is
called is entered with no data bank and an empty stack, since other callers may differ in
both. So is a routine to which control jumps, with one exception: if the first transfer to it
that was merged is a branch back out of another routine, it is entered under the state that
the branch leaves behind, whatever is known then.

However a routine is entered, the state arises from a starting state. So no routine is entered
with a wide register in emulation mode.
-/

import Cartridge.Proofs.Analysis.Soundness
import Cartridge.Proofs.Survey.Entrance

namespace Cartridge

namespace Analysis

variable {options : Options} {image : Image} {regions : List Region} {routine : Routine}

theorem firstOffered_survey (options : Options) (image : Image) (regions : List Region) :
    Stage.FirstOffered (scope options image)
      ⟨survey options image regions, [], merged options image regions⟩ :=
  (Stage.course_run _ _ _ _ _ _).firstOffered (Stage.FirstOffered.fresh _ _)

/-- The first offer at the start of a routine that is called or jumped to is its entry. -/
theorem firstOffer?_start (listed : routine ∈ (recursive options image regions).routines)
    (transferred : routine.seed = .call ∨ routine.seed = .jump) :
    Trace.firstOffer? (merged options image regions) routine.start =
      some ⟨routine.start, routine.entry, routine.seed⟩ := by
  obtain ⟨trace, member, -, traced⟩ := mem_routines.mp listed
  obtain ⟨start, entry, seed, -⟩ := Trace.routine?_eq_some traced
  have offered := firstOffered_survey options image regions
  rw [start, entry]
  rw [seed] at transferred ⊢
  rcases offered.first (Or.inr (Or.inr (List.mem_map_of_mem member))) with root | first
  · have isRoot := root.seed
    rcases transferred with called | jumped
    · rw [called] at isRoot
      exact nomatch isRoot
    · rw [jumped] at isRoot
      exact nomatch isRoot
  · exact first

/-- Control goes to a first offer from one of the routines. -/
theorem exists_caller {offset : Nat} {sent : Entry}
    (first : Trace.firstOffer? (merged options image regions) offset = some sent) :
    ∃ caller ∈ (recursive options image regions).routines,
      (scope options image).Sends caller.start caller.entry sent := by
  obtain ⟨trace, member, offer⟩ := List.mem_flatMap.mp (List.mem_of_find?_eq_some first)
  have taken := (harvested_survey options image regions).taken trace member
  have sends := taken.sends sent (Trace.mem_successors_of_mem_offers offer)
  cases yields : trace.yield? with
  | none =>
    rw [Trace.offers, yields] at offer
    exact absurd offer List.not_mem_nil
  | some found =>
    obtain ⟨certain, traced, -⟩ := Trace.yield?_eq_some_iff.mp yields
    obtain ⟨start, entry, -⟩ := Trace.routine?_eq_some traced
    rw [← start, ← entry] at sends
    exact ⟨found.1, mem_routines.mpr ⟨trace, member, certain, traced⟩, sends⟩

theorem contains_start (listed : routine ∈ (recursive options image regions).routines) :
    (scope options image).range.contains routine.start = true := by
  obtain ⟨trace, member, -, traced⟩ := mem_routines.mp listed
  rw [(Trace.routine?_eq_some traced).1]
  exact contains_of_mem_merged member

/-- A routine that is called is entered with a cleared state. One to which control jumps is
entered with a cleared state unless the first transfer to it is a branch back out of another
routine behind which the data bank or something on the stack is known. -/
theorem not_isCleared_iff (listed : routine ∈ (run options image).routines)
    (transferred : routine.seed = .call ∨ routine.seed = .jump) :
    (routine.seed = .call → routine.entry.IsCleared) ∧
    (¬ routine.entry.IsCleared ↔ ∃ caller ∈ (run options image).routines, ∃ after : Processor,
      (scope options image).BranchesBack caller.start caller.entry routine.start after ∧
        Trace.firstOffer? (merged options image (scores options image)) routine.start =
          some ⟨routine.start, after, .jump⟩ ∧ ¬ after.IsCleared) := by
  cases strategy : options.strategy with
  | linear =>
    rw [routines_run_of_linear strategy] at listed
    exact absurd listed List.not_mem_nil
  | recursive =>
    rw [run_of_recursive strategy] at listed ⊢
    have first := firstOffer?_start listed transferred
    obtain ⟨caller, calling, sends⟩ := exists_caller first
    have branched := sends.branchesBack (contains_start listed)
    refine ⟨fun called => ?_, fun uncleared => ?_, ?_⟩
    · by_contra uncleared
      exact nomatch called.symm.trans (branched uncleared).1
    · obtain ⟨seed, back⟩ := branched uncleared
      exact ⟨caller, calling, routine.entry, back, seed ▸ first, uncleared⟩
    · rintro ⟨-, -, after, -, offer, uncleared⟩
      rw [first, Option.some.injEq, Entry.mk.injEq] at offer
      rw [offer.2.1]
      exact uncleared

/-- A return, and a routine that pulls its own bank into the data bank and branches back to
that return. -/
def backwardImage : Image :=
  ⟨#[0x60, 0x4B, 0xAB, 0x80, 0xFB]⟩

/-- Options under which the second routine is the entry point. -/
def backwardOptions : Options :=
  { bareOptions with entryPoints := [⟨0x00, 0x8001⟩] }

set_option maxRecDepth 100000 in
theorem exists_jumped_backward : ∃ routine ∈ (run backwardOptions backwardImage).routines,
    routine.seed = .jump ∧ routine.entry.dataBank = some 0 := by
  have entered : (Seed.jump, some (0 : UInt8)) ∈ (survey backwardOptions backwardImage
      (scores backwardOptions backwardImage)).routines.toList.map fun found =>
        (found.1.seed, found.1.entry.dataBank) := by
    decide +kernel
  obtain ⟨found, recorded, parts⟩ := List.mem_map.mp entered
  refine ⟨found.1, ?_, congrArg Prod.fst parts, congrArg Prod.snd parts⟩
  rw [run_of_recursive rfl]
  exact mem_routines_of_survey recorded

/-- Not every routine that is called or jumped to is entered with a cleared state. -/
theorem jumped_uncleared : ¬ ∀ routine ∈ (run backwardOptions backwardImage).routines,
    routine.seed = .call ∨ routine.seed = .jump → routine.entry.IsCleared := by
  intro every
  obtain ⟨routine, listed, jumped, known⟩ := exists_jumped_backward
  have cleared := every routine listed (Or.inr jumped)
  exact nomatch cleared.1.symm.trans known

theorem not_isCleared_iff_backward : ∃ routine ∈ (run backwardOptions backwardImage).routines,
    (routine.seed = .call ∨ routine.seed = .jump) ∧ ¬ routine.entry.IsCleared ∧
    ∃ caller ∈ (run backwardOptions backwardImage).routines, ∃ after : Processor,
      (scope backwardOptions backwardImage).BranchesBack caller.start caller.entry routine.start
        after ∧ ¬ after.IsCleared := by
  obtain ⟨routine, listed, jumped, known⟩ := exists_jumped_backward
  have uncleared : ¬ routine.entry.IsCleared := by
    intro cleared
    exact nomatch cleared.1.symm.trans known
  obtain ⟨caller, calling, after, back, -, left⟩ :=
    (not_isCleared_iff listed (Or.inr jumped)).2.mp uncleared
  exact ⟨routine, listed, Or.inr jumped, uncleared, caller, calling, after, back, left⟩

/-! ### The mode in which routines are entered -/

theorem accepts_survey (options : Options) (image : Image) (regions : List Region)
    {Holds : Entry → Prop} (handsOn : (scope options image).HandsOn Holds) :
    Stage.Accepts Holds ⟨survey options image regions, [], merged options image regions⟩ :=
  (Stage.course_run _ _ _ _ _ _).accepts handsOn (Stage.Accepts.fresh _ _)

/-- Every routine of an analysis is entered under a state that arises. -/
theorem arises_of_mem_routines (listed : routine ∈ (run options image).routines) :
    routine.entry.Arises := by
  rw [run_of_recursive (strategy_of_mem_routines listed)] at listed
  obtain ⟨trace, member, -, traced⟩ := mem_routines.mp listed
  have accepts := accepts_survey options image (scores options image)
    (scope options image).handsOn_arises
  rw [(Trace.routine?_eq_some traced).2.1]
  exact accepts trace.entry (Or.inr (Or.inr (List.mem_map_of_mem member)))

/-- In emulation mode both registers are narrow, in every state that arises, and no shadow of the
stack grows beyond its places. So no routine that an analysis enters in emulation mode is entered
with a wide register. -/
theorem narrow_of_emulation :
    (∀ processor : Processor, processor.Arises → processor.Narrow ∧ processor.Shallow) ∧
    ∀ (options : Options) (image : Image), ∀ routine ∈ (run options image).routines,
      routine.entry.Narrow :=
  ⟨fun _ arises => ⟨arises.narrow, arises.shallow⟩,
    fun _ _ _ listed => (arises_of_mem_routines listed).narrow⟩

/-- Saves wide registers in native mode and restores them in emulation mode, after an exchange of
modes with a known carry and one with an unknown carry. -/
def restoring : List Processor.Operation :=
  [.saveWidths, .setFlags Processor.carryFlag, .exchangeMode, .saveWidths, .restoreWidths,
    .exchangeMode, .restoreWidths]

set_option maxRecDepth 100000 in
theorem exists_emulating : ∃ routine ∈ (run bareOptions backwardImage).routines,
    routine.entry.emulation = true := by
  have entered : true ∈ (survey bareOptions backwardImage
      (scores bareOptions backwardImage)).routines.toList.map fun found =>
        found.1.entry.emulation := by
    decide +kernel
  obtain ⟨found, recorded, emulates⟩ := List.mem_map.mp entered
  rw [run_of_recursive rfl]
  exact ⟨found.1, mem_routines_of_survey recorded, emulates⟩

theorem narrow_of_emulation_restoring :
    ((Processor.native true true).after restoring).emulation = true ∧
      ((Processor.native true true).after restoring).modeUncertain = true ∧
      ((Processor.native true true).after restoring).wideAccumulator = false ∧
      ∃ routine ∈ (run bareOptions backwardImage).routines,
        routine.entry.emulation = true ∧ routine.entry.wideAccumulator = false := by
  have arises : ((Processor.native true true).after restoring).Arises :=
    (Processor.Arises.native true true).after restoring
  obtain ⟨routine, listed, emulates⟩ := exists_emulating
  refine ⟨rfl, rfl, ((narrow_of_emulation.1 _ arises).1 rfl).1, routine, listed, emulates, ?_⟩
  exact (narrow_of_emulation.2 bareOptions backwardImage routine listed emulates).1

end Analysis

end Cartridge
