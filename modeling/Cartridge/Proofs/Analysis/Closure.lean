/-
This file proves which references of an analysis lead nowhere. The target of a reference is
answered for if a routine starts there, if it is listed as unanalyzed, or if an instruction
was found to be truncated there. Merging the trace that makes the reference offers its
target, so a target inside the range was accepted at some time and has met one of the four
fates. Only one of them can leave it unanswered: the target was accepted earlier as the
start of a window, and that trace was dropped. An offset is accepted only once, so the later
call or jump does not bring it back.
-/

import Cartridge.Proofs.Analysis.Accounting
import Cartridge.Proofs.References

namespace Cartridge

namespace Analysis

/-- Whether an offset is the start of a routine, unanalyzed, or that of a truncated
instruction. -/
def Answers (analysis : Analysis) (offset : Nat) : Prop :=
  (∃ routine ∈ analysis.routines, routine.start = offset) ∨ offset ∈ analysis.unanalyzed ∨
    Issue.truncated offset ∈ analysis.issues

instance (analysis : Analysis) (offset : Nat) : Decidable (analysis.Answers offset) :=
  inferInstanceAs (Decidable (_ ∨ _ ∨ _))

variable {options : Options} {image : Image} {regions : List Region}

/-- The target of a reference has been accepted if it lies in the range. -/
theorem mem_seen_of_reference {reference : Reference}
    (listed : reference ∈ (recursive options image regions).references)
    (inside : (scope options image).range.contains reference.target = true) :
    reference.target ∈ (survey options image regions).seen := by
  have harvested := harvested_survey options image regions
  obtain ⟨routine, found, trusted, instruction, member, made⟩ := Reference.mem_ofRoutines.mp listed
  obtain ⟨trace, merged, certain, traced⟩ := mem_routines.mp found
  obtain ⟨-, -, -, ending, instructions, -⟩ := Trace.routine?_eq_some traced
  rw [ending] at trusted
  rw [instructions] at member
  obtain ⟨offset, look⟩ := Tiling.mem_instructions.mp member
  obtain ⟨target, transfer, place⟩ :=
    (harvested.taken trace merged).keepsTargets trusted offset instruction reference look made
  have offers : trace.offers = trace.successors := by
    rw [Trace.offers, Trace.yield?, certain, traced]
    rfl
  have entry : ∃ entry ∈ trace.offers, entry.offset = reference.target := by
    rw [offers]
    rcases List.mem_append.mp transfer with called | jumped
    · refine ⟨⟨reference.target, target.processor, .call⟩, List.mem_append_left _ ?_, rfl⟩
      exact List.mem_filterMap.mpr ⟨target, called, by rw [Target.entry?, place]; rfl⟩
    · refine ⟨⟨reference.target, target.processor, .jump⟩, List.mem_append_right _ ?_, rfl⟩
      exact List.mem_filterMap.mpr ⟨target, jumped, by rw [Target.entry?, place]; rfl⟩
  obtain ⟨entry, offer, here⟩ := entry
  rw [← here] at inside ⊢
  exact harvested.offered trace merged entry offer inside

/-- A dropped offset is neither the start of a routine nor unanalyzed. -/
theorem not_answers_of_dropped {offset : Nat}
    (dropped : Fate.dropped.Met (recursive options image regions) (merged options image regions)
      offset) (silent : Issue.truncated offset ∉ (recursive options image regions).issues) :
    ¬(recursive options image regions).Answers offset := by
  obtain ⟨⟨⟩, -⟩ | ⟨trace, member, rfl, fate⟩ := eq_abandoned_or_exists_of_met dropped
  rintro (⟨routine, listed, start⟩ | givenUp | reported)
  · obtain ⟨other, merged, same, found⟩ := exists_found (List.mem_map_of_mem listed)
    rw [eq_of_mem_merged merged member (same.trans start), fate] at found
    exact nomatch found
  · exact not_mem_unanalyzed member (mem_unanalyzed.mp givenUp)
  · exact silent reported

/-- Whatever the scores of the windows, the target of a reference inside the range is left
unanswered exactly if its trace was dropped as that of a window and no instruction was found
to be truncated there. -/
theorem not_answers_reference_iff (valid : options.fault? = none) {reference : Reference}
    (listed : reference ∈ (recursive options image regions).references)
    (inside : (scope options image).range.contains reference.target = true) :
    ¬(recursive options image regions).Answers reference.target ↔
      Fate.dropped.Met (recursive options image regions) (merged options image regions)
        reference.target ∧
      Issue.truncated reference.target ∉ (recursive options image regions).issues := by
  refine ⟨fun unanswered => ?_, fun lost => not_answers_of_dropped lost.1 lost.2⟩
  obtain ⟨fate, met, -⟩ := existsUnique_met (Options.maxInstructions_ne_zero valid)
    (mem_seen_of_reference listed inside)
  cases fate with
  | found =>
    have start := List.count_pos_iff.mp (Nat.lt_of_lt_of_eq Nat.one_pos met.symm)
    exact absurd (Or.inl (List.mem_map.mp start)) unanswered
  | abandoned =>
    have givenUp := List.count_pos_iff.mp (Nat.lt_of_lt_of_eq Nat.one_pos met.2.1.symm)
    exact absurd (Or.inr (Or.inl givenUp)) unanswered
  | truncated =>
    obtain ⟨trace, member, here, empty, reported⟩ := met
    exact absurd (Or.inr (Or.inr reported)) unanswered
  | dropped => exact ⟨met, fun reported => unanswered (Or.inr (Or.inr reported))⟩

/-- A window of eight bytes that runs into the next one without coming to a return, and a
routine in the next window that calls the first byte of the image. -/
def droppedImage : Image :=
  ⟨#[0xEA, 0xEA, 0xEA, 0xEA, 0xEA, 0xEA, 0xEA, 0xAF, 0x22, 0x00, 0x80, 0x00, 0x60]⟩

/-- Options under which every window is tried: no statistic counts, and no confidence is
asked for. -/
def windowOptions : Options :=
  { seedVectors := false, windowSize := 8, minRegionConfidence := 0, layout := some .loRom,
    weights := { entropy := 0, density := 0, padding := 0 } }

set_option maxRecDepth 100000 in
/-- The call to the first byte leads nowhere: no routine starts there, the byte is not
unanalyzed, and no instruction is truncated there. -/
theorem reference_unanswered : windowOptions.fault? = none ∧
    ∃ reference ∈ (run windowOptions droppedImage).references,
      (scope windowOptions droppedImage).range.contains reference.target = true ∧
        ¬(run windowOptions droppedImage).Answers reference.target := by
  decide +kernel

set_option maxRecDepth 100000 in
theorem not_answers_reference_dropped : ∃ reference ∈
    (recursive windowOptions droppedImage (scores windowOptions droppedImage)).references,
      Fate.dropped.Met (recursive windowOptions droppedImage (scores windowOptions droppedImage))
        (merged windowOptions droppedImage (scores windowOptions droppedImage))
        reference.target ∧
      Issue.truncated reference.target ∉
        (recursive windowOptions droppedImage (scores windowOptions droppedImage)).issues := by
  have lost : ∃ reference ∈
      (recursive windowOptions droppedImage (scores windowOptions droppedImage)).references,
        (scope windowOptions droppedImage).range.contains reference.target = true ∧
          ¬(recursive windowOptions droppedImage (scores windowOptions droppedImage)).Answers
            reference.target := by
    decide +kernel
  obtain ⟨reference, listed, inside, unanswered⟩ := lost
  refine ⟨reference, listed, ?_⟩
  exact (not_answers_reference_iff (by decide +kernel) listed inside).mp unanswered

end Analysis

end Cartridge
