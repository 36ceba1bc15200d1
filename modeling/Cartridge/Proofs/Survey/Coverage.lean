/-
This file says what a survey knows about the bytes that it has covered. Its map shows, at every
offset at which an instruction of a recorded routine begins, the end of the first one recorded
there. The question whether a window is covered looks at the offsets in the window and at one
instruction before it, the one that begins last. If that one ends before the window, a longer
one that begins earlier, or at the same offset but later in the order of recording, goes
unnoticed. So a window that counts as covered is touched, and a touched window is overlooked
only where two routines read the same bytes as different instructions.
-/

import Cartridge.Proofs.Nearest
import Cartridge.Proofs.Routine
import Cartridge.Proofs.Survey.Harvest
import Cartridge.Proofs.Survey.Provenance
import Mathlib.Data.Finset.Max

namespace Cartridge

namespace Survey

/-! ### The map -/

/-- The instructions of the recorded routines, in the order of recording. -/
def instructions (survey : Survey) : List Instruction :=
  survey.recorded.flatMap Routine.instructions

/-- The map shows the end of the first instruction recorded at each offset. -/
def Charted (survey : Survey) : Prop :=
  ∀ offset, survey.covered[offset]? =
    (survey.instructions.find? fun instruction => instruction.offset == offset).map
      Instruction.stop

theorem instructions_merge (range : Span) (survey : Survey) (trace : Trace) :
    (survey.merge range trace).instructions = survey.instructions ++
      trace.yield?.toList.flatMap fun found => found.1.instructions := by
  rw [instructions, recorded_merge, List.flatMap_append, List.flatMap_map]
  rfl

namespace Charted

variable {survey : Survey}

/-- Merging a trace charts the instructions of its routine. -/
theorem merge (charted : survey.Charted) (range : Span) (trace : Trace) :
    (survey.merge range trace).Charted := by
  intro offset
  have covered : (survey.merge range trace).covered =
      (trace.yield?.toList.flatMap fun found => found.1.instructions).foldl cover
        survey.covered := by
    rw [merge_eq]
  have look := Tiling.getElem?_foldl_insertIfNew Instruction.stop survey.covered
    (trace.yield?.toList.flatMap fun found => found.1.instructions) offset
  rw [charted offset, ← Option.map_or, ← List.find?_append, ← instructions_merge range] at look
  rw [covered]
  exact look

theorem contains_iff (charted : survey.Charted) {offset : Nat} :
    survey.covered.contains offset = true ↔
      ∃ instruction ∈ survey.instructions, instruction.offset = offset := by
  rw [← Std.TreeMap.isSome_getElem?_eq_contains, charted offset, Option.isSome_map,
    List.find?_isSome]
  simp only [beq_iff_eq]

end Charted

/-! ### The instruction before an offset -/

/-- An instruction is the one that a survey sees before an offset: none begins between the two,
and it is the first one recorded where it begins. -/
structure Sees (survey : Survey) (offset : Nat) (instruction : Instruction) : Prop where
  before : instruction.offset < offset
  last : ∀ other ∈ survey.instructions, other.offset < offset → other.offset ≤ instruction.offset
  first : (survey.instructions.find? fun other => other.offset == instruction.offset) =
    some instruction

namespace Sees

variable {survey : Survey} {offset : Nat} {instruction : Instruction}

theorem mem (sees : survey.Sees offset instruction) : instruction ∈ survey.instructions :=
  List.mem_of_find?_eq_some sees.first

theorem unique (sees : survey.Sees offset instruction) {other : Instruction}
    (seesOther : survey.Sees offset other) : instruction = other := by
  have same := Nat.le_antisymm (seesOther.last _ sees.mem sees.before)
    (sees.last _ seesOther.mem seesOther.before)
  have first := sees.first
  rw [same, seesOther.first] at first
  exact (Option.some.inj first).symm

end Sees

/-- If an instruction begins before an offset, the survey sees one there. -/
theorem exists_sees {survey : Survey} {offset : Nat} {instruction : Instruction}
    (member : instruction ∈ survey.instructions) (before : instruction.offset < offset) :
    ∃ seen, survey.Sees offset seen := by
  have early {other : Instruction} :
      other ∈ (survey.instructions.filter fun other => other.offset < offset).toFinset ↔
        other ∈ survey.instructions ∧ other.offset < offset := by
    rw [List.mem_toFinset, List.mem_filter, decide_eq_true_eq]
  obtain ⟨last, among, most⟩ := Finset.exists_max_image _ Instruction.offset
    ⟨instruction, early.mpr ⟨member, before⟩⟩
  obtain ⟨listed, ahead⟩ := early.mp among
  have begins : (survey.instructions.find? fun other => other.offset == last.offset).isSome :=
    List.find?_isSome.mpr ⟨last, listed, by exact beq_self_eq_true last.offset⟩
  obtain ⟨seen, first⟩ := Option.isSome_iff_exists.mp begins
  have here : seen.offset = last.offset := by simpa using List.find?_some first
  rw [← here] at first
  refine ⟨seen, here ▸ ahead, fun other recorded others => ?_, first⟩
  rw [here]
  exact most other (early.mpr ⟨recorded, others⟩)

/-- What a survey finds before an offset is the end of the instruction that it sees there. -/
theorem Charted.nearestEnd?_eq_some_iff {survey : Survey} (charted : survey.Charted)
    {offset stop : Nat} : survey.nearestEnd? offset = some stop ↔
      ∃ seen, survey.Sees offset seen ∧ seen.stop = stop := by
  rw [nearestEnd?, Option.map_eq_some_iff]
  constructor
  · rintro ⟨⟨place, _⟩, search, rfl⟩
    obtain ⟨look, before, last⟩ := getEntryLT?_eq_some_iff.mp search
    rw [charted place] at look
    obtain ⟨seen, first, ends⟩ := Option.map_eq_some_iff.mp look
    obtain rfl : seen.offset = place := by simpa using List.find?_some first
    refine ⟨seen, ⟨before, fun other recorded ahead => Nat.le_of_not_lt fun behind => ?_, first⟩,
      ends⟩
    have begins := charted.contains_iff.mpr ⟨other, recorded, rfl⟩
    rw [← Std.TreeMap.isSome_getElem?_eq_contains, last _ behind ahead] at begins
    exact nomatch begins
  · rintro ⟨seen, sees, rfl⟩
    refine ⟨(seen.offset, seen.stop), getEntryLT?_eq_some_iff.mpr ⟨?_, sees.before, ?_⟩, rfl⟩
    · rw [charted, sees.first]
      rfl
    · intro between behind ahead
      rw [← Option.not_isSome_iff_eq_none, Std.TreeMap.isSome_getElem?_eq_contains,
        charted.contains_iff]
      rintro ⟨other, recorded, rfl⟩
      exact absurd (sees.last other recorded ahead) (Nat.not_le.mpr behind)

/-! ### What counts as covered -/

/-- A window counts as covered if the instruction seen before it reaches into it, or some
instruction begins in it. -/
theorem Charted.isCovered_iff {survey : Survey} (charted : survey.Charted) {window : Span} :
    survey.isCovered window = true ↔
      (∃ seen, survey.Sees window.start seen ∧ window.start < seen.stop) ∨
        ∃ instruction ∈ survey.instructions, window.contains instruction.offset = true := by
  rw [isCovered, Bool.or_eq_true, Option.any_eq_true, Span.hasKey_iff]
  simp only [charted.nearestEnd?_eq_some_iff, charted.contains_iff, decide_eq_true_eq]
  refine or_congr ?_ ?_
  · constructor
    · rintro ⟨_, ⟨seen, sees, rfl⟩, reaches⟩
      exact ⟨seen, sees, reaches⟩
    · rintro ⟨seen, sees, reaches⟩
      exact ⟨_, ⟨seen, sees, rfl⟩, reaches⟩
  · constructor
    · rintro ⟨_, inside, instruction, recorded, rfl⟩
      exact ⟨instruction, recorded, inside⟩
    · rintro ⟨instruction, recorded, inside⟩
      exact ⟨_, inside, instruction, recorded, rfl⟩

/-! ### What is touched -/

/-- An instruction of a recorded routine has a byte in a window. -/
def Touches (survey : Survey) (window : Span) : Prop :=
  ∃ instruction ∈ survey.instructions, ∃ offset,
    instruction.span.contains offset = true ∧ window.contains offset = true

/-- No instruction begins in a window, and the one that the survey sees before it ends before
it; but another one reaches into it. -/
structure Overlooks (survey : Survey) (window : Span) : Prop where
  clear : ∀ instruction ∈ survey.instructions, window.contains instruction.offset = false
  seen : ∃ short, survey.Sees window.start short ∧ short.stop ≤ window.start
  missed : ∃ long ∈ survey.instructions, long.offset < window.start ∧ window.start < long.stop

/-- A window that is not empty is touched if an instruction from before it reaches into it, or
some instruction begins in it. -/
theorem touches_iff {survey : Survey} {window : Span} (nonempty : window.start < window.stop) :
    survey.Touches window ↔
      (∃ long ∈ survey.instructions, long.offset < window.start ∧ window.start < long.stop) ∨
        ∃ instruction ∈ survey.instructions, window.contains instruction.offset = true := by
  simp only [Touches, Span.contains_iff, Instruction.span]
  constructor
  · rintro ⟨instruction, recorded, offset, ⟨first, last⟩, low, high⟩
    rcases Nat.lt_or_ge instruction.offset window.start with before | inside
    · exact Or.inl ⟨instruction, recorded, before, by omega⟩
    · exact Or.inr ⟨instruction, recorded, inside, by omega⟩
  · rintro (⟨long, recorded, before, reaches⟩ | ⟨instruction, recorded, low, high⟩)
    · exact ⟨long, recorded, window.start, ⟨Nat.le_of_lt before, reaches⟩, Nat.le_refl _, nonempty⟩
    · exact ⟨instruction, recorded, _, ⟨Nat.le_refl _, instruction.offset_lt_stop⟩, low, high⟩

/-- A window that counts as covered is touched. -/
theorem Charted.touches {survey : Survey} (charted : survey.Charted) {window : Span}
    (nonempty : window.start < window.stop) (covered : survey.isCovered window = true) :
    survey.Touches window := by
  refine (touches_iff nonempty).mpr ((charted.isCovered_iff.mp covered).imp_left ?_)
  rintro ⟨seen, sees, reaches⟩
  exact ⟨seen, sees.mem, sees.before, reaches⟩

/-- A window is overlooked exactly if it is touched but does not count as covered. -/
theorem Charted.overlooks_iff {survey : Survey} (charted : survey.Charted) {window : Span}
    (nonempty : window.start < window.stop) :
    survey.Overlooks window ↔ survey.Touches window ∧ ¬survey.isCovered window = true := by
  rw [touches_iff nonempty, charted.isCovered_iff]
  constructor
  · rintro ⟨clear, ⟨short, sees, ends⟩, missed⟩
    refine ⟨Or.inl missed, ?_⟩
    rintro (⟨seen, seesToo, reaches⟩ | ⟨instruction, recorded, inside⟩)
    · rw [seesToo.unique sees] at reaches
      exact absurd ends (Nat.not_le.mpr reaches)
    · exact Bool.noConfusion ((clear instruction recorded).symm.trans inside)
  · rintro ⟨touched, uncovered⟩
    obtain ⟨unreached, clear⟩ := not_or.mp uncovered
    obtain ⟨long, recorded, before, reaches⟩ := touched.resolve_right clear
    obtain ⟨short, sees⟩ := exists_sees recorded before
    refine ⟨fun instruction member => ?_, ⟨short, sees, ?_⟩, long, recorded, before, reaches⟩
    · exact Bool.eq_false_iff.mpr fun inside => clear ⟨instruction, member, inside⟩
    · exact Nat.le_of_not_lt fun reached => unreached ⟨short, sees, reached⟩

/-- Where a survey overlooks a window, two routines share a byte that they read as a part of
different instructions, unless instructions of one routine overlap. -/
theorem Overlooks.exists_clash {survey : Survey} {window : Span}
    (overlooks : survey.Overlooks window)
    (apart : ∀ routine ∈ survey.recorded, routine.instructions.Pairwise fun earlier later =>
      earlier.stop ≤ later.offset) :
    ∃ first ∈ survey.recorded, ∃ second ∈ survey.recorded, first ≠ second ∧
      ∃ short ∈ first.instructions, ∃ long ∈ second.instructions,
        Tiling.Clash short long ∧ short.stop < long.stop := by
  obtain ⟨short, sees, ends⟩ := overlooks.seen
  obtain ⟨long, recorded, before, reaches⟩ := overlooks.missed
  have later := sees.last long recorded before
  have positive := short.offset_lt_stop
  have clash : Tiling.Clash short long := ⟨by omega, by omega⟩
  have shorter : short.stop < long.stop := by omega
  obtain ⟨first, listedFirst, held⟩ := List.mem_flatMap.mp sees.mem
  obtain ⟨second, listedSecond, heldToo⟩ := List.mem_flatMap.mp recorded
  refine ⟨first, listedFirst, second, listedSecond, ?_, short, held, long, heldToo, clash, shorter⟩
  rintro rfl
  -- within one routine, instructions that clash are the same
  have alike : ∀ ⦃one⦄, one ∈ first.instructions → ∀ ⦃other⦄, other ∈ first.instructions →
      Tiling.Clash one other → one.stop = other.stop :=
    List.Pairwise.forall_of_forall_of_flip (fun _ _ _ => rfl)
      ((apart first listedFirst).imp fun ahead clash => absurd clash.2 (Nat.not_lt.mpr ahead))
      ((apart first listedFirst).imp fun ahead clash => absurd clash.1 (Nat.not_lt.mpr ahead))
  exact absurd (alike held heldToo clash) (Nat.ne_of_lt shorter)

/-- Recording no routine and covering nothing keeps the map. -/
theorem Charted.frame {before after : Survey} (charted : before.Charted)
    (routines : after.routines = before.routines) (covered : after.covered = before.covered) :
    after.Charted := by
  intro offset
  rw [covered, charted offset, instructions, instructions, recorded, recorded, routines]

end Survey

/-! ### Every stage -/

namespace Stage

variable {scope : Scope} {budget : Option Nat}

theorem charted_fresh (issues : Array Issue) (events : Array Event) :
    Survey.Charted { issues := issues, events := events } := by
  intro offset
  simp [Survey.instructions, Survey.recorded]

theorem charted_move {before after : Stage} (move : Move scope budget before after)
    (charted : before.survey.Charted) : after.survey.Charted := by
  cases move with
  | @offer survey merged entry root =>
    rcases Survey.enqueue_cases scope.range survey entry with ⟨-, -, accepted⟩ | ⟨-, refused⟩
    · rw [accepted]
      exact charted.frame rfl rfl
    · rwa [refused]
  | launch _ => exact charted.frame rfl rfl
  | @merge survey entry wave merged within =>
    have counted : Survey.Charted
        { survey with decoded := survey.decoded + (Trace.run scope entry).decoded } :=
      charted.frame rfl rfl
    exact counted.merge scope.range (Trace.run scope entry)
  | @cut survey entry wave merged limit exceeding left =>
    have counted : Survey.Charted { survey with exhausted := true, decoded := limit } :=
      charted.frame rfl rfl
    exact counted.merge scope.range ((Trace.run scope entry).cut (limit - survey.decoded))
  | refuse _ _ => exact charted.frame rfl rfl
  | giveUpWave _ => exact charted.frame rfl rfl
  | giveUpQueue _ => exact charted.frame rfl rfl

theorem Course.charted {first last : Stage} (course : Course scope budget first last)
    (charted : first.survey.Charted) : last.survey.Charted :=
  course.keeps (fun stage => stage.survey.Charted) charted_move charted

/-- The instructions of a recorded routine follow one another without overlap. -/
theorem Harvested.apart {stage : Stage} (harvested : stage.Harvested scope) {routine : Routine}
    (listed : routine ∈ stage.survey.recorded) :
    routine.instructions.Pairwise fun earlier later => earlier.stop ≤ later.offset := by
  rw [Survey.recorded, harvested.routines] at listed
  obtain ⟨found, member, rfl⟩ := List.mem_map.mp listed
  obtain ⟨trace, merged, yields⟩ := List.mem_filterMap.mp member
  obtain ⟨-, traced, -⟩ := Trace.yield?_eq_some_iff.mp yields
  obtain ⟨-, -, -, -, instructions, -⟩ := Trace.routine?_eq_some traced
  rw [instructions]
  exact (harvested.taken trace merged).sound.orderly.pairwise_instructions

end Stage

end Cartridge
