/-
This file proves when an analysis says that it only guesses the layout, and which layout it then
uses. The problems that an analysis records are those known at its start, then those of the traces
that were merged, then that the budget ran out; no trace complains about the header. So the guess
is reported exactly if the layout is detected and the deciding header earns less than fifty points.

The wording of this report promises the 32 KiB layout. The promise is kept unless the deciding
header is one of another layout: a poor header decides all the same if it is the best there is.
-/

import Cartridge.Proofs.Analysis.Recursive
import Cartridge.Proofs.Detection

namespace Cartridge

/-! ### The problems of a survey -/

/-- No trace complains about the header. -/
theorem Trace.weakHeader_not_mem_problems (trace : Trace) (points : Nat) :
    Issue.weakHeader points ∉ trace.problems := by
  intro member
  have truncated : Issue.weakHeader points ∉ trace.truncatedAt.toList.map .truncated := by
    intro inside
    obtain ⟨offset, -, same⟩ := List.mem_map.mp inside
    exact nomatch same
  unfold problems at member
  split at member
  · exact truncated member
  · split at member
    · exact absurd member List.not_mem_nil
    · rcases List.mem_append.mp member with ending | unresolved
      · split at ending
        · exact truncated ending
        · exact absurd ending List.not_mem_nil
      · obtain ⟨offset, -, same⟩ := List.mem_map.mp unresolved
        exact nomatch same

namespace Stage

variable {scope : Scope} {budget : Option Nat} {known : Array Issue}

/-- The problems recorded are those known at the start, then those of the merged traces. -/
def Records (known : Array Issue) (stage : Stage) : Prop :=
  stage.survey.issues = known ++ (stage.merged.flatMap Trace.problems).toArray

namespace Records

theorem fresh (issues : Array Issue) (events : Array Event) :
    Records issues ⟨{ issues := issues, events := events }, [], []⟩ := by
  simp [Records]

theorem merge {survey : Survey} {wave rest : List Entry} {merged : List Trace}
    (records : Records known ⟨survey, wave, merged⟩) (trace : Trace) :
    Records known ⟨survey.merge scope.range trace, rest, merged ++ [trace]⟩ := by
  have before : survey.issues = known ++ (merged.flatMap Trace.problems).toArray := records
  rw [Records, Survey.issues_merge, before, List.flatMap_append, List.flatMap_singleton,
    ← List.append_toArray, Array.append_assoc]

theorem move {before after : Stage} (move : Move scope budget before after)
    (records : before.Records known) : after.Records known := by
  cases move with
  | @offer survey merged entry root =>
    rcases Survey.enqueue_cases scope.range survey entry with ⟨-, -, accepted⟩ | ⟨-, refused⟩
    · rw [accepted]
      exact records
    · rwa [refused]
  | launch _ => exact records
  | @merge survey entry wave merged within =>
    have counted : Records known
      ⟨{ survey with decoded := survey.decoded + (Trace.run scope entry).decoded },
        entry :: wave, merged⟩ := records
    exact counted.merge _
  | @cut survey entry wave merged limit exceeding left =>
    have stopped : Records known
      ⟨{ survey with exhausted := true, decoded := limit }, entry :: wave, merged⟩ := records
    exact stopped.merge _
  | refuse _ _ => exact records
  | giveUpWave _ => exact records
  | giveUpQueue _ => exact records

end Records

theorem Course.records {first last : Stage} (course : Course scope budget first last)
    (records : first.Records known) : last.Records known :=
  course.keeps (Records known) Records.move records

end Stage

/-! ### The guess -/

namespace Analysis

variable {options : Options} {image : Image}

/-- The problems of an analysis along the flow of control. -/
theorem issues_recursive (options : Options) (image : Image) (regions : List Region) :
    (recursive options image regions).issues =
      initialIssues options (Profile.read options.layout image) (board options image).wiring ++
        (merged options image regions).flatMap Trace.problems ++
        (if (survey options image regions).exhausted then
          [.exhausted (recursive options image regions).unanalyzed.length] else []) := by
  have records : Stage.Records _ ⟨survey options image regions, [], merged options image regions⟩ :=
    (Stage.course_run _ _ _ _ _ _).records (Stage.Records.fresh _ _)
  have issues : (survey options image regions).issues = _ := records
  show (survey options image regions).issues.toList ++ _ = _
  rw [issues, Array.toList_append]
  rfl

theorem weakHeader_mem_initialIssues_iff {points : Nat} :
    Issue.weakHeader points ∈ initialIssues options (Profile.read options.layout image)
        (board options image).wiring ↔
      options.layout = none ∧ (Detection.detect image).points < 50 ∧
        points = (Detection.detect image).points := by
  have other : Issue.weakHeader points ∉
      (if (board options image).wiring.mappedSize < (board options image).wiring.length then
        [Issue.unmapped ⟨(board options image).wiring.mappedSize,
          (board options image).wiring.length⟩] else []) := by
    split <;> simp
  rw [initialIssues, List.mem_append, or_iff_left other]
  cases layout : options.layout with
  | some layout => simp
  | none =>
    have detected : (Profile.read none image).detection = Detection.detect image := rfl
    simp [detected, Detection.isGuess, Detection.convincingPoints]

/-- A weak header is reported exactly if the layout is detected and the deciding header earns
less than fifty points. -/
theorem weakHeader_mem_issues_iff {points : Nat} :
    Issue.weakHeader points ∈ (run options image).issues ↔
      options.layout = none ∧ (Detection.detect image).points < 50 ∧
        points = (Detection.detect image).points := by
  have exhausted (stopped : Bool) (remaining : Nat) : Issue.weakHeader points ∉
      (if stopped then [Issue.exhausted remaining] else []) := by
    split <;> simp
  rw [← weakHeader_mem_initialIssues_iff]
  cases strategy : options.strategy with
  | recursive =>
    have quiet : Issue.weakHeader points ∉
        (merged options image (scores options image)).flatMap Trace.problems := by
      intro member
      obtain ⟨trace, -, problem⟩ := List.mem_flatMap.mp member
      exact trace.weakHeader_not_mem_problems points problem
    rw [run_of_recursive strategy, issues_recursive, List.mem_append, List.mem_append,
      or_iff_left (exhausted _ _), or_iff_left quiet]
  | linear =>
    rw [run_of_linear strategy]
    show Issue.weakHeader points ∈ initialIssues options _ _ ++ [] ↔ _
    rw [List.append_nil]

theorem layout_board_of_detected (detected : options.layout = none) (image : Image) :
    (board options image).layout = (Detection.detect image).layout := by
  rw [board, detected]
  rfl

/-- The analysis says that it guesses the 32 KiB layout. -/
def Guesses (analysis : Analysis) : Prop :=
  ∃ points, Issue.weakHeader points ∈ analysis.issues

/-- An analysis that detects the layout says that it guesses the 32 KiB layout, and uses another
one, in one case only: the first of the best headers is one of another layout and earns less than
fifty points. -/
theorem guesses_other_layout_iff (options : Options) (image : Image)
    (detected : options.layout = none) :
    ((run options image).Guesses ∧ (board options image).layout ≠ .loRom) ↔
      ∃ best : Finding, best.IsFirstBest (Detection.findings image) ∧
        best.candidate.layout ≠ .loRom ∧ best.points < 50 := by
  have guesses : (run options image).Guesses ↔ (Detection.detect image).points < 50 := by
    simp only [Guesses, weakHeader_mem_issues_iff, detected, true_and, exists_and_left,
      exists_eq, and_true]
  rw [guesses, layout_board_of_detected detected]
  constructor
  · rintro ⟨poor, other⟩
    have large : 0x8000 ≤ image.size := by
      by_contra small
      rw [Detection.detect_of_small (Nat.lt_of_not_le small)] at other
      exact other rfl
    obtain ⟨best, found⟩ := Detection.exists_best?_of_large large
    rw [Detection.detect_of_best? found] at poor other
    exact ⟨best, Finding.isFirstBest_of_best? found,
      fun own => other ((Detection.widen_eq_loRom_iff _ _).mpr own), poor⟩
  · rintro ⟨best, first, other, poor⟩
    rw [Detection.detect_of_best? (Finding.best?_of_isFirstBest first)]
    exact ⟨poor, fun same => other ((Detection.widen_eq_loRom_iff _ _).mp same)⟩

/-- The map mode of the 64 KiB layout in its place. -/
def loneMode : List (Nat × UInt8) :=
  [(0xFFD5, 0x21)]

/-- An image of zeros but for this map mode. -/
def poorImage : Image :=
  .sparse 0x10000 loneMode

theorem detect_of_isSparse_loneMode {image : Image} (mode : image.IsSparse 0x10000 loneMode) :
    Detection.detect image = ⟨.hiRom, 20, 5, 20, some 0xFFC0, false⟩ := by
  unfold Detection.detect Detection.bestFor? Candidate.finding? Header.read? Detection.widen
  simp only [Image.word?, mode.byte, mode.size]
  decide +kernel

theorem detect_poorImage :
    Detection.detect poorImage = ⟨.hiRom, 20, 5, 20, some 0xFFC0, false⟩ :=
  detect_of_isSparse_loneMode (Image.isSparse_sparse _ _)

theorem guesses_poorImage : (run {} poorImage).Guesses ∧ (board {} poorImage).layout = .hiRom := by
  refine ⟨⟨20, weakHeader_mem_issues_iff.mpr ⟨rfl, ?_⟩⟩, ?_⟩
  · rw [detect_poorImage]
    exact ⟨by decide, rfl⟩
  · rw [layout_board_of_detected rfl, detect_poorImage]

/-- Not every analysis that says that it guesses the 32 KiB layout uses this layout. -/
theorem guessed_hiRom : ¬ ∀ (options : Options) (image : Image), options.layout = none →
    (run options image).Guesses → (board options image).layout = .loRom := by
  intro every
  obtain ⟨guesses, layout⟩ := guesses_poorImage
  exact nomatch layout.symm.trans (every {} poorImage rfl guesses)

theorem guesses_other_layout_iff_poor : (({} : Options).layout = none) ∧
    ∃ best : Finding, best.IsFirstBest (Detection.findings poorImage) ∧
      best.candidate.layout ≠ .loRom ∧ best.points < 50 := by
  obtain ⟨guesses, layout⟩ := guesses_poorImage
  refine ⟨rfl, (guesses_other_layout_iff {} poorImage rfl).mp ⟨guesses, ?_⟩⟩
  rw [layout]
  decide

end Analysis

end Cartridge
