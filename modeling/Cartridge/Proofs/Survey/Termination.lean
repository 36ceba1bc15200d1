/-
This file proves that a survey comes to an end. The loop over the waves is described once
more without a bound on their number: as long as an entry is queued, the queue becomes a wave,
all of whose traces end, and what they lead to is queued in turn. From every stage that a
survey can come to the loop ends, with the survey that the bounded recursion computes. Merging
refills the queue while the loop runs, but what was traced is merged or given up afterwards,
and an offset of the range is merged or given up only once. So no offset is traced twice,
neither in one loop nor in a whole survey.
-/

import Cartridge.Proofs.Survey.Placement
import Cartridge.Proofs.Termination

namespace Cartridge

namespace Survey

/-! ### The loops of a survey -/

/-- The entries that are traced when the queue is handled: none once the budget has run
out. -/
def traced (survey : Survey) : List Entry :=
  if survey.exhausted then [] else survey.nextWave

/-- The traces of the next wave end. -/
def WaveEnds (scope : Scope) (survey : Survey) : Prop :=
  ∀ entry ∈ survey.traced, ∃ walks, Trace.Ends scope entry walks (Trace.run scope entry)

/-- A survey handles waves, in which it traces some entries, until no entry is queued. -/
inductive Drains (scope : Scope) (budget : Option Nat) : Survey → List Entry → Survey → Prop
  | idle {survey : Survey} (empty : survey.queue = []) : Drains scope budget survey [] survey
  | wave {survey last : Survey} {later : List Entry} (waiting : survey.queue ≠ [])
      (ends : survey.WaveEnds scope)
      (goes : Drains scope budget (survey.handleWave scope budget) later last) :
      Drains scope budget survey (survey.traced ++ later) last

/-- A survey tries windows in turn. -/
inductive Tries (scope : Scope) (budget : Option Nat) :
    Survey → List Span → List Entry → Survey → Prop
  | done {survey : Survey} : Tries scope budget survey [] [] survey
  | skip {survey last : Survey} {window : Span} {windows : List Span} {later : List Entry}
      (needless : (survey.exhausted || survey.isCovered window) = true)
      (goes : Tries scope budget survey windows later last) :
      Tries scope budget survey (window :: windows) later last
  | drain {survey next last : Survey} {window : Span} {windows : List Span}
      {first later : List Entry}
      (needed : (survey.exhausted || survey.isCovered window) = false)
      (drains : Drains scope budget (survey.enqueue scope.range ⟨window.start, {}, .region⟩)
        first next)
      (goes : Tries scope budget next windows later last) :
      Tries scope budget survey (window :: windows) (first ++ later) last

/-- A survey tries the start of the range if no entry was ever accepted. -/
inductive Falls (scope : Scope) (budget : Option Nat) : Survey → List Entry → Survey → Prop
  | skip {survey : Survey} (needless : survey.seen.isEmpty = false) :
      Falls scope budget survey [] survey
  | drain {survey last : Survey} {traced : List Entry} (needed : survey.seen.isEmpty = true)
      (drains : Drains scope budget
        (survey.enqueue scope.range ⟨scope.range.start, Processor.interrupted, .fallback⟩)
        traced last) :
      Falls scope budget survey traced last

/-- A survey runs from its beginning to its end and traces some entries on the way. -/
def Runs (scope : Scope) (budget : Option Nat) (entryPoints : List Address)
    (handlers : List Handler) (windows : List Span) (begun : Survey) (traced : List Entry)
    (last : Survey) : Prop :=
  ∃ first second third drained tried,
    Drains scope budget ((begun.seedEntryPoints scope entryPoints).seedHandlers scope handlers)
      first drained ∧
    Tries scope budget drained windows second tried ∧
    Falls scope budget tried third last ∧ traced = first ++ (second ++ third)

variable {scope : Scope} {budget : Option Nat} {survey : Survey} {merged : List Trace}

/-! ### The loops end -/

/-- Every entry that is queued or in the wave under way lies in the range. -/
theorem contains_of_waiting {stage : Stage} (placed : stage.Placed scope) {entry : Entry}
    (waiting : entry ∈ stage.survey.queue ++ stage.wave) :
    scope.range.contains entry.offset = true := by
  refine placed.inside (placed.marked.mpr ?_)
  rw [Stage.offsets, ← List.map_append]
  exact List.mem_append_left _ (List.mem_append_left _ (List.mem_map_of_mem waiting))

theorem waveEnds (placed : Stage.Placed scope ⟨survey, [], merged⟩) : survey.WaveEnds scope := by
  intro entry member
  unfold traced at member
  split at member
  · exact absurd member List.not_mem_nil
  · have queued : entry ∈ survey.queue ++ [] :=
      List.mem_append_left _ (List.mem_mergeSort.mp member)
    exact ⟨_, Trace.ends_run (contains_of_waiting placed queued)⟩

theorem drains_handleWaves (placed : Stage.Placed scope ⟨survey, [], merged⟩) {count : Nat}
    (empty : (survey.handleWaves scope budget count).queue = []) :
    ∃ traced, Drains scope budget survey traced (survey.handleWaves scope budget count) := by
  induction count generalizing survey merged with
  | zero => exact ⟨[], .idle empty⟩
  | succ count inductionHypothesis =>
    rw [handleWaves] at empty ⊢
    split
    · rename_i none
      exact ⟨[], .idle (List.isEmpty_iff.mp none)⟩
    · rename_i waiting
      rw [if_neg waiting] at empty
      have handled := (Stage.course_handleWave scope budget survey merged).placed placed
      obtain ⟨later, goes⟩ := inductionHypothesis handled empty
      exact ⟨_, .wave (mt List.isEmpty_iff.mpr waiting) (waveEnds placed) goes⟩

/-- The loop over the waves ends. -/
theorem drains_drain (placed : Stage.Placed scope ⟨survey, [], merged⟩) :
    ∃ traced, Drains scope budget survey traced (survey.drain scope budget) :=
  drains_handleWaves placed (queue_drain placed)

theorem tries_tryRegions (placed : Stage.Placed scope ⟨survey, [], merged⟩)
    (windows : List Span) :
    ∃ traced, Tries scope budget survey windows traced
      (windows.foldl (tryRegion scope budget) survey) := by
  induction windows generalizing survey merged with
  | nil => exact ⟨[], .done⟩
  | cons window rest inductionHypothesis =>
    have tried := (Stage.course_tryRegion scope budget survey merged window).placed placed
    obtain ⟨later, goes⟩ := inductionHypothesis tried
    rw [List.foldl_cons]
    cases needless : survey.exhausted || survey.isCovered window with
    | true =>
      rw [tryRegion, if_pos needless] at goes ⊢
      exact ⟨later, .skip needless goes⟩
    | false =>
      rw [tryRegion, if_neg (Bool.not_eq_true _ ▸ needless)] at goes ⊢
      obtain ⟨first, drains⟩ := drains_drain (placed.enqueue ⟨window.start, {}, .region⟩)
      exact ⟨_, .drain needless drains goes⟩

theorem falls_tryFallback (placed : Stage.Placed scope ⟨survey, [], merged⟩) :
    ∃ traced, Falls scope budget survey traced (survey.tryFallback scope budget) := by
  rw [tryFallback]
  cases needed : survey.seen.isEmpty with
  | false => exact ⟨[], .skip needed⟩
  | true =>
    obtain ⟨traced, drains⟩ := drains_drain
      (placed.enqueue ⟨scope.range.start, Processor.interrupted, .fallback⟩)
    exact ⟨traced, .drain needed drains⟩

/-- A survey runs to its end. -/
theorem runs_run {begun : Survey} (placed : Stage.Placed scope ⟨begun, [], []⟩)
    (entryPoints : List Address) (handlers : List Handler) (windows : List Span) :
    ∃ traced, Runs scope budget entryPoints handlers windows begun traced
      (begun.run scope budget entryPoints handlers windows) := by
  have seeded := (Stage.course_seeded scope budget begun [] entryPoints handlers).placed placed
  obtain ⟨first, drains⟩ := drains_drain seeded
  have drained := (Stage.course_drain scope budget _ _).placed seeded
  obtain ⟨second, tries⟩ := tries_tryRegions drained windows
  have tried := (Stage.course_tryRegions scope budget _ _ windows).placed drained
  obtain ⟨third, falls⟩ := falls_tryFallback tried
  exact ⟨_, first, second, third, _, _, drains, tries, falls, rfl⟩

/-! ### Nothing is traced twice -/

/-- A survey comes from one moment to another, and what it traces on the way it merges or
gives up. -/
def Handles (scope : Scope) (budget : Option Nat) (survey : Survey) (traced : List Entry)
    (last : Survey) : Prop :=
  ∀ merged : List Trace, ∃ more : List Trace,
    Stage.Course scope budget ⟨survey, [], merged⟩ ⟨last, [], merged ++ more⟩ ∧
      (traced.map Entry.offset ++ survey.unanalyzed.toList).Subperm
        (more.map (fun trace => trace.entry.offset) ++ last.unanalyzed.toList)

namespace Handles

theorem refl (survey : Survey) : Handles scope budget survey [] survey := by
  intro merged
  refine ⟨[], ?_, List.Subperm.refl _⟩
  rw [List.append_nil]
  exact .refl

theorem trans {next last : Survey} {first later : List Entry}
    (begins : Handles scope budget survey first next)
    (goes : Handles scope budget next later last) :
    Handles scope budget survey (first ++ later) last := by
  intro merged
  obtain ⟨more, course, handled⟩ := begins merged
  obtain ⟨most, rest, finished⟩ := goes (merged ++ more)
  refine ⟨more ++ most, List.append_assoc merged more most ▸ course.trans rest, ?_⟩
  refine List.subperm_ext_iff.mpr fun offset _ => ?_
  have before := handled.count_le offset
  have after := finished.count_le offset
  simp only [List.map_append, List.count_append] at before after ⊢
  omega

/-- A root entry is accepted between waves. -/
theorem enqueue {entry : Entry} (root : entry.IsRoot) (survey : Survey) :
    Handles scope budget survey [] (survey.enqueue scope.range entry) := by
  intro merged
  refine ⟨[], ?_, ?_⟩
  · rw [List.append_nil]
    exact .single (.offer root)
  · rcases enqueue_cases scope.range survey entry with ⟨-, -, accepted⟩ | ⟨-, refused⟩
    · rw [accepted]
      exact List.Subperm.refl _
    · rw [refused]
      exact List.Subperm.refl _

theorem handleWave (scope : Scope) (budget : Option Nat) (survey : Survey) :
    Handles scope budget survey survey.traced (survey.handleWave scope budget) := by
  intro merged
  refine ⟨_, Stage.course_handleWave scope budget survey merged, ?_⟩
  refine List.Subperm.trans ?_ (handled_handleWave scope budget survey).symm.subperm
  have wave := Stage.nextWave_perm survey
  rw [traced]
  split
  · exact (List.sublist_append_left _ _).subperm
  · exact (List.perm_append_comm.trans (wave.append_left _)).subperm

end Handles

theorem Drains.handles {last : Survey} {traced : List Entry}
    (drains : Drains scope budget survey traced last) :
    Handles scope budget survey traced last := by
  induction drains with
  | idle _ => exact .refl _
  | wave _ _ _ inductionHypothesis => exact (Handles.handleWave _ _ _).trans inductionHypothesis

theorem Tries.handles {last : Survey} {windows : List Span} {traced : List Entry}
    (tries : Tries scope budget survey windows traced last) :
    Handles scope budget survey traced last := by
  induction tries with
  | done => exact .refl _
  | skip _ _ inductionHypothesis => exact inductionHypothesis
  | @drain survey next last window windows first later _ drains _ inductionHypothesis =>
    exact ((Handles.enqueue (.region window.start) survey).trans drains.handles).trans
      inductionHypothesis

theorem Falls.handles {last : Survey} {traced : List Entry}
    (falls : Falls scope budget survey traced last) :
    Handles scope budget survey traced last := by
  cases falls with
  | skip _ => exact .refl _
  | drain _ drains =>
    exact (Handles.enqueue (.fallback scope.range.start) survey).trans drains.handles

/-- The entries of the caller and the handlers are accepted before the first wave. -/
theorem handles_seeded (scope : Scope) (budget : Option Nat) (begun : Survey)
    (entryPoints : List Address) (handlers : List Handler) :
    Handles scope budget begun []
      ((begun.seedEntryPoints scope entryPoints).seedHandlers scope handlers) := by
  intro merged
  refine ⟨[], ?_, ?_⟩
  · rw [List.append_nil]
    exact Stage.course_seeded scope budget begun merged entryPoints handlers
  · rw [seedHandlers_eq_accept, seedEntryPoints_eq_accept, unanalyzed_accept,
      unanalyzed_accept]
    exact List.Subperm.refl _

/-- A whole survey traces no offset twice, and only offsets of the range. -/
theorem Runs.nodup {begun last : Survey} {entryPoints : List Address} {handlers : List Handler}
    {windows : List Span} {traced : List Entry} (placed : Stage.Placed scope ⟨begun, [], []⟩)
    (runs : Runs scope budget entryPoints handlers windows begun traced last) :
    (traced.map Entry.offset).Nodup ∧
      ∀ entry ∈ traced, scope.range.contains entry.offset = true := by
  obtain ⟨first, second, third, drained, tried, drains, tries, falls, rfl⟩ := runs
  have seeded := handles_seeded scope budget begun entryPoints handlers
  obtain ⟨merged, course, handled⟩ :=
    (seeded.trans (drains.handles.trans (tries.handles.trans falls.handles))) []
  have ended := course.placed placed
  have accepted : (merged.map (fun trace => trace.entry.offset) ++
      last.unanalyzed.toList).Sublist (Stage.offsets ⟨last, [], merged⟩) := by
    rw [Stage.offsets, List.append_assoc _ (List.map _ merged)]
    exact List.sublist_append_right _ _
  have within := List.Subperm.trans (List.sublist_append_left _ _).subperm handled
  refine ⟨?_, fun entry member => ?_⟩
  · obtain ⟨same, permuted, part⟩ := within
    exact permuted.nodup_iff.mp ((ended.once.sublist accepted).sublist part)
  · refine ended.inside (ended.marked.mpr (accepted.subset (within.subset ?_)))
    exact List.mem_map_of_mem member

end Survey

end Cartridge
