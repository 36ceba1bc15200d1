/-
This file says what a survey can do from one moment to the next, and proves that a survey
does nothing else. A stage is a survey together with the entries of the wave under way and
the traces that were merged so far, oldest first. A survey runs through stages by a few
moves: it offers a root entry, starts a wave, merges the trace of the next entry of the
wave, cuts or refuses it when it exceeds the budget, and gives up entries once the budget
has run out. What every move keeps therefore holds throughout a survey.
-/

import Cartridge.Proofs.Survey.Merge
import Cartridge.Proofs.Trace
import Mathlib.Logic.Relation

namespace Cartridge

/-! ### Moves -/

/-- The entries at which a survey begins: those that no trace leads to. -/
inductive Entry.IsRoot : Entry → Prop
  | entryPoint (offset : Nat) : IsRoot ⟨offset, {}, .entryPoint⟩
  | handler (offset : Nat) (interrupt : Interrupt) :
      IsRoot ⟨offset, Survey.handlerState interrupt, .vector interrupt⟩
  | region (offset : Nat) : IsRoot ⟨offset, {}, .region⟩
  | fallback (offset : Nat) : IsRoot ⟨offset, Processor.interrupted, .fallback⟩

/-- A survey between two moves. -/
structure Stage where
  survey : Survey
  /-- The entries of the wave under way that are still to be merged. -/
  wave : List Entry
  /-- The traces merged so far, oldest first. -/
  merged : List Trace

/-- Starts a wave: the queue is emptied, and the wave and its walks are reported. -/
def Survey.launch (scope : Scope) (survey : Survey) : Survey :=
  { survey with
    queue := []
    waves := survey.waves + 1
    events := survey.events.push (.wave (survey.waves + 1) survey.nextWave.length) ++
      (survey.nextWave.map (Trace.run scope)).flatMap Survey.walkEvents }

namespace Stage

/-- What a survey can do next. -/
inductive Move (scope : Scope) (budget : Option Nat) : Stage → Stage → Prop
  /-- Between waves, a root entry is offered. -/
  | offer {survey : Survey} {merged : List Trace} {entry : Entry} (root : entry.IsRoot) :
      Move scope budget ⟨survey, [], merged⟩ ⟨survey.enqueue scope.range entry, [], merged⟩
  /-- The queue becomes the next wave. -/
  | launch {survey : Survey} {merged : List Trace} (going : survey.exhausted = false) :
      Move scope budget ⟨survey, [], merged⟩ ⟨survey.launch scope, survey.nextWave, merged⟩
  /-- The trace of the next entry stays within the budget and is merged. -/
  | merge {survey : Survey} {entry : Entry} {wave : List Entry} {merged : List Trace}
      (within : survey.exceeds budget (Trace.run scope entry) = none) :
      Move scope budget ⟨survey, entry :: wave, merged⟩
        ⟨{ survey with decoded := survey.decoded + (Trace.run scope entry).decoded }.merge
          scope.range (Trace.run scope entry), wave, merged ++ [Trace.run scope entry]⟩
  /-- The trace of the next entry exceeds the budget; as much of it as is left is merged. -/
  | cut {survey : Survey} {entry : Entry} {wave : List Entry} {merged : List Trace} {limit : Nat}
      (exceeding : survey.exceeds budget (Trace.run scope entry) = some limit)
      (left : limit - survey.decoded ≠ 0) :
      Move scope budget ⟨survey, entry :: wave, merged⟩
        ⟨{ survey with exhausted := true, decoded := limit }.merge scope.range
            ((Trace.run scope entry).cut (limit - survey.decoded)), wave,
          merged ++ [(Trace.run scope entry).cut (limit - survey.decoded)]⟩
  /-- The trace of the next entry exceeds the budget, of which nothing is left. -/
  | refuse {survey : Survey} {entry : Entry} {wave : List Entry} {merged : List Trace}
      {limit : Nat} (exceeding : survey.exceeds budget (Trace.run scope entry) = some limit)
      (nothing : limit - survey.decoded = 0) :
      Move scope budget ⟨survey, entry :: wave, merged⟩
        ⟨{ survey with exhausted := true }.abandon [entry.offset], wave, merged⟩
  /-- The budget has run out; the rest of the wave is given up. -/
  | giveUpWave {survey : Survey} {wave : List Entry} {merged : List Trace}
      (stopped : survey.exhausted = true) :
      Move scope budget ⟨survey, wave, merged⟩
        ⟨survey.abandon (wave.map Entry.offset), [], merged⟩
  /-- The budget has run out; what is queued is given up. -/
  | giveUpQueue {survey : Survey} {merged : List Trace} (stopped : survey.exhausted = true) :
      Move scope budget ⟨survey, [], merged⟩
        ⟨{ survey with queue := [] }.abandon (survey.nextWave.map Entry.offset), [], merged⟩

/-- A survey goes from one stage to another in any number of moves. -/
def Course (scope : Scope) (budget : Option Nat) : Stage → Stage → Prop :=
  Relation.ReflTransGen (Move scope budget)

/-- What every move keeps, every course keeps. -/
theorem Course.keeps {scope : Scope} {budget : Option Nat} (Holds : Stage → Prop)
    (moves : ∀ {before after}, Move scope budget before after → Holds before → Holds after)
    {first last : Stage} (course : Course scope budget first last) (holds : Holds first) :
    Holds last := by
  induction course with
  | refl => exact holds
  | tail _ move inductionHypothesis => exact moves move inductionHypothesis

end Stage

/-! ### The traces merged -/

namespace Survey

/-- The traces that merging the traces of a wave takes in. -/
def mergedAll (range : Span) (budget : Option Nat) (survey : Survey) : List Trace → List Trace
  | [] => []
  | trace :: rest =>
    match survey.exceeds budget trace with
    | some budget =>
      let remaining := budget - survey.decoded
      if remaining = 0 then [] else [trace.cut remaining]
    | none =>
      trace :: mergedAll range budget
        ({ survey with decoded := survey.decoded + trace.decoded }.merge range trace) rest

/-- The traces that handling a wave merges. -/
def mergedInWave (scope : Scope) (budget : Option Nat) (survey : Survey) : List Trace :=
  if survey.exhausted then []
  else (survey.launch scope).mergedAll scope.range budget
    (survey.nextWave.map (Trace.run scope))

/-- The traces that handling up to `count` waves merges. -/
def mergedInWaves (scope : Scope) (budget : Option Nat) : (count : Nat) → Survey → List Trace
  | 0, _ => []
  | count + 1, survey =>
    if survey.queue.isEmpty then []
    else survey.mergedInWave scope budget ++
      mergedInWaves scope budget count (survey.handleWave scope budget)

/-- The traces that handling waves until no entry is queued merges. -/
def mergedInDrain (scope : Scope) (budget : Option Nat) (survey : Survey) : List Trace :=
  survey.mergedInWaves scope budget (scope.range.size + 2)

/-- The traces that trying a window merges. -/
def mergedInRegion (scope : Scope) (budget : Option Nat) (survey : Survey) (window : Span) :
    List Trace :=
  if survey.exhausted || survey.isCovered window then []
  else (survey.enqueue scope.range ⟨window.start, {}, .region⟩).mergedInDrain scope budget

/-- The traces that trying windows in turn merges. -/
def mergedInRegions (scope : Scope) (budget : Option Nat) (survey : Survey) :
    List Span → List Trace
  | [] => []
  | window :: rest =>
    survey.mergedInRegion scope budget window ++
      mergedInRegions scope budget (survey.tryRegion scope budget window) rest

/-- The traces that trying the start of the range merges. -/
def mergedInFallback (scope : Scope) (budget : Option Nat) (survey : Survey) : List Trace :=
  if survey.seen.isEmpty then
    (survey.enqueue scope.range
      ⟨scope.range.start, Processor.interrupted, .fallback⟩).mergedInDrain scope budget
  else []

/-- The traces that a survey merges, in order. -/
def mergedInRun (scope : Scope) (budget : Option Nat) (entryPoints : List Address)
    (handlers : List Handler) (windows : List Span) (begun : Survey) : List Trace :=
  let seeded := (begun.seedEntryPoints scope entryPoints).seedHandlers scope handlers
  let drained := seeded.drain scope budget
  seeded.mergedInDrain scope budget ++ drained.mergedInRegions scope budget windows ++
    (windows.foldl (tryRegion scope budget) drained).mergedInFallback scope budget

end Survey

/-! ### A survey is a course -/

theorem Survey.seedEntryPoints_eq_accept (scope : Scope) (survey : Survey)
    (addresses : List Address) :
    survey.seedEntryPoints scope addresses =
      survey.accept scope.range (addresses.filterMap fun address =>
        (scope.board.wiring.offset? address).map fun offset => ⟨offset, {}, .entryPoint⟩) := by
  refine foldl_eq_accept (fun survey address => ?_) survey addresses
  cases scope.board.wiring.offset? address <;> rfl

theorem Survey.seedHandlers_eq_accept (scope : Scope) (survey : Survey)
    (handlers : List Handler) :
    survey.seedHandlers scope handlers =
      survey.accept scope.range (handlers.filterMap fun handler => handler.offset.map fun offset =>
        ⟨offset, handlerState handler.interrupt, .vector handler.interrupt⟩) := by
  refine foldl_eq_accept (fun survey handler => ?_) survey handlers
  cases handler.offset <;> rfl

namespace Stage

variable (scope : Scope) (budget : Option Nat)

theorem course_accept (survey : Survey) (merged : List Trace) {entries : List Entry}
    (roots : ∀ entry ∈ entries, entry.IsRoot) :
    Course scope budget ⟨survey, [], merged⟩ ⟨survey.accept scope.range entries, [], merged⟩ := by
  refine Survey.accept_invariant
    (fun after => Course scope budget ⟨survey, [], merged⟩ ⟨after, [], merged⟩) ?_ .refl
  intro after entry member course
  exact course.tail (.offer (roots entry member))

theorem course_seedEntryPoints (survey : Survey) (merged : List Trace)
    (addresses : List Address) :
    Course scope budget ⟨survey, [], merged⟩
      ⟨survey.seedEntryPoints scope addresses, [], merged⟩ := by
  rw [Survey.seedEntryPoints_eq_accept]
  refine course_accept scope budget survey merged fun entry member => ?_
  obtain ⟨address, -, made⟩ := List.mem_filterMap.mp member
  obtain ⟨offset, -, rfl⟩ := Option.map_eq_some_iff.mp made
  exact .entryPoint offset

theorem course_seedHandlers (survey : Survey) (merged : List Trace) (handlers : List Handler) :
    Course scope budget ⟨survey, [], merged⟩
      ⟨survey.seedHandlers scope handlers, [], merged⟩ := by
  rw [Survey.seedHandlers_eq_accept]
  refine course_accept scope budget survey merged fun entry member => ?_
  obtain ⟨handler, -, made⟩ := List.mem_filterMap.mp member
  obtain ⟨offset, -, rfl⟩ := Option.map_eq_some_iff.mp made
  exact .handler offset handler.interrupt

theorem course_mergeAll (survey : Survey) (wave : List Entry) (merged : List Trace) :
    Course scope budget ⟨survey, wave, merged⟩
      ⟨survey.mergeAll scope.range budget (wave.map (Trace.run scope)), [],
        merged ++ survey.mergedAll scope.range budget (wave.map (Trace.run scope))⟩ := by
  induction wave generalizing survey merged with
  | nil =>
    rw [List.map_nil, Survey.mergeAll, Survey.mergedAll, List.append_nil]
    exact .refl
  | cons entry wave inductionHypothesis =>
    have offsets : (wave.map (Trace.run scope)).map (fun trace => trace.entry.offset) =
        wave.map Entry.offset := by
      rw [List.map_map]
      exact List.map_congr_left fun entry _ => congrArg Entry.offset (Trace.entry_run scope entry)
    rw [List.map_cons, Survey.mergeAll, Survey.mergedAll]
    cases exceeding : survey.exceeds budget (Trace.run scope entry) with
    | none =>
      have rest := inductionHypothesis
        ({ survey with decoded := survey.decoded + (Trace.run scope entry).decoded }.merge
          scope.range (Trace.run scope entry)) (merged ++ [Trace.run scope entry])
      rw [List.append_assoc, List.singleton_append] at rest
      exact .head (.merge exceeding) rest
    | some limit =>
      simp only [Survey.mergeCut, offsets]
      split
      · rename_i nothing
        refine Relation.ReflTransGen.head (.refuse exceeding nothing) ?_
        rw [Trace.entry_run, List.append_nil]
        exact .single (.giveUpWave rfl)
      · rename_i left
        refine Relation.ReflTransGen.head (.cut exceeding left) ?_
        exact .single (.giveUpWave (Survey.exhausted_merge _ _ _))

theorem course_handleWave (survey : Survey) (merged : List Trace) :
    Course scope budget ⟨survey, [], merged⟩
      ⟨survey.handleWave scope budget, [], merged ++ survey.mergedInWave scope budget⟩ := by
  rw [Survey.handleWave, Survey.mergedInWave]
  by_cases stopped : survey.exhausted = true
  · rw [if_pos stopped, if_pos stopped, List.append_nil]
    exact .single (.giveUpQueue stopped)
  · rw [if_neg stopped, if_neg stopped]
    exact .head (.launch (Bool.not_eq_true _ ▸ stopped)) (course_mergeAll scope budget _ _ _)

theorem course_handleWaves (count : Nat) (survey : Survey) (merged : List Trace) :
    Course scope budget ⟨survey, [], merged⟩
      ⟨survey.handleWaves scope budget count, [],
        merged ++ survey.mergedInWaves scope budget count⟩ := by
  induction count generalizing survey merged with
  | zero =>
    rw [Survey.handleWaves, Survey.mergedInWaves, List.append_nil]
    exact .refl
  | succ count inductionHypothesis =>
    rw [Survey.handleWaves, Survey.mergedInWaves]
    split
    · rw [List.append_nil]
      exact .refl
    · rw [← List.append_assoc]
      exact (course_handleWave scope budget survey merged).trans (inductionHypothesis _ _)

theorem course_drain (survey : Survey) (merged : List Trace) :
    Course scope budget ⟨survey, [], merged⟩
      ⟨survey.drain scope budget, [], merged ++ survey.mergedInDrain scope budget⟩ :=
  course_handleWaves scope budget _ survey merged

theorem course_tryRegion (survey : Survey) (merged : List Trace) (window : Span) :
    Course scope budget ⟨survey, [], merged⟩
      ⟨survey.tryRegion scope budget window, [],
        merged ++ survey.mergedInRegion scope budget window⟩ := by
  rw [Survey.tryRegion, Survey.mergedInRegion]
  split
  · rw [List.append_nil]
    exact .refl
  · exact .head (.offer (.region window.start)) (course_drain scope budget _ _)

theorem course_tryRegions (survey : Survey) (merged : List Trace) (windows : List Span) :
    Course scope budget ⟨survey, [], merged⟩
      ⟨windows.foldl (Survey.tryRegion scope budget) survey, [],
        merged ++ survey.mergedInRegions scope budget windows⟩ := by
  induction windows generalizing survey merged with
  | nil =>
    rw [Survey.mergedInRegions, List.append_nil]
    exact .refl
  | cons window rest inductionHypothesis =>
    rw [List.foldl_cons, Survey.mergedInRegions, ← List.append_assoc]
    exact (course_tryRegion scope budget survey merged window).trans (inductionHypothesis _ _)

theorem course_tryFallback (survey : Survey) (merged : List Trace) :
    Course scope budget ⟨survey, [], merged⟩
      ⟨survey.tryFallback scope budget, [],
        merged ++ survey.mergedInFallback scope budget⟩ := by
  rw [Survey.tryFallback, Survey.mergedInFallback]
  split
  · exact .head (.offer (.fallback scope.range.start)) (course_drain scope budget _ _)
  · rw [List.append_nil]
    exact .refl

theorem course_seeded (begun : Survey) (merged : List Trace) (entryPoints : List Address)
    (handlers : List Handler) :
    Course scope budget ⟨begun, [], merged⟩
      ⟨(begun.seedEntryPoints scope entryPoints).seedHandlers scope handlers, [], merged⟩ :=
  (course_seedEntryPoints scope budget begun merged entryPoints).trans
    (course_seedHandlers scope budget _ _ handlers)

/-- A survey is a course of moves from its beginning, and the traces merged on the way are
those that the survey merges. -/
theorem course_run (entryPoints : List Address) (handlers : List Handler) (windows : List Span)
    (begun : Survey) :
    Course scope budget ⟨begun, [], []⟩
      ⟨begun.run scope budget entryPoints handlers windows, [],
        begun.mergedInRun scope budget entryPoints handlers windows⟩ := by
  have drained := (course_seeded scope budget begun [] entryPoints handlers).trans
    (course_drain scope budget _ _)
  have tried := drained.trans (course_tryRegions scope budget _ _ windows)
  exact tried.trans (course_tryFallback scope budget _ _)

end Stage

end Cartridge
