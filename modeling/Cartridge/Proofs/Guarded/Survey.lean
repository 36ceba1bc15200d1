/-
This file guards a survey: the count of instructions against the budget, the count of waves, the
merging of traces, the seeds and the range of offsets in which coverage is looked for. Each
guard follows from what the stages of the survey keep. Every wave handles at least one entry,
so there are no more waves than offsets in the range.
-/

import Cartridge.Proofs.Guarded.Stage

namespace Cartridge

/-! ### The number of waves -/

namespace Survey

@[simp]
theorem waves_merge (range : Span) (survey : Survey) (trace : Trace) :
    (survey.merge range trace).waves = survey.waves := by
  rw [merge_eq, accept_eq]

theorem waves_mergeAll (range : Span) (budget : Option Nat) (survey : Survey)
    (traces : List Trace) : (survey.mergeAll range budget traces).waves = survey.waves := by
  induction traces generalizing survey with
  | nil => rfl
  | cons trace rest inductionHypothesis =>
    rw [mergeAll]
    split
    · rw [mergeCut]
      simp only
      split
      · rfl
      · exact waves_merge _ _ _
    · rw [inductionHypothesis, waves_merge]

theorem waves_handleWave_le (scope : Scope) (budget : Option Nat) (survey : Survey) :
    (survey.handleWave scope budget).waves ≤ survey.waves + 1 := by
  rw [handleWave]
  split
  · exact Nat.le_succ _
  · exact Nat.le_of_eq (waves_mergeAll _ _ _ _)

/-- A survey between two waves whose guards do not fail: its stage keeps to what the guards
need, and each of its waves has handled an entry. -/
def Ready (scope : Scope) (budget : Option Nat) (survey : Survey) : Prop :=
  ∃ merged, Stage.Fits scope budget ⟨survey, [], merged⟩ ∧
    survey.waves ≤ merged.length + survey.unanalyzed.size

namespace Ready

variable {scope : Scope} {budget : Option Nat} {survey : Survey}

theorem fresh (issues : Array Issue) (events : Array Event) :
    Ready scope budget { issues := issues, events := events } :=
  ⟨[], .fresh issues events, Nat.le_refl _⟩

theorem enqueue (fits : scope.Fits) (ready : survey.Ready scope budget) {entry : Entry}
    (root : entry.IsRoot) : (survey.enqueue scope.range entry).Ready scope budget := by
  obtain ⟨merged, stage, waves⟩ := ready
  refine ⟨merged, stage.move fits (.offer root), ?_⟩
  rw [show survey.enqueue scope.range entry = survey.accept scope.range [entry] from rfl, accept_eq]
  exact waves

theorem seeded (fits : scope.Fits) (ready : survey.Ready scope budget)
    (entryPoints : List Address) (handlers : List Handler) :
    ((survey.seedEntryPoints scope entryPoints).seedHandlers scope handlers).Ready scope
      budget := by
  obtain ⟨merged, stage, waves⟩ := ready
  have course := Stage.course_seeded scope budget survey merged entryPoints handlers
  refine ⟨merged, course.keeps (Stage.Fits scope budget) (Stage.Fits.move fits) stage, ?_⟩
  rw [seedHandlers_eq_accept, seedEntryPoints_eq_accept, ← accept_append, accept_eq]
  exact waves

/-- Every queued entry is merged or given up with its wave. -/
theorem handleWave (fits : scope.Fits) (ready : survey.Ready scope budget)
    (waiting : survey.queue ≠ []) : (survey.handleWave scope budget).Ready scope budget := by
  obtain ⟨merged, stage, waves⟩ := ready
  have course := Stage.course_handleWave scope budget survey merged
  refine ⟨_, course.keeps (Stage.Fits scope budget) (Stage.Fits.move fits) stage, ?_⟩
  have handled := (handled_handleWave scope budget survey).length_eq
  have more := waves_handleWave_le scope budget survey
  have positive := List.length_pos_iff.mpr waiting
  simp only [List.length_append, List.length_map, Array.length_toList] at handled ⊢
  omega

end Ready

end Survey

namespace Guarded

/-! ### Merging -/

/-- Merges the trace that exceeds a budget, guarded. -/
def mergeCut (range : Span) (budget : Nat) (survey : Survey) (trace : Trace) :
    Guarded Survey := do
  let remaining ← sub budget survey.decoded
  if remaining = 0 then return survey.mergeCut range budget trace
  else merge range { survey with exhausted := true, decoded := budget } (trace.cut remaining)

/-- Merges the traces of a wave in order until one of them exceeds the budget, guarded. -/
def mergeAll (range : Span) (budget : Option Nat) (survey : Survey) :
    List Trace → Guarded Survey
  | [] => return survey
  | trace :: rest => do
    let decoded ← add 64 survey.decoded trace.decoded
    match survey.exceeds budget trace with
    | some limit => do
      let merged ← mergeCut range limit survey trace
      return merged.abandon (rest.map fun trace => trace.entry.offset)
    | none => do
      let merged ← merge range { survey with decoded := decoded } trace
      mergeAll range budget merged rest

section Merge

variable {scope : Scope} (fits : scope.Fits) {budget : Option Nat}

include fits

theorem mergeCut_eq {survey : Survey} {trace : Trace} (modest : trace.Modest scope) {limit : Nat}
    (within : survey.decoded ≤ limit) :
    mergeCut scope.range limit survey trace = .ok (survey.mergeCut scope.range limit trace) := by
  rw [mergeCut, bind_eq (sub_eq within)]
  split
  · rfl
  · rename_i left
    rw [merge_eq fits (modest.cut _), Survey.mergeCut, if_neg left]

theorem mergeAll_eq {survey : Survey} {wave : List Entry} {merged : List Trace}
    (stage : Stage.Fits scope budget ⟨survey, wave, merged⟩) (going : survey.exhausted = false) :
    mergeAll scope.range budget survey (wave.map (Trace.run scope)) =
      .ok (survey.mergeAll scope.range budget (wave.map (Trace.run scope))) := by
  induction wave generalizing survey merged with
  | nil => rfl
  | cons entry rest inductionHypothesis =>
    have ended := (trace_eq fits (stage.due (List.mem_append_right _ List.mem_cons_self))).2
    have modest := Trace.modest_run ended
    have room : survey.decoded + (Trace.run scope entry).decoded < 2 ^ 64 := by
      have total := fits.total_lt
      have handled : merged.length + survey.unanalyzed.size ≤ scope.range.size :=
        stage.placed.handled_le
      have known : survey.decoded ≤ merged.length * scope.mostDecoded := stage.decoded_le going
      have more : merged.length * scope.mostDecoded ≤ scope.range.size * scope.mostDecoded :=
        Nat.mul_le_mul_right _ (by omega)
      have traced := ended.decoded_le
      rw [Nat.succ_mul] at total
      omega
    rw [List.map_cons, mergeAll, bind_eq (add_eq room), Survey.mergeAll]
    cases exceeding : survey.exceeds budget (Trace.run scope entry) with
    | none =>
      simp only
      rw [bind_eq (merge_eq fits modest _)]
      exact inductionHypothesis (stage.move fits (.merge exceeding))
        ((Survey.exhausted_merge _ _ _).trans going)
    | some limit =>
      obtain ⟨limited, -⟩ := Survey.exceeds_eq_some_iff.mp exceeding
      simp only
      rw [bind_eq (mergeCut_eq fits modest (stage.balanced.within limited))]
      rfl

end Merge

/-! ### Waves -/

/-- Handles all queued entries, guarded. -/
def handleWave (scope : Scope) (budget : Option Nat) (survey : Survey) : Guarded Survey :=
  if survey.exhausted then return survey.handleWave scope budget
  else do
    discard (add 64 survey.waves 1)
    let traces ← gatherAll (trace scope) survey.nextWave
    mergeAll scope.range budget (survey.launch scope) traces

/-- Handles up to `count` waves, guarded. -/
def handleWaves (scope : Scope) (budget : Option Nat) : (count : Nat) → Survey → Guarded Survey
  | 0, survey => return survey
  | count + 1, survey =>
    if survey.queue.isEmpty then return survey
    else do
      let handled ← handleWave scope budget survey
      handleWaves scope budget count handled

/-- Handles waves until no entry is queued, guarded. -/
def drain (scope : Scope) (budget : Option Nat) (survey : Survey) : Guarded Survey :=
  handleWaves scope budget (scope.range.size + 2) survey

/-! ### Seeds -/

/-- Whether a window is covered, guarded. -/
def isCovered (survey : Survey) (window : Span) : Guarded Bool := do
  discard (interval window.start window.stop)
  return survey.isCovered window

theorem isCovered_eq (survey : Survey) {window : Span} (order : window.start ≤ window.stop) :
    isCovered survey window = .ok (survey.isCovered window) := by
  rw [isCovered, bind_eq (discard_eq ⟨_, interval_eq order⟩)]
  rfl

/-- Tries a window that looks like code, guarded. -/
def tryRegion (scope : Scope) (budget : Option Nat) (survey : Survey) (window : Span) :
    Guarded Survey :=
  if survey.exhausted then return survey
  else do
    let covered ← isCovered survey window
    if covered then return survey
    else drain scope budget (survey.enqueue scope.range ⟨window.start, {}, .region⟩)

/-- Tries the start of the range if no entry was ever accepted, guarded. -/
def tryFallback (scope : Scope) (budget : Option Nat) (survey : Survey) : Guarded Survey :=
  if survey.seen.isEmpty then
    drain scope budget
      (survey.enqueue scope.range ⟨scope.range.start, Processor.interrupted, .fallback⟩)
  else return survey

/-- Surveys an image, guarded. -/
def survey (scope : Scope) (budget : Option Nat) (entryPoints : List Address)
    (handlers : List Handler) (windows : List Span) (begun : Survey) : Guarded Survey := do
  check (fun address => discard (offset? scope.board.wiring address)) entryPoints
  let seeded := (begun.seedEntryPoints scope entryPoints).seedHandlers scope handlers
  let drained ← drain scope budget seeded
  let tried ← fold (tryRegion scope budget) drained windows
  tryFallback scope budget tried

section Survey

variable {scope : Scope} (fits : scope.Fits) {budget : Option Nat} {survey : Survey}
  (ready : survey.Ready scope budget)

include fits ready

theorem handleWave_eq :
    handleWave scope budget survey = .ok (survey.handleWave scope budget) := by
  obtain ⟨merged, stage, waves⟩ := ready
  have handled : merged.length + survey.unanalyzed.size ≤ scope.range.size :=
    stage.placed.handled_le
  have range : scope.range.size ≤ 0x7E0000 := Nat.le_trans (Nat.sub_le _ _) fits.range
  rw [handleWave]
  split
  · rfl
  · rename_i going
    have stands : survey.exhausted = false := Bool.not_eq_true _ ▸ going
    have traces : ∀ entry ∈ survey.nextWave, trace scope entry = .ok (Trace.run scope entry) := by
      intro entry member
      have queued : entry ∈ survey.queue ++ [] :=
        List.mem_append_left _ (List.mem_mergeSort.mp member)
      exact (trace_eq fits (stage.due queued)).1
    rw [bind_eq (discard_eq ⟨_, add_eq (by omega)⟩), bind_eq (gatherAll_eq _ traces),
      mergeAll_eq fits (stage.move fits (.launch stands)) stands, Survey.handleWave, if_neg going]
    rfl

theorem handleWaves_eq (count : Nat) :
    handleWaves scope budget count survey = .ok (survey.handleWaves scope budget count) ∧
      (survey.handleWaves scope budget count).Ready scope budget := by
  induction count generalizing survey with
  | zero => exact ⟨rfl, ready⟩
  | succ count inductionHypothesis =>
    rw [handleWaves, Survey.handleWaves]
    split
    · exact ⟨rfl, ready⟩
    · rename_i waiting
      rw [bind_eq (handleWave_eq fits ready)]
      exact inductionHypothesis (ready.handleWave fits (mt List.isEmpty_iff.mpr waiting))

theorem drain_eq : drain scope budget survey = .ok (survey.drain scope budget) ∧
    (survey.drain scope budget).Ready scope budget :=
  handleWaves_eq fits ready _

theorem tryRegion_eq {window : Span} (order : window.start ≤ window.stop) :
    tryRegion scope budget survey window = .ok (survey.tryRegion scope budget window) ∧
      (survey.tryRegion scope budget window).Ready scope budget := by
  rw [tryRegion, Survey.tryRegion, bind_eq (isCovered_eq survey order)]
  cases survey.exhausted with
  | true => exact ⟨rfl, ready⟩
  | false =>
    rw [if_neg Bool.false_ne_true, Bool.false_or]
    split
    · exact ⟨rfl, ready⟩
    · exact drain_eq fits (ready.enqueue fits (.region window.start))

theorem tryFallback_eq : tryFallback scope budget survey = .ok (survey.tryFallback scope budget) := by
  rw [tryFallback, Survey.tryFallback]
  split
  · exact (drain_eq fits (ready.enqueue fits (.fallback scope.range.start))).1
  · rfl

/-- A survey from any entries and windows does not fail. -/
theorem survey_eq (entryPoints : List Address) (handlers : List Handler) {windows : List Span}
    (order : ∀ window ∈ windows, window.start ≤ window.stop) :
    Guarded.survey scope budget entryPoints handlers windows survey =
      .ok (survey.run scope budget entryPoints handlers windows) := by
  have found : ∀ address ∈ entryPoints,
      discard (offset? scope.board.wiring address) = .ok () :=
    fun address _ => discard_eq ⟨_, offset?_eq _ _⟩
  obtain ⟨drained, calm⟩ := drain_eq fits (ready.seeded fits entryPoints handlers)
  obtain ⟨tried, quiet⟩ := fold_eq (fun _ (after : Survey) => after.Ready scope budget)
    (fun _ after known window member => tryRegion_eq fits known (order window member)) calm
  rw [Guarded.survey, bind_eq (check_eq found), bind_eq drained, bind_eq tried,
    tryFallback_eq fits quiet]
  rfl

end Survey

end Guarded

end Cartridge
