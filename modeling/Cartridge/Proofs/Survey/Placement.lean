/-
This file proves that a survey neither loses nor doubles an entry. At every stage the offsets
that were ever accepted are those queued, those of the wave under way, those merged and
those given up, each of them once. A move either rearranges these offsets or adds a new
one. Since all of them lie in the range, the waves of a survey run out of entries, and in
the end every accepted offset was either merged or given up.
-/

import Cartridge.Proofs.Partition
import Cartridge.Proofs.Survey.Course

namespace Cartridge

namespace Stage

/-- The offsets that a stage accounts for: queued, in the wave under way, merged, given up. -/
def offsets (stage : Stage) : List Nat :=
  stage.survey.queue.map Entry.offset ++ stage.wave.map Entry.offset ++
    stage.merged.map (fun trace => trace.entry.offset) ++ stage.survey.unanalyzed.toList

/-- Every offset that was accepted is accounted for once and lies in the range, and entries
are given up only once the budget has run out. -/
structure Placed (scope : Scope) (stage : Stage) : Prop where
  once : stage.offsets.Nodup
  marked : ∀ {offset : Nat}, offset ∈ stage.survey.seen ↔ offset ∈ stage.offsets
  inside : ∀ {offset : Nat}, offset ∈ stage.survey.seen → scope.range.contains offset = true
  givenUp : stage.survey.unanalyzed ≠ #[] → stage.survey.exhausted = true

namespace Placed

variable {scope : Scope} {budget : Option Nat}

theorem fresh (issues : Array Issue) (events : Array Event) :
    Placed scope ⟨{ issues := issues, events := events }, [], []⟩ where
  once := List.nodup_nil
  marked := by simp [offsets]
  inside := by simp
  givenUp := by simp

/-- Moving entries about without accepting any keeps them placed. -/
theorem rearrange {before after : Stage} (placed : before.Placed scope)
    (moved : after.offsets.Perm before.offsets) (seen : after.survey.seen = before.survey.seen)
    (givenUp : after.survey.unanalyzed ≠ #[] → after.survey.exhausted = true) :
    after.Placed scope := by
  refine ⟨moved.nodup_iff.mpr placed.once, ?_, ?_, givenUp⟩
  · intro offset
    rw [seen, placed.marked, moved.mem_iff]
  · intro offset marked
    rw [seen] at marked
    exact placed.inside marked

theorem enqueue {survey : Survey} {wave : List Entry} {merged : List Trace}
    (placed : Placed scope ⟨survey, wave, merged⟩) (entry : Entry) :
    Placed scope ⟨survey.enqueue scope.range entry, wave, merged⟩ := by
  rcases Survey.enqueue_cases scope.range survey entry with ⟨inside, new, accepted⟩ | ⟨-, refused⟩
  · have marked : ∀ {offset : Nat}, offset ∈ (survey.enqueue scope.range entry).seen ↔
        offset ∈ survey.seen ∨ offset = entry.offset ∧ scope.range.contains offset = true :=
      Survey.mem_seen_enqueue
    rw [accepted] at marked ⊢
    refine ⟨?_, ?_, ?_, placed.givenUp⟩
    · exact List.nodup_cons.mpr ⟨fun member => new (placed.marked.mpr member), placed.once⟩
    · intro offset
      refine Iff.trans ?_ List.mem_cons.symm
      show _ ↔ offset = entry.offset ∨ offset ∈ offsets ⟨survey, wave, merged⟩
      rw [← placed.marked, or_comm]
      refine marked.trans (or_congr_right ⟨And.left, ?_⟩)
      rintro rfl
      exact ⟨rfl, inside⟩
    · intro offset member
      rcases marked.mp member with old | ⟨-, new⟩
      · exact placed.inside old
      · exact new
  · rwa [refused]

theorem accept {survey : Survey} {wave : List Entry} {merged : List Trace}
    (placed : Placed scope ⟨survey, wave, merged⟩) (entries : List Entry) :
    Placed scope ⟨survey.accept scope.range entries, wave, merged⟩ :=
  Survey.accept_invariant (fun after => Placed scope ⟨after, wave, merged⟩)
    (fun _ placed => placed.enqueue _) placed

/-- What merging records does not matter to where entries are. -/
theorem merge {survey : Survey} {wave : List Entry} {merged : List Trace}
    (placed : Placed scope ⟨survey, wave, merged⟩) (trace : Trace) :
    Placed scope ⟨survey.merge scope.range trace, wave, merged⟩ := by
  have accepted := placed.accept trace.offers
  rw [Survey.accept_eq] at accepted
  refine accepted.rearrange ?_ (Survey.seen_merge _ _ _) ?_
  · simp only [offsets, Survey.queue_merge, Survey.unanalyzed_merge]
    exact List.Perm.refl _
  · simpa using placed.givenUp

end Placed

/-! ### Every move keeps entries placed -/

theorem nextWave_perm (survey : Survey) :
    (survey.nextWave.map Entry.offset).Perm (survey.queue.map Entry.offset) :=
  (List.mergeSort_perm _ _).map _

/-- The queued entries go over into the wave. -/
theorem offsets_started (survey started : Survey) (empty : started.queue = [])
    (same : started.unanalyzed = survey.unanalyzed) (merged : List Trace) :
    (offsets ⟨started, survey.nextWave, merged⟩).Perm (offsets ⟨survey, [], merged⟩) := by
  simp only [offsets, empty, same, List.map_nil, List.nil_append, List.append_nil]
  exact ((nextWave_perm survey).append_right _).append_right _

/-- The next entry of the wave goes over to the merged ones. -/
theorem offsets_merged (survey : Survey) {entry : Entry} (wave : List Entry) (merged : List Trace)
    {trace : Trace} (same : trace.entry = entry) :
    (offsets ⟨survey, wave, merged ++ [trace]⟩).Perm (offsets ⟨survey, entry :: wave, merged⟩) := by
  subst same
  refine List.perm_iff_count.mpr fun offset => ?_
  simp only [offsets, List.map_append, List.map_cons, List.map_nil, List.count_append,
    List.count_cons, List.count_nil]
  omega

theorem Placed.abandon {scope : Scope} {survey : Survey} {entries wave : List Entry}
    {merged : List Trace} (placed : Placed scope ⟨survey, entries ++ wave, merged⟩)
    (stopped : survey.exhausted = true) :
    Placed scope ⟨survey.abandon (entries.map Entry.offset), wave, merged⟩ := by
  refine placed.rearrange (List.perm_iff_count.mpr fun offset => ?_) rfl fun _ => stopped
  simp only [offsets, Survey.abandon, List.map_append, List.count_append,
    Array.toList_appendList]
  omega

theorem Placed.move {scope : Scope} {budget : Option Nat} {before after : Stage}
    (move : Move scope budget before after) (placed : before.Placed scope) :
    after.Placed scope := by
  cases move with
  | offer _ => exact placed.enqueue _
  | @launch survey merged going =>
    exact placed.rearrange (offsets_started survey (survey.launch scope) rfl rfl merged) rfl
      placed.givenUp
  | @merge survey entry wave merged within =>
    refine Placed.merge ?_ _
    exact placed.rearrange (offsets_merged survey wave merged (Trace.entry_run scope entry)) rfl
      placed.givenUp
  | @cut survey entry wave merged limit exceeding left =>
    refine Placed.merge ?_ _
    refine placed.rearrange (offsets_merged survey wave merged ?_) rfl fun _ => rfl
    rw [Trace.entry_cut, Trace.entry_run]
  | @refuse survey entry wave merged limit exceeding nothing =>
    have stopped : Placed scope ⟨{ survey with exhausted := true }, [entry] ++ wave, merged⟩ :=
      placed.rearrange (List.Perm.refl _) rfl fun _ => rfl
    exact stopped.abandon rfl
  | @giveUpWave survey wave merged stopped =>
    rw [← List.append_nil wave] at placed
    exact placed.abandon stopped
  | @giveUpQueue survey merged stopped =>
    have waiting : Placed scope ⟨{ survey with queue := [] }, survey.nextWave ++ [], merged⟩ := by
      rw [List.append_nil]
      exact placed.rearrange (offsets_started survey { survey with queue := [] } rfl rfl merged) rfl
        placed.givenUp
    exact waiting.abandon stopped

theorem Course.placed {scope : Scope} {budget : Option Nat} {first last : Stage}
    (course : Course scope budget first last) (placed : first.Placed scope) : last.Placed scope :=
  course.keeps (Placed scope) Placed.move placed

end Stage

/-! ### Waves run out of entries -/

/-- No more entries are merged and given up than there are offsets in the range. -/
theorem Stage.Placed.handled_le {scope : Scope} {stage : Stage} (placed : stage.Placed scope) :
    stage.merged.length + stage.survey.unanalyzed.size ≤ scope.range.size := by
  have handled : (stage.merged.map (fun trace => trace.entry.offset) ++
      stage.survey.unanalyzed.toList).Sublist stage.offsets := by
    rw [Stage.offsets, List.append_assoc _ (List.map _ stage.merged)]
    exact List.sublist_append_right _ _
  have bounded := Span.length_le_size (placed.once.sublist handled) fun offset member =>
    placed.inside (placed.marked.mpr (handled.subset member))
  simpa using bounded

namespace Survey

theorem unanalyzed_abandon (survey : Survey) (offsets : List Nat) :
    (survey.abandon offsets).unanalyzed.toList = survey.unanalyzed.toList ++ offsets := by
  rw [abandon, Array.toList_appendList]

variable {scope : Scope} {budget : Option Nat}

/-- Every trace of a wave is merged or its entry is given up. -/
theorem handled_mergeAll (range : Span) (budget : Option Nat) (survey : Survey)
    (traces : List Trace) :
    ((survey.mergedAll range budget traces).map (fun trace => trace.entry.offset) ++
      (survey.mergeAll range budget traces).unanalyzed.toList).Perm
        (survey.unanalyzed.toList ++ traces.map fun trace => trace.entry.offset) := by
  induction traces generalizing survey with
  | nil =>
    rw [mergedAll, mergeAll, List.map_nil, List.append_nil, List.nil_append]
  | cons trace rest inductionHypothesis =>
    rw [mergedAll, mergeAll]
    cases survey.exceeds budget trace with
    | none =>
      have later := inductionHypothesis
        ({ survey with decoded := survey.decoded + trace.decoded }.merge range trace)
      rw [unanalyzed_merge] at later
      rw [List.map_cons, List.map_cons, List.cons_append]
      exact (later.cons _).trans List.perm_middle.symm
    | some limit =>
      simp only [mergeCut]
      split
      · rw [unanalyzed_abandon, unanalyzed_abandon, List.map_nil, List.nil_append,
          List.append_assoc]
        exact List.Perm.refl _
      · rw [unanalyzed_abandon, unanalyzed_merge, List.map_singleton, Trace.entry_cut,
          List.map_cons, List.singleton_append]
        exact List.perm_middle.symm

/-- Every queued entry is merged or given up with its wave. -/
theorem handled_handleWave (scope : Scope) (budget : Option Nat) (survey : Survey) :
    ((survey.mergedInWave scope budget).map (fun trace => trace.entry.offset) ++
      (survey.handleWave scope budget).unanalyzed.toList).Perm
        (survey.unanalyzed.toList ++ survey.queue.map Entry.offset) := by
  have offsets : (survey.nextWave.map (Trace.run scope)).map (fun trace => trace.entry.offset) =
      survey.nextWave.map Entry.offset := by
    rw [List.map_map]
    exact List.map_congr_left fun entry _ => congrArg Entry.offset (Trace.entry_run scope entry)
  have wave := (Stage.nextWave_perm survey).append_left survey.unanalyzed.toList
  rw [mergedInWave, handleWave]
  split
  · rw [unanalyzed_abandon, List.map_nil, List.nil_append]
    exact wave
  · refine (handled_mergeAll _ _ _ _).trans ?_
    rw [offsets]
    exact wave

/-- Enough waves leave no entry queued. -/
theorem queue_handleWaves {survey : Survey} {merged : List Trace}
    (placed : Stage.Placed scope ⟨survey, [], merged⟩) {count : Nat}
    (enough : scope.range.size < merged.length + survey.unanalyzed.size + count) :
    (survey.handleWaves scope budget count).queue = [] := by
  induction count generalizing survey merged with
  | zero =>
    have bounded : merged.length + survey.unanalyzed.size ≤ scope.range.size := placed.handled_le
    exact absurd enough (Nat.not_lt.mpr bounded)
  | succ count inductionHypothesis =>
    rw [handleWaves]
    split
    · rename_i empty
      exact List.isEmpty_iff.mp empty
    · rename_i waiting
      have handledPlaced := (Stage.course_handleWave scope budget survey merged).placed placed
      refine inductionHypothesis handledPlaced ?_
      have handled := (handled_handleWave scope budget survey).length_eq
      simp only [List.length_append, List.length_map, Array.length_toList] at handled
      have positive : 0 < survey.queue.length := by
        rwa [List.length_pos_iff, ne_eq, ← List.isEmpty_iff]
      rw [List.length_append]
      omega

theorem queue_drain {survey : Survey} {merged : List Trace}
    (placed : Stage.Placed scope ⟨survey, [], merged⟩) :
    (survey.drain scope budget).queue = [] :=
  queue_handleWaves placed (by omega)

theorem queue_tryRegion {survey : Survey} {merged : List Trace}
    (placed : Stage.Placed scope ⟨survey, [], merged⟩) (empty : survey.queue = [])
    (window : Span) : (survey.tryRegion scope budget window).queue = [] := by
  rw [tryRegion]
  split
  · exact empty
  · exact queue_drain (placed.enqueue _)

theorem queue_tryRegions {survey : Survey} {merged : List Trace}
    (placed : Stage.Placed scope ⟨survey, [], merged⟩) (empty : survey.queue = [])
    (windows : List Span) :
    (windows.foldl (tryRegion scope budget) survey).queue = [] := by
  induction windows generalizing survey merged with
  | nil => exact empty
  | cons window rest inductionHypothesis =>
    have tried := (Stage.course_tryRegion scope budget survey merged window).placed placed
    exact inductionHypothesis tried (queue_tryRegion placed empty window)

theorem queue_tryFallback {survey : Survey} {merged : List Trace}
    (placed : Stage.Placed scope ⟨survey, [], merged⟩) (empty : survey.queue = []) :
    (survey.tryFallback scope budget).queue = [] := by
  rw [tryFallback]
  split
  · exact queue_drain (placed.enqueue _)
  · exact empty

/-- A survey leaves no entry queued. -/
theorem queue_run {begun : Survey} (placed : Stage.Placed scope ⟨begun, [], []⟩)
    (entryPoints : List Address) (handlers : List Handler) (windows : List Span) :
    (begun.run scope budget entryPoints handlers windows).queue = [] := by
  have seeded := (Stage.course_seeded scope budget begun [] entryPoints handlers).placed placed
  have drained := (Stage.course_drain scope budget _ _).placed seeded
  have tried := (Stage.course_tryRegions scope budget _ _ windows).placed drained
  exact queue_tryFallback tried (queue_tryRegions drained (queue_drain seeded) windows)

end Survey

end Cartridge
