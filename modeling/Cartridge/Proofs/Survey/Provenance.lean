/-
This file proves where the routines of a survey come from. An entry that waits to be traced
is a root, or a trusted routine that was recorded before calls or jumps to it. Only a trusted
trace has transfers at all, unless the budget cut it; but then the budget has run out, and
what such a trace offers is never traced. So every routine is at the end of a chain of trusted
routines that begins at a root.
-/

import Cartridge.Proofs.Ascending
import Cartridge.Proofs.Routine
import Cartridge.Proofs.Survey.Course

namespace Cartridge

/-! ### Chains of routines -/

/-- Whether a seed is one that no routine accounts for. -/
def Seed.isRoot : Seed → Bool
  | .entryPoint | .vector _ | .region | .fallback => true
  | .call | .jump => false

theorem Entry.IsRoot.seed {entry : Entry} (root : entry.IsRoot) : entry.seed.isRoot = true := by
  cases root <;> rfl

namespace Routine

/-- A routine is trusted and transfers control to an offset, by a call or a jump as the seed
says. -/
def Announces (wiring : Wiring) (caller : Routine) (seed : Seed) (offset : Nat) : Prop :=
  caller.ending.isConfident = true ∧
    ((seed = .call ∧ ∃ address ∈ caller.calls, wiring.offset? address = some offset) ∨
      seed = .jump ∧ ∃ address ∈ caller.jumps, wiring.offset? address = some offset)

/-- One of some routines accounts for another one. -/
def Link (wiring : Wiring) (routines : List Routine) (caller callee : Routine) : Prop :=
  caller ∈ routines ∧ callee ∈ routines ∧ caller.Announces wiring callee.seed callee.start

/-- A chain of some routines leads from a root to a routine. -/
def Linked (wiring : Wiring) (routines : List Routine) (routine : Routine) : Prop :=
  ∃ root ∈ routines, root.seed.isRoot = true ∧
    Relation.ReflTransGen (Link wiring routines) root routine

theorem Linked.mem {wiring : Wiring} {routines : List Routine} {routine : Routine}
    (linked : routine.Linked wiring routines) : routine ∈ routines := by
  obtain ⟨root, member, -, chain⟩ := linked
  cases chain with
  | refl => exact member
  | tail _ link => exact link.2.1

theorem Linked.mono {wiring : Wiring} {routines more : List Routine} (subset : routines ⊆ more)
    {routine : Routine} (linked : routine.Linked wiring routines) :
    routine.Linked wiring more := by
  obtain ⟨root, member, isRoot, chain⟩ := linked
  refine ⟨root, subset member, isRoot, Relation.ReflTransGen.mono ?_ _ _ chain⟩
  intro caller callee link
  exact ⟨subset link.1, subset link.2.1, link.2.2⟩

end Routine

/-- An entry is a root, or a routine at the end of a chain accounts for it. -/
def Entry.Announced (wiring : Wiring) (routines : List Routine) (entry : Entry) : Prop :=
  entry.seed.isRoot = true ∨ ∃ caller, Routine.Linked wiring routines caller ∧
    caller.Announces wiring entry.seed entry.offset

namespace Entry.Announced

variable {wiring : Wiring} {routines : List Routine} {entry : Entry}

theorem mono {more : List Routine} (announced : entry.Announced wiring routines)
    (subset : routines ⊆ more) : entry.Announced wiring more := by
  rcases announced with root | ⟨caller, linked, announces⟩
  · exact Or.inl root
  · exact Or.inr ⟨caller, linked.mono subset, announces⟩

/-- The routine of an entry that is accounted for is at the end of a chain. -/
theorem linked (announced : entry.Announced wiring routines) {routine : Routine}
    (member : routine ∈ routines) (seed : routine.seed = entry.seed)
    (start : routine.start = entry.offset) : routine.Linked wiring routines := by
  rcases announced with root | ⟨caller, known, announces⟩
  · exact ⟨routine, member, seed ▸ root, .refl⟩
  · have listed := known.mem
    obtain ⟨first, begins, isRoot, chain⟩ := known
    refine ⟨first, begins, isRoot, chain.tail ⟨listed, member, ?_⟩⟩
    rwa [seed, start]

end Entry.Announced

/-! ### The successors of a trace -/

theorem Step.offset_of_target {wiring : Wiring} {step : Step} {target : Target}
    (made : step.call? wiring = some target ∨ step.jump? wiring = some target ∨
      step.branch? wiring = some target) : target.offset = wiring.offset? target.address := by
  rcases made with called | jumped | branched
  · unfold call? at called
    split at called
    · obtain rfl := Option.some.inj called
      rfl
    · exact nomatch called
  · unfold jump? at jumped
    split at jumped
    · obtain rfl := Option.some.inj jumped
      rfl
    · exact nomatch jumped
  · unfold branch? at branched
    split at branched
    · obtain rfl := Option.some.inj branched
      rfl
    · obtain rfl := Option.some.inj branched
      rfl
    · exact nomatch branched

namespace Trace

/-- The targets of a trace lie where the wiring puts their addresses. -/
def Resolved (scope : Scope) (trace : Trace) : Prop :=
  ∀ target ∈ trace.calls ++ trace.jumps,
    target.offset = scope.board.wiring.offset? target.address

theorem Resolved.absorb {scope : Scope} {trace : Trace} (resolved : trace.Resolved scope)
    (walk : Walk) : (trace.absorb scope walk).Resolved scope := by
  unfold Trace.absorb
  split
  · intro target member
    rcases List.mem_append.mp member with called | jumped
    · rcases List.mem_append.mp called with old | new
      · exact resolved target (List.mem_append_left _ old)
      · obtain ⟨step, -, made⟩ := List.mem_filterMap.mp new
        exact Step.offset_of_target (Or.inl made)
    · rcases List.mem_append.mp jumped with old | new
      · exact resolved target (List.mem_append_right _ old)
      · rcases List.mem_append.mp new with jump | leaves
        · obtain ⟨step, -, made⟩ := List.mem_filterMap.mp jump
          exact Step.offset_of_target (Or.inr (Or.inl made))
        · obtain ⟨step, -, made⟩ := List.mem_filterMap.mp (List.mem_filter.mp leaves).1
          exact Step.offset_of_target (Or.inr (Or.inr made))
  · exact resolved

theorem resolved_run (scope : Scope) (entry : Entry) : (run scope entry).Resolved scope := by
  refine explore_of_absorb (Resolved scope) ?_ (entry.offset, entry.processor) ?_
  · exact fun resolved => resolved.absorb _
  · exact fun target member => absurd member List.not_mem_nil

/-- Only a trace that is trusted leads on. -/
theorem isConfident_of_mem_successors {scope : Scope} {entry successor : Entry}
    (member : successor ∈ (run scope entry).successors) :
    (run scope entry).isConfident = true := by
  cases trusted : (run scope entry).isConfident with
  | true => rfl
  | false =>
    rw [run_of_not_confident trusted] at member
    exact absurd member List.not_mem_nil

/-- The routine of a trace accounts for the successors of the trace. -/
theorem announces_of_mem_successors {scope : Scope} {entry successor : Entry}
    (member : successor ∈ (run scope entry).successors) {routine : Routine}
    (found : (run scope entry).routine? = some routine) :
    routine.Announces scope.board.wiring successor.seed successor.offset := by
  have trusted := isConfident_of_mem_successors member
  have resolved := resolved_run scope entry
  obtain ⟨first, -, rfl⟩ := Option.map_eq_some_iff.mp found
  refine ⟨trusted, ?_⟩
  rcases List.mem_append.mp member with called | jumped
  · obtain ⟨target, listed, made⟩ := List.mem_filterMap.mp called
    obtain ⟨offset, here, rfl⟩ := Option.map_eq_some_iff.mp made
    refine Or.inl ⟨rfl, target.address, mem_ascending.mpr (List.mem_map_of_mem listed), ?_⟩
    rw [← resolved target (List.mem_append_left _ listed), here]
  · obtain ⟨target, listed, made⟩ := List.mem_filterMap.mp jumped
    obtain ⟨offset, here, rfl⟩ := Option.map_eq_some_iff.mp made
    refine Or.inr ⟨rfl, target.address, mem_ascending.mpr (List.mem_map_of_mem listed), ?_⟩
    rw [← resolved target (List.mem_append_right _ listed), here]

end Trace

/-! ### Recording a routine -/

namespace Survey

/-- The routines that a survey has recorded. -/
def recorded (survey : Survey) : List Routine :=
  survey.routines.toList.map Prod.fst

theorem recorded_merge (range : Span) (survey : Survey) (trace : Trace) :
    (survey.merge range trace).recorded =
      survey.recorded ++ trace.yield?.toList.map Prod.fst := by
  rw [recorded, routines_merge, Array.toList_append, List.map_append]
  cases trace.yield? <;> rfl

theorem recorded_subset_merge (range : Span) (survey : Survey) (trace : Trace) :
    survey.recorded ⊆ (survey.merge range trace).recorded := by
  rw [recorded_merge]
  exact List.subset_append_left _ _

/-- Once it is recorded, the routine of an entry that is accounted for is at the end of a
chain. -/
theorem linked_of_yield? {wiring : Wiring} {survey : Survey} {trace : Trace}
    (announced : trace.entry.Announced wiring survey.recorded) {found : Routine × List Nat}
    (yields : trace.yield? = some found) (range : Span) :
    found.1.Linked wiring (survey.merge range trace).recorded := by
  obtain ⟨-, traced, -⟩ := Trace.yield?_eq_some_iff.mp yields
  obtain ⟨start, -, seed, -⟩ := Trace.routine?_eq_some traced
  refine (announced.mono (recorded_subset_merge range survey trace)).linked ?_ seed start
  rw [recorded_merge, yields]
  exact List.mem_append_right _ (List.mem_singleton_self _)

end Survey

/-! ### Stages -/

namespace Stage

/-- Every routine is at the end of a chain, and every entry that is still to be traced is
accounted for. As long as the budget has not run out, traces are merged whole. -/
structure Linked (scope : Scope) (stage : Stage) : Prop where
  routines : ∀ routine ∈ stage.survey.recorded,
    routine.Linked scope.board.wiring stage.survey.recorded
  wave : ∀ entry ∈ stage.wave, entry.Announced scope.board.wiring stage.survey.recorded
  queue : stage.survey.exhausted = false → ∀ entry ∈ stage.survey.queue,
    entry.Announced scope.board.wiring stage.survey.recorded
  whole : stage.survey.exhausted = false →
    ∀ trace ∈ stage.merged, trace = Trace.run scope trace.entry

namespace Linked

variable {scope : Scope} {budget : Option Nat}

theorem fresh (issues : Array Issue) (events : Array Event) :
    Linked scope ⟨{ issues := issues, events := events }, [], []⟩ := by
  constructor <;> simp [Survey.recorded]

/-- Once the budget has run out, only the wave under way matters. -/
theorem stop {before after : Stage} (linked : before.Linked scope)
    (routines : after.survey.routines = before.survey.routines)
    (wave : after.wave ⊆ before.wave) (stopped : after.survey.exhausted = true) :
    after.Linked scope := by
  have same : after.survey.recorded = before.survey.recorded := by
    rw [Survey.recorded, Survey.recorded, routines]
  refine ⟨?_, ?_, ?_, ?_⟩
  · rw [same]
    exact linked.routines
  · rw [same]
    exact fun entry member => linked.wave entry (wave member)
  · exact fun going => Bool.noConfusion (stopped.symm.trans going)
  · exact fun going => Bool.noConfusion (stopped.symm.trans going)

/-- Merging the trace of an entry that is accounted for. -/
theorem merge {survey : Survey} {wave : List Entry} {merged : List Trace} {trace : Trace}
    (linked : Linked scope ⟨survey, trace.entry :: wave, merged⟩)
    (uncut : survey.exhausted = false → trace = Trace.run scope trace.entry) :
    Linked scope ⟨survey.merge scope.range trace, wave, merged ++ [trace]⟩ := by
  have announced := linked.wave trace.entry List.mem_cons_self
  have subset := Survey.recorded_subset_merge scope.range survey trace
  constructor
  · intro routine member
    rcases List.mem_append.mp (Survey.recorded_merge scope.range survey trace ▸ member)
      with old | new
    · exact (linked.routines routine old).mono subset
    · obtain ⟨found, yields, rfl⟩ := List.mem_map.mp new
      exact Survey.linked_of_yield? announced (Option.mem_toList.mp yields) scope.range
  · exact fun later member =>
      (linked.wave later (List.mem_cons_of_mem _ member)).mono subset
  · intro going later member
    rw [Survey.exhausted_merge] at going
    rw [Survey.queue_merge] at member
    rcases Survey.mem_queue_accept member with old | offered
    · exact (linked.queue going later old).mono subset
    · rw [Trace.offers] at offered
      cases yields : trace.yield? with
      | none => simp [yields] at offered
      | some found =>
        have chain := Survey.linked_of_yield? announced yields scope.range
        have traced := (Trace.yield?_eq_some_iff.mp yields).2.1
        rw [yields, uncut going] at offered
        rw [uncut going] at traced
        exact Or.inr ⟨found.1, chain, Trace.announces_of_mem_successors offered traced⟩
  · intro going other member
    rw [Survey.exhausted_merge] at going
    rcases List.mem_append.mp member with old | new
    · exact linked.whole going other old
    · rw [List.mem_singleton.mp new]
      exact uncut going

theorem move {before after : Stage} (move : Move scope budget before after)
    (linked : before.Linked scope) : after.Linked scope := by
  cases move with
  | @offer survey merged entry root =>
    rcases Survey.enqueue_cases scope.range survey entry with ⟨-, -, accepted⟩ | ⟨-, refused⟩
    · rw [accepted]
      refine ⟨linked.routines, linked.wave, fun going other member => ?_, linked.whole⟩
      rcases List.mem_cons.mp member with rfl | old
      · exact Or.inl root.seed
      · exact linked.queue going other old
    · rwa [refused]
  | @launch survey merged going =>
    refine ⟨linked.routines, fun entry member => ?_, fun _ entry member => ?_, linked.whole⟩
    · exact linked.queue going entry (List.mem_mergeSort.mp member)
    · exact absurd member List.not_mem_nil
  | @merge survey entry wave merged within =>
    have same := Trace.entry_run scope entry
    refine Linked.merge ?_ fun _ => by rw [same]
    rw [same]
    exact ⟨linked.routines, linked.wave, linked.queue, linked.whole⟩
  | @cut survey entry wave merged limit exceeding left =>
    refine Linked.merge ?_ fun going => nomatch going
    rw [Trace.entry_cut, Trace.entry_run]
    exact linked.stop rfl (List.Subset.refl _) rfl
  | refuse _ _ => exact linked.stop rfl (List.subset_cons_self _ _) rfl
  | giveUpWave stopped => exact linked.stop rfl (List.nil_subset _) stopped
  | giveUpQueue stopped => exact linked.stop rfl (List.nil_subset _) stopped

end Linked

theorem Course.linked {scope : Scope} {budget : Option Nat} {first last : Stage}
    (course : Course scope budget first last) (linked : first.Linked scope) :
    last.Linked scope :=
  course.keeps (Linked scope) Linked.move linked

end Stage

end Cartridge
