/-
This file proves that nothing but what a survey is given turns into an entry point or a handler.
Both are offered before the first wave. Later on a survey offers windows, the start of the range
and the targets of calls and jumps, and nothing else. So what holds of the entries that it is
given, and of all entries of the other kinds, holds of the entry of every routine recorded.
-/

import Cartridge.Proofs.Passage
import Cartridge.Proofs.Survey.Entrance

namespace Cartridge

/-- Whether a seed is one that a survey is given at its beginning. -/
def Seed.isGiven : Seed → Bool
  | .entryPoint | .vector _ => true
  | .call | .jump | .region | .fallback => false

namespace Trace

theorem origin_of_routine? {trace : Trace} {routine : Routine}
    (traced : trace.routine? = some routine) : routine.origin = trace.entry := by
  obtain ⟨start, entry, seed, -⟩ := routine?_eq_some traced
  rw [Routine.origin, start, entry, seed]

/-- A trace offers calls and jumps only. -/
theorem isGiven_of_mem_offers {trace : Trace} {sent : Entry} (offer : sent ∈ trace.offers) :
    sent.seed.isGiven = false := by
  rcases mem_successors.mp (mem_successors_of_mem_offers offer) with
    ⟨target, -, made⟩ | ⟨target, -, made⟩
  · obtain ⟨offset, -, rfl⟩ := Option.map_eq_some_iff.mp made
    rfl
  · obtain ⟨offset, -, rfl⟩ := Option.map_eq_some_iff.mp made
    rfl

end Trace

namespace Survey

/-- A property holds of every entry that is queued and of the entry of every routine recorded. -/
structure Admits (Holds : Entry → Prop) (survey : Survey) : Prop where
  queue : ∀ entry ∈ survey.queue, Holds entry
  recorded : ∀ routine ∈ survey.recorded, Holds routine.origin

namespace Admits

variable {Holds : Entry → Prop} {survey : Survey}

theorem fresh (issues : Array Issue) (events : Array Event) :
    Admits Holds { issues := issues, events := events } := by
  constructor <;> simp [Survey.recorded]

theorem accept (admits : survey.Admits Holds) {entries : List Entry}
    (holds : ∀ entry ∈ entries, Holds entry) (range : Span) :
    (survey.accept range entries).Admits Holds := by
  refine ⟨fun entry member => ?_, fun routine member => ?_⟩
  · rcases mem_queue_accept member with old | new
    · exact admits.queue entry old
    · exact holds entry new
  · rw [Survey.recorded, accept_eq] at member
    exact admits.recorded routine member

/-! ### Waves -/

section Waves

variable (others : ∀ entry : Entry, entry.seed.isGiven = false → Holds entry)
include others

theorem merge (admits : survey.Admits Holds) {trace : Trace} (start : Holds trace.entry)
    (range : Span) : (survey.merge range trace).Admits Holds := by
  refine ⟨fun entry member => ?_, fun routine member => ?_⟩
  · rw [queue_merge] at member
    rcases mem_queue_accept member with old | offer
    · exact admits.queue entry old
    · exact others entry (Trace.isGiven_of_mem_offers offer)
  · rw [recorded_merge] at member
    rcases List.mem_append.mp member with old | new
    · exact admits.recorded routine old
    · obtain ⟨found, yields, rfl⟩ := List.mem_map.mp new
      obtain ⟨-, traced, -⟩ := Trace.yield?_eq_some_iff.mp (Option.mem_toList.mp yields)
      exact Trace.origin_of_routine? traced ▸ start

theorem mergeCut (admits : survey.Admits Holds) {trace : Trace} (start : Holds trace.entry)
    (range : Span) (budget : Nat) : (survey.mergeCut range budget trace).Admits Holds := by
  by_cases nothing : budget - survey.decoded = 0
  · rw [Survey.mergeCut, if_pos nothing]
    exact ⟨admits.queue, admits.recorded⟩
  · rw [Survey.mergeCut, if_neg nothing]
    have stopped : Admits Holds { survey with exhausted := true, decoded := budget } :=
      ⟨admits.queue, admits.recorded⟩
    refine merge others stopped ?_ range
    rwa [Trace.entry_cut]

theorem mergeAll (admits : survey.Admits Holds) {traces : List Trace}
    (starts : ∀ trace ∈ traces, Holds trace.entry) (range : Span) (budget : Option Nat) :
    (survey.mergeAll range budget traces).Admits Holds := by
  induction traces generalizing survey with
  | nil => exact admits
  | cons trace rest inductionHypothesis =>
    have start := starts trace List.mem_cons_self
    rw [Survey.mergeAll]
    split
    · rename_i limit _
      have cut := mergeCut others admits start range limit
      exact ⟨cut.queue, cut.recorded⟩
    · have counted : Admits Holds { survey with decoded := survey.decoded + trace.decoded } :=
        ⟨admits.queue, admits.recorded⟩
      exact inductionHypothesis (merge others counted start range) fun later member =>
        starts later (List.mem_cons_of_mem _ member)

/-- The entries of a wave are those that were queued. -/
theorem handleWave (admits : survey.Admits Holds) (scope : Scope) (budget : Option Nat) :
    (survey.handleWave scope budget).Admits Holds := by
  have nothing (entry : Entry) (member : entry ∈ ([] : List Entry)) : Holds entry :=
    absurd member List.not_mem_nil
  by_cases stopped : survey.exhausted = true
  · rw [Survey.handleWave, if_pos stopped]
    exact ⟨nothing, admits.recorded⟩
  · rw [Survey.handleWave, if_neg stopped]
    have launched : Admits Holds (survey.launch scope) := ⟨nothing, admits.recorded⟩
    refine mergeAll others launched (fun trace member => ?_) _ _
    obtain ⟨entry, queued, rfl⟩ := List.mem_map.mp member
    rw [Trace.entry_run]
    exact admits.queue entry (List.mem_mergeSort.mp queued)

theorem drain (admits : survey.Admits Holds) (scope : Scope) (budget : Option Nat) :
    (survey.drain scope budget).Admits Holds := by
  rw [Survey.drain]
  induction scope.range.size + 2 generalizing survey with
  | zero => exact admits
  | succ count inductionHypothesis =>
    rw [handleWaves]
    split
    · exact admits
    · exact inductionHypothesis (handleWave others admits scope budget)

/-! ### Whole surveys -/

/-- An entry of another kind is offered, and all that is queued is traced. -/
theorem offerOther (admits : survey.Admits Holds) (scope : Scope) (budget : Option Nat)
    {entry : Entry} (other : entry.seed.isGiven = false) :
    ((survey.enqueue scope.range entry).drain scope budget).Admits Holds := by
  have offered : (survey.accept scope.range [entry]).Admits Holds := by
    refine admits.accept (fun only member => ?_) scope.range
    rw [List.mem_singleton.mp member]
    exact others entry other
  exact drain others offered scope budget

theorem tryRegions (admits : survey.Admits Holds) (scope : Scope) (budget : Option Nat)
    (windows : List Span) :
    (windows.foldl (tryRegion scope budget) survey).Admits Holds := by
  induction windows generalizing survey with
  | nil => exact admits
  | cons window rest inductionHypothesis =>
    refine inductionHypothesis ?_
    rw [tryRegion]
    split
    · exact admits
    · exact offerOther others admits scope budget rfl

end Waves

theorem seedEntryPoints (admits : survey.Admits Holds) (scope : Scope) {addresses : List Address}
    (given : ∀ address ∈ addresses, ∀ offset, scope.board.wiring.offset? address = some offset →
      Holds ⟨offset, {}, .entryPoint⟩) :
    (survey.seedEntryPoints scope addresses).Admits Holds := by
  rw [seedEntryPoints_eq_accept]
  refine admits.accept (fun entry member => ?_) scope.range
  obtain ⟨address, listed, made⟩ := List.mem_filterMap.mp member
  obtain ⟨offset, found, rfl⟩ := Option.map_eq_some_iff.mp made
  exact given address listed offset found

theorem seedHandlers (admits : survey.Admits Holds) (scope : Scope) {handlers : List Handler}
    (given : ∀ handler ∈ handlers, ∀ offset, handler.offset = some offset →
      Holds ⟨offset, handlerState handler.interrupt, .vector handler.interrupt⟩) :
    (survey.seedHandlers scope handlers).Admits Holds := by
  rw [seedHandlers_eq_accept]
  refine admits.accept (fun entry member => ?_) scope.range
  obtain ⟨handler, listed, made⟩ := List.mem_filterMap.mp member
  obtain ⟨offset, found, rfl⟩ := Option.map_eq_some_iff.mp made
  exact given handler listed offset found

/-- What holds of the entry points and handlers that a survey is given, and of all other entries,
holds of the entry of every routine that it records. -/
theorem run (admits : survey.Admits Holds) (scope : Scope) (budget : Option Nat)
    (others : ∀ entry : Entry, entry.seed.isGiven = false → Holds entry)
    {entryPoints : List Address} {handlers : List Handler}
    (points : ∀ address ∈ entryPoints, ∀ offset,
      scope.board.wiring.offset? address = some offset → Holds ⟨offset, {}, .entryPoint⟩)
    (handled : ∀ handler ∈ handlers, ∀ offset, handler.offset = some offset →
      Holds ⟨offset, handlerState handler.interrupt, .vector handler.interrupt⟩)
    (windows : List Span) :
    (survey.run scope budget entryPoints handlers windows).Admits Holds := by
  have seeded := (admits.seedEntryPoints scope points).seedHandlers scope handled
  have tried := tryRegions others (drain others seeded scope budget) scope budget windows
  rw [Survey.run, tryFallback]
  split
  · exact offerOther others tried scope budget rfl
  · exact tried

end Admits

end Survey

end Cartridge
