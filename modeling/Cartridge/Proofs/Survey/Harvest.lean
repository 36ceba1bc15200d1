/-
This file proves what a survey has to show for the traces it merged. At every stage the
routines are those that the merged traces yield, in the order of merging; every problem of
a merged trace is recorded; and every entry that a merged trace offers inside the range
has been accepted, then or before.
-/

import Cartridge.Proofs.Survey.Course

namespace Cartridge

namespace Stage

/-- The merged traces are traces of entries, and all that they yield is recorded. -/
structure Harvested (scope : Scope) (stage : Stage) : Prop where
  taken : ∀ trace ∈ stage.merged, trace.Taken scope
  routines : stage.survey.routines.toList = stage.merged.filterMap Trace.yield?
  problems : ∀ trace ∈ stage.merged, ∀ issue ∈ trace.problems, issue ∈ stage.survey.issues
  offered : ∀ trace ∈ stage.merged, ∀ entry ∈ trace.offers,
    scope.range.contains entry.offset = true → entry.offset ∈ stage.survey.seen

namespace Harvested

variable {scope : Scope} {budget : Option Nat}

theorem fresh (issues : Array Issue) (events : Array Event) :
    Harvested scope ⟨{ issues := issues, events := events }, [], []⟩ := by
  constructor <;> simp

/-- Changing neither routines nor problems, and forgetting no mark, keeps the harvest. -/
theorem frame {before after : Stage} (harvested : before.Harvested scope)
    (merged : after.merged = before.merged)
    (routines : after.survey.routines = before.survey.routines)
    (issues : after.survey.issues = before.survey.issues)
    (seen : ∀ offset ∈ before.survey.seen, offset ∈ after.survey.seen) :
    after.Harvested scope := by
  constructor
  · rw [merged]
    exact harvested.taken
  · rw [merged, routines]
    exact harvested.routines
  · rw [merged, issues]
    exact harvested.problems
  · rw [merged]
    intro trace member entry offer inside
    exact seen _ (harvested.offered trace member entry offer inside)

/-- Merging a trace adds what it yields, its problems and its offers. -/
theorem merge {survey : Survey} {wave rest : List Entry} {merged : List Trace}
    (harvested : Harvested scope ⟨survey, wave, merged⟩) {trace : Trace}
    (taken : trace.Taken scope) :
    Harvested scope ⟨survey.merge scope.range trace, rest, merged ++ [trace]⟩ := by
  constructor
  · intro other member
    rcases List.mem_append.mp member with old | new
    · exact harvested.taken other old
    · rwa [List.mem_singleton.mp new]
  · show (survey.merge scope.range trace).routines.toList = _
    rw [Survey.routines_merge, Array.toList_append, List.filterMap_append]
    rw [show survey.routines.toList = merged.filterMap Trace.yield? from harvested.routines]
    cases yields : trace.yield? <;> simp [yields]
  · intro other member issue problem
    show issue ∈ (survey.merge scope.range trace).issues
    rw [Survey.issues_merge, Array.mem_append]
    rcases List.mem_append.mp member with old | new
    · exact Or.inl (harvested.problems other old issue problem)
    · rw [List.mem_singleton.mp new] at problem
      exact Or.inr (List.mem_toArray.mpr problem)
  · intro other member entry offer inside
    show entry.offset ∈ (survey.merge scope.range trace).seen
    rw [Survey.seen_merge, Survey.mem_seen_accept]
    rcases List.mem_append.mp member with old | new
    · exact Or.inl (harvested.offered other old entry offer inside)
    · rw [List.mem_singleton.mp new] at offer
      exact Or.inr ⟨List.mem_map_of_mem offer, inside⟩

theorem move {before after : Stage} (move : Move scope budget before after)
    (harvested : before.Harvested scope) : after.Harvested scope := by
  cases move with
  | @offer survey merged entry root =>
    rcases Survey.enqueue_cases scope.range survey entry with ⟨-, -, accepted⟩ | ⟨-, refused⟩
    · rw [accepted]
      refine harvested.frame rfl rfl rfl fun offset marked => ?_
      exact Std.TreeSet.mem_insert.mpr (Or.inr marked)
    · rwa [refused]
  | launch _ => exact harvested.frame rfl rfl rfl fun _ marked => marked
  | @merge survey entry wave merged within =>
    exact (harvested.frame rfl rfl rfl fun _ marked => marked : Harvested scope
      ⟨{ survey with decoded := survey.decoded + (Trace.run scope entry).decoded },
        entry :: wave, merged⟩).merge (.whole entry)
  | @cut survey entry wave merged limit exceeding left =>
    exact (harvested.frame rfl rfl rfl fun _ marked => marked : Harvested scope
      ⟨{ survey with exhausted := true, decoded := limit }, entry :: wave, merged⟩).merge
        (.part entry left)
  | refuse _ _ => exact harvested.frame rfl rfl rfl fun _ marked => marked
  | giveUpWave _ => exact harvested.frame rfl rfl rfl fun _ marked => marked
  | giveUpQueue _ => exact harvested.frame rfl rfl rfl fun _ marked => marked

end Harvested

theorem Course.harvested {scope : Scope} {budget : Option Nat} {first last : Stage}
    (course : Course scope budget first last) (harvested : first.Harvested scope) :
    last.Harvested scope :=
  course.keeps (Harvested scope) Harvested.move harvested

end Stage

end Cartridge
