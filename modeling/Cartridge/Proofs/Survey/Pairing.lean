/-
This file compares two surveys that are given the same entries. As long as nothing sets them
apart they take the same decisions: whether a wave is due, whether the budget has run out,
whether a window is covered and whether any entry was ever accepted. A pairing says what the
two have in common while they go together and what is left of it once they have parted. From
what a pairing asks of one wave and of one entry it follows what holds at the end of both
surveys.

Two surveys part only because the first one stops. The second goes on alone, but a survey
never takes back a routine or an accepted offset, and that is all that is asked of it then.
-/

import Cartridge.Proofs.Survey.Course

namespace Cartridge

namespace Survey

/-! ### A survey takes nothing back -/

/-- A later survey has the routines and the accepted offsets of an earlier one. -/
structure Grows (before after : Survey) : Prop where
  routines : before.routines.toList <+: after.routines.toList
  seen : ∀ offset ∈ before.seen, offset ∈ after.seen

namespace Grows

theorem refl (survey : Survey) : survey.Grows survey :=
  ⟨List.prefix_rfl, fun _ marked => marked⟩

theorem trans {first second third : Survey} (before : first.Grows second)
    (after : second.Grows third) : first.Grows third :=
  ⟨before.routines.trans after.routines,
    fun offset marked => after.seen offset (before.seen offset marked)⟩

theorem enqueue (range : Span) (survey : Survey) (entry : Entry) :
    survey.Grows (survey.enqueue range entry) := by
  refine ⟨?_, fun offset marked => mem_seen_enqueue.mpr (Or.inl marked)⟩
  rcases enqueue_cases range survey entry with ⟨-, -, accepted⟩ | ⟨-, refused⟩
  · exact accepted ▸ List.prefix_rfl
  · exact refused.symm ▸ List.prefix_rfl

theorem merge {before survey : Survey} (grown : before.Grows survey) (range : Span)
    (trace : Trace) : before.Grows (survey.merge range trace) := by
  constructor
  · rw [routines_merge, Array.toList_append]
    exact grown.routines.trans (List.prefix_append _ _)
  · intro offset marked
    rw [seen_merge]
    exact mem_seen_accept.mpr (Or.inl (grown.seen offset marked))

theorem move {scope : Scope} {budget : Option Nat} {before after : Stage}
    (move : Stage.Move scope budget before after) : before.survey.Grows after.survey := by
  cases move with
  | offer _ => exact .enqueue _ _ _
  | launch _ => exact ⟨List.prefix_rfl, fun _ marked => marked⟩
  | merge _ =>
    refine .merge ?_ _ _
    exact ⟨List.prefix_rfl, fun _ marked => marked⟩
  | cut _ _ =>
    refine .merge ?_ _ _
    exact ⟨List.prefix_rfl, fun _ marked => marked⟩
  | refuse _ _ => exact ⟨List.prefix_rfl, fun _ marked => marked⟩
  | giveUpWave _ => exact ⟨List.prefix_rfl, fun _ marked => marked⟩
  | giveUpQueue _ => exact ⟨List.prefix_rfl, fun _ marked => marked⟩

end Grows

end Survey

theorem Stage.Course.grows {scope : Scope} {budget : Option Nat} {first last : Stage}
    (course : Course scope budget first last) : first.survey.Grows last.survey :=
  course.keeps (fun stage => first.survey.Grows stage.survey)
    (fun move grown => grown.trans (.move move)) (.refl _)

namespace Survey

/-! ### Pairings -/

/-- Two surveys go together or have parted. -/
abbrev Joined (Together Apart : Survey → Survey → Prop) (left right : Survey) : Prop :=
  Together left right ∨ Apart left right

/-- What two surveys have in common while they go together, and once the first one has stopped
and they have parted. -/
structure Pairing (first second : Scope) (firstBudget secondBudget : Option Nat)
    (Together Apart : Survey → Survey → Prop) : Prop where
  range : first.range = second.range
  queue : ∀ {left right}, Together left right → left.queue.isEmpty = right.queue.isEmpty
  exhausted : ∀ {left right}, Together left right → left.exhausted = right.exhausted
  covered : ∀ {left right}, Together left right → left.covered = right.covered
  seen : ∀ {left right}, Together left right → left.seen.isEmpty = right.seen.isEmpty
  offer : ∀ {left right entry}, Together left right → entry.IsRoot →
    Together (left.enqueue first.range entry) (right.enqueue second.range entry)
  wave : ∀ {left right}, Together left right →
    Joined Together Apart (left.handleWave first firstBudget)
      (right.handleWave second secondBudget)
  stopped : ∀ {left right}, Apart left right → left.exhausted = true
  begun : ∀ {left right}, Apart left right → left.seen.isEmpty = false
  giveUp : ∀ {left right}, Apart left right → Apart (left.handleWave first firstBudget) right
  grows : ∀ {left right later}, Apart left right → right.Grows later → Apart left later

namespace Pairing

variable {first second : Scope} {firstBudget secondBudget : Option Nat}
  {Together Apart : Survey → Survey → Prop}
  (pairing : Pairing first second firstBudget secondBudget Together Apart)
include pairing

theorem giveUpWaves {left right : Survey} (apart : Apart left right) (count : Nat) :
    Apart (left.handleWaves first firstBudget count) right := by
  induction count generalizing left with
  | zero => exact apart
  | succ count inductionHypothesis =>
    rw [handleWaves]
    split
    · exact apart
    · exact inductionHypothesis (pairing.giveUp apart)

theorem handleWaves {left right : Survey} (together : Together left right) (count : Nat) :
    Joined Together Apart (left.handleWaves first firstBudget count)
      (right.handleWaves second secondBudget count) := by
  induction count generalizing left right with
  | zero => exact Or.inl together
  | succ count inductionHypothesis =>
    rw [Survey.handleWaves, Survey.handleWaves, pairing.queue together]
    split
    · exact Or.inl together
    · rcases pairing.wave together with still | apart
      · exact inductionHypothesis still
      · exact Or.inr (pairing.grows (pairing.giveUpWaves apart count)
          (Stage.course_handleWaves second secondBudget count _ []).grows)

theorem drain {left right : Survey} (together : Together left right) :
    Joined Together Apart (left.drain first firstBudget) (right.drain second secondBudget) := by
  rw [Survey.drain, Survey.drain, pairing.range]
  exact pairing.handleWaves together _

theorem tryRegion {left right : Survey} (together : Together left right) (window : Span) :
    Joined Together Apart (left.tryRegion first firstBudget window)
      (right.tryRegion second secondBudget window) := by
  have covered : left.isCovered window = right.isCovered window := by
    rw [isCovered, isCovered, nearestEnd?, nearestEnd?, pairing.covered together]
  rw [Survey.tryRegion, Survey.tryRegion, covered, pairing.exhausted together]
  split
  · exact Or.inl together
  · exact pairing.drain (pairing.offer together (.region window.start))

theorem tryRegions {left right : Survey} (joined : Joined Together Apart left right)
    (windows : List Span) :
    Joined Together Apart (windows.foldl (Survey.tryRegion first firstBudget) left)
      (windows.foldl (Survey.tryRegion second secondBudget) right) := by
  induction windows generalizing left right with
  | nil => exact joined
  | cons window rest inductionHypothesis =>
    refine inductionHypothesis ?_
    rcases joined with together | apart
    · exact pairing.tryRegion together window
    · rw [Survey.tryRegion, if_pos (by rw [pairing.stopped apart, Bool.true_or])]
      exact Or.inr (pairing.grows apart
        (Stage.course_tryRegion second secondBudget right [] window).grows)

theorem tryFallback {left right : Survey} (joined : Joined Together Apart left right) :
    Joined Together Apart (left.tryFallback first firstBudget)
      (right.tryFallback second secondBudget) := by
  rcases joined with together | apart
  · rw [Survey.tryFallback, Survey.tryFallback, pairing.seen together]
    split
    · have offered := pairing.offer together (.fallback second.range.start)
      rw [← pairing.range] at offered ⊢
      exact pairing.drain offered
    · exact Or.inl together
  · rw [Survey.tryFallback, if_neg (by rw [pairing.begun apart]; exact Bool.false_ne_true)]
    exact Or.inr (pairing.grows apart
      (Stage.course_tryFallback second secondBudget right []).grows)

/-- What a pairing says of two surveys once their first entries are accepted, it says of them
at their ends. -/
theorem run {left right : Survey} (firstPoints secondPoints : List Address)
    (firstHandlers secondHandlers : List Handler)
    (seeded : Together ((left.seedEntryPoints first firstPoints).seedHandlers first firstHandlers)
      ((right.seedEntryPoints second secondPoints).seedHandlers second secondHandlers))
    (windows : List Span) :
    Joined Together Apart (left.run first firstBudget firstPoints firstHandlers windows)
      (right.run second secondBudget secondPoints secondHandlers windows) :=
  pairing.tryFallback (pairing.tryRegions (pairing.drain seeded) windows)

end Pairing

end Survey

end Cartridge
