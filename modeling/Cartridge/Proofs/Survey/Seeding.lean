/-
This file proves that it does not matter in which order entries are offered between two waves,
nor how often. Two surveys are alike if their queues hold the same entries and they accepted the
same offsets; the rest of them is the same. A wave sorts its entries, and no two of them share an
offset, so surveys that are alike handle the same wave and are alike afterwards. Entries that
differ in nothing but their offsets can therefore be offered in any order.
-/

import Cartridge.Proofs.Ascending
import Cartridge.Proofs.Survey.Pairing
import Cartridge.Proofs.Survey.Placement

namespace Cartridge

namespace Survey

/-- Two surveys that differ at most in the order of their queues and in how the set of accepted
offsets was built up. -/
def Alike (first second : Survey) : Prop :=
  ∃ queue seen, first = { second with queue := queue, seen := seen } ∧
    queue.Perm second.queue ∧ ∀ offset, offset ∈ seen ↔ offset ∈ second.seen

namespace Alike

/-! ### Accepting and merging -/

theorem enqueue {first second : Survey} (alike : first.Alike second) (range : Span)
    (entry : Entry) : (first.enqueue range entry).Alike (second.enqueue range entry) := by
  obtain ⟨queue, seen, rfl, perm, same⟩ := alike
  have contains : seen.contains entry.offset = second.seen.contains entry.offset := by
    rw [Bool.eq_iff_iff, Std.TreeSet.contains_iff_mem, Std.TreeSet.contains_iff_mem, same]
  rw [Survey.enqueue, Survey.enqueue, contains]
  split
  · refine ⟨entry :: queue, seen.insert entry.offset, rfl, perm.cons entry, fun offset => ?_⟩
    rw [Std.TreeSet.mem_insert, Std.TreeSet.mem_insert, same]
  · exact ⟨queue, seen, rfl, perm, same⟩

theorem accept {first second : Survey} (alike : first.Alike second) (range : Span)
    (entries : List Entry) :
    (first.accept range entries).Alike (second.accept range entries) := by
  induction entries generalizing first second with
  | nil => exact alike
  | cons entry rest inductionHypothesis => exact inductionHypothesis (alike.enqueue range entry)

theorem merge {first second : Survey} (alike : first.Alike second) (range : Span)
    (trace : Trace) : (first.merge range trace).Alike (second.merge range trace) := by
  obtain ⟨queue, seen, accepted, perm, same⟩ := alike.accept range trace.offers
  obtain ⟨waiting, known, rfl, -, -⟩ := alike
  rw [merge_eq, merge_eq, accepted]
  exact ⟨queue, seen, rfl, perm, same⟩

theorem mergeCut {first second : Survey} (alike : first.Alike second) (range : Span)
    (budget : Nat) (trace : Trace) :
    (first.mergeCut range budget trace).Alike (second.mergeCut range budget trace) := by
  obtain ⟨queue, seen, rfl, perm, same⟩ := alike
  by_cases nothing : budget - second.decoded = 0
  · rw [Survey.mergeCut, Survey.mergeCut, if_pos nothing, if_pos nothing]
    exact ⟨queue, seen, rfl, perm, same⟩
  · rw [Survey.mergeCut, Survey.mergeCut, if_neg nothing, if_neg nothing]
    refine Alike.merge ?_ range _
    exact ⟨queue, seen, rfl, perm, same⟩

theorem mergeAll {first second : Survey} (alike : first.Alike second) (range : Span)
    (budget : Option Nat) (traces : List Trace) :
    (first.mergeAll range budget traces).Alike (second.mergeAll range budget traces) := by
  induction traces generalizing first second with
  | nil => exact alike
  | cons trace rest inductionHypothesis =>
    have decoded : first.decoded = second.decoded := by
      obtain ⟨queue, seen, rfl, -⟩ := alike
      rfl
    rw [Survey.mergeAll, Survey.mergeAll, exceeds, exceeds, decoded]
    split
    · rename_i limit _
      obtain ⟨queue, seen, cut, perm, same⟩ := alike.mergeCut range limit trace
      rw [cut]
      exact ⟨queue, seen, rfl, perm, same⟩
    · refine inductionHypothesis (Alike.merge ?_ range trace)
      obtain ⟨queue, seen, rfl, perm, same⟩ := alike
      exact ⟨queue, seen, rfl, perm, same⟩

/-! ### Waves -/

/-- Entries with distinct offsets are sorted in one way only. -/
theorem nextWave_eq {first second : Survey} (perm : first.queue.Perm second.queue)
    (once : (first.queue.map Entry.offset).Nodup) : first.nextWave = second.nextWave := by
  have whole : first.nextWave.Perm second.nextWave :=
    (List.mergeSort_perm _ _).trans (perm.trans (List.mergeSort_perm _ _).symm)
  refine whole.eq_of_pairwise ?_ (pairwise_le_mergeSort Entry.offset _)
    (pairwise_le_mergeSort Entry.offset _)
  intro earlier later memberEarlier memberLater before after
  refine List.inj_on_of_nodup_map once (List.mem_mergeSort.mp memberEarlier) ?_
    (Nat.le_antisymm before after)
  exact perm.mem_iff.mpr (List.mem_mergeSort.mp memberLater)

theorem handleWave {first second : Survey} (alike : first.Alike second)
    (once : (first.queue.map Entry.offset).Nodup) (scope : Scope) (budget : Option Nat) :
    (first.handleWave scope budget).Alike (second.handleWave scope budget) := by
  obtain ⟨queue, seen, rfl, perm, same⟩ := alike
  have wave : { second with queue := queue, seen := seen }.nextWave = second.nextWave :=
    nextWave_eq perm once
  rw [Survey.handleWave, Survey.handleWave, wave]
  by_cases stopped : second.exhausted = true
  · rw [if_pos stopped, if_pos stopped]
    exact ⟨[], seen, rfl, .refl _, same⟩
  · rw [if_neg stopped, if_neg stopped]
    refine Alike.mergeAll ?_ _ _ _
    exact ⟨[], seen, rfl, .refl _, same⟩

end Alike

/-! ### Entries in another order -/

/-- Accepting other entries at the same offsets of the range makes no difference, if entries with
one offset are the same. -/
theorem alike_accept {scope : Scope} {survey : Survey} {merged : List Trace}
    (placed : Stage.Placed scope ⟨survey, [], merged⟩) {first second : List Entry}
    (only : ∀ one ∈ first, ∀ two ∈ second, one.offset = two.offset → one = two)
    (same : ∀ offset, scope.range.contains offset = true →
      (offset ∈ first.map Entry.offset ↔ offset ∈ second.map Entry.offset)) :
    (survey.accept scope.range first).Alike (survey.accept scope.range second) := by
  have once (entries : List Entry) : (survey.accept scope.range entries).queue.Nodup := by
    have accepted := (placed.accept entries).once
    rw [Stage.offsets, List.append_assoc, List.append_assoc] at accepted
    exact accepted.of_append_left.of_map _
  have found {entries others : List Entry} {entry : Entry}
      (only : ∀ one ∈ entries, ∀ two ∈ others, one.offset = two.offset → one = two)
      (listed : entry.offset ∈ others.map Entry.offset)
      (first : entries.find? (fun other => other.offset == entry.offset) = some entry) :
      others.find? (fun other => other.offset == entry.offset) = some entry := by
    obtain ⟨two, member, here⟩ := List.mem_map.mp listed
    have known : (others.find? fun other => other.offset == entry.offset).isSome = true :=
      List.find?_isSome.mpr ⟨two, member, by simpa using here⟩
    obtain ⟨shown, look⟩ := Option.isSome_iff_exists.mp known
    rw [look, only entry (List.mem_of_find?_eq_some first) shown (List.mem_of_find?_eq_some look)]
    exact (by simpa using List.find?_some look : shown.offset = entry.offset).symm
  refine ⟨(survey.accept scope.range first).queue, (survey.accept scope.range first).seen, ?_, ?_,
    fun offset => ?_⟩
  · rw [accept_eq, accept_eq scope.range survey second]
  · refine (List.perm_ext_iff_of_nodup (once first) (once second)).mpr fun entry => ?_
    rw [mem_queue_accept_iff, mem_queue_accept_iff]
    refine or_congr_right (and_congr_right fun inside => and_congr_right fun _ => ⟨?_, ?_⟩)
    · intro look
      refine found only ((same _ inside).mp ?_) look
      exact List.mem_map_of_mem (List.mem_of_find?_eq_some look)
    · intro look
      refine found (fun one memberOne two memberTwo here =>
        (only two memberTwo one memberOne here.symm).symm) ((same _ inside).mpr ?_) look
      exact List.mem_map_of_mem (List.mem_of_find?_eq_some look)
  · rw [mem_seen_accept, mem_seen_accept]
    exact or_congr_right (and_congr_left fun inside => same offset inside)

/-- Entry points that lead to the same offsets of the range seed surveys that are alike. -/
theorem alike_seedEntryPoints {scope : Scope} {survey : Survey} {merged : List Trace}
    (placed : Stage.Placed scope ⟨survey, [], merged⟩) {first second : List Address}
    (same : ∀ offset, scope.range.contains offset = true →
      (offset ∈ first.filterMap scope.board.wiring.offset? ↔
        offset ∈ second.filterMap scope.board.wiring.offset?)) :
    (survey.seedEntryPoints scope first).Alike (survey.seedEntryPoints scope second) := by
  have offsets (addresses : List Address) : (addresses.filterMap fun address =>
      (scope.board.wiring.offset? address).map fun offset =>
        (⟨offset, {}, .entryPoint⟩ : Entry)).map Entry.offset =
      addresses.filterMap scope.board.wiring.offset? := by
    rw [List.map_filterMap]
    refine congrArg (List.filterMap · addresses) (funext fun address => ?_)
    cases scope.board.wiring.offset? address <;> rfl
  rw [seedEntryPoints_eq_accept, seedEntryPoints_eq_accept]
  refine alike_accept placed ?_ fun offset inside => ?_
  · intro one memberOne two memberTwo here
    obtain ⟨address, -, made⟩ := List.mem_filterMap.mp memberOne
    obtain ⟨offset, -, rfl⟩ := Option.map_eq_some_iff.mp made
    obtain ⟨other, -, madeOther⟩ := List.mem_filterMap.mp memberTwo
    obtain ⟨place, -, rfl⟩ := Option.map_eq_some_iff.mp madeOther
    rw [show offset = place from here]
  · rw [offsets, offsets]
    exact same offset inside

/-! ### Whole surveys -/

/-- Surveys that are alike go together to their ends. -/
theorem pairing_alike (scope : Scope) (budget : Option Nat) :
    Pairing scope scope budget budget
      (fun left right => left.Alike right ∧ ∃ merged, Stage.Placed scope ⟨left, [], merged⟩)
      (fun _ _ => False) where
  range := rfl
  queue := by
    rintro left right ⟨⟨queue, seen, rfl, perm, -⟩, -⟩
    exact perm.isEmpty_eq
  exhausted := by
    rintro left right ⟨⟨queue, seen, rfl, -⟩, -⟩
    rfl
  covered := by
    rintro left right ⟨⟨queue, seen, rfl, -⟩, -⟩
    rfl
  seen := by
    rintro left right ⟨⟨queue, seen, rfl, -, same⟩, -⟩
    rw [Bool.eq_iff_iff, Std.TreeSet.isEmpty_iff_forall_not_mem,
      Std.TreeSet.isEmpty_iff_forall_not_mem]
    exact forall_congr' fun offset => not_congr (same offset)
  offer := by
    rintro left right entry ⟨alike, merged, placed⟩ -
    exact ⟨alike.enqueue scope.range entry, merged, placed.enqueue entry⟩
  wave := by
    rintro left right ⟨alike, merged, placed⟩
    have handled := (Stage.course_handleWave scope budget left merged).placed placed
    have once : (left.queue.map Entry.offset).Nodup := by
      refine placed.once.sublist ?_
      rw [Stage.offsets, List.append_assoc, List.append_assoc]
      exact List.sublist_append_left _ _
    exact Or.inl ⟨alike.handleWave once scope budget, _, handled⟩
  stopped := False.elim
  begun := False.elim
  giveUp := False.elim
  grows := fun impossible _ => impossible

/-- Surveys from entry points that lead to the same offsets of the range end alike. -/
theorem alike_run {scope : Scope} {begun : Survey} (placed : Stage.Placed scope ⟨begun, [], []⟩)
    {first second : List Address}
    (same : ∀ offset, scope.range.contains offset = true →
      (offset ∈ first.filterMap scope.board.wiring.offset? ↔
        offset ∈ second.filterMap scope.board.wiring.offset?))
    (budget : Option Nat) (handlers : List Handler) (windows : List Span) :
    (begun.run scope budget first handlers windows).Alike
      (begun.run scope budget second handlers windows) := by
  have seeded := alike_seedEntryPoints placed same
  have course := Stage.course_seeded scope budget begun [] first handlers
  have together : ((begun.seedEntryPoints scope first).seedHandlers scope handlers).Alike
      ((begun.seedEntryPoints scope second).seedHandlers scope handlers) := by
    rw [seedHandlers_eq_accept, seedHandlers_eq_accept]
    exact seeded.accept scope.range _
  have joined := (pairing_alike scope budget).run first second handlers handlers
    ⟨together, [], course.placed placed⟩ windows
  exact (joined.resolve_right id).1

end Survey

end Cartridge
