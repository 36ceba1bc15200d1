/-
This file compares a survey under an instruction budget with the same survey without one.
Both go through the same stages until a trace exceeds the budget. From then on the bounded
survey finds nothing more: all that it has is what the free survey had at that stage, and
perhaps the beginning of the routine whose trace was cut. The free survey goes on, but it
never takes back a routine or an accepted offset, so what was true of the two surveys when
they parted is still true at their ends.
-/

import Cartridge.Proofs.Counting
import Cartridge.Proofs.Survey.Pairing
import Cartridge.Proofs.Survey.Placement

namespace Cartridge

/-! ### What a cut leaves of a trace -/

namespace Tiling

theorem instructions_filter_ne {tiling : Tiling} {bound : Nat} (member : bound ∈ tiling.keys) :
    instructions (tiling.filter fun offset _ => offset < bound) ≠ tiling.instructions := by
  intro same
  rw [← Std.TreeMap.map_fst_toList_eq_keys] at member
  obtain ⟨pair, listed, rfl⟩ := List.mem_map.mp member
  have lengths := congrArg List.length same
  rw [instructions, instructions, List.length_map, List.length_map, Std.TreeMap.toList_filter,
    List.length_filter_eq_length_iff] at lengths
  simpa using lengths pair listed

end Tiling

/-- A routine that holds the beginning of another one: the same entry, and fewer
instructions. -/
structure Routine.CutFrom (part whole : Routine) : Prop where
  start : part.start = whole.start
  seed : part.seed = whole.seed
  entry : part.entry = whole.entry
  begins : part.instructions <+: whole.instructions
  fewer : part.instructions ≠ whole.instructions

namespace Trace

/-- A cut changes nothing, or it drops an instruction and leaves a trace that is not
trusted. -/
theorem cut_cases (trace : Trace) (count : Nat) :
    trace.cut count = trace ∨
      ∃ bound ∈ trace.tiling.keys,
        (trace.cut count).tiling = trace.tiling.filter (fun offset _ => offset < bound) ∧
        (trace.cut count).isConfident = false ∧
        (∀ entry ∈ (trace.cut count).successors, entry ∈ trace.successors) := by
  unfold cut
  split
  · exact Or.inl rfl
  · rename_i bound last
    refine Or.inr ⟨bound, List.mem_of_getElem? last, rfl, rfl, fun entry member => ?_⟩
    rcases List.mem_append.mp member with called | jumped
    · exact List.mem_append_left _ ((List.filter_sublist.filterMap _).subset called)
    · exact List.mem_append_right _ ((List.filter_sublist.filterMap _).subset jumped)

theorem isDoubtful_of_isConfident_eq_false {trace : Trace} (doubt : trace.isConfident = false) :
    trace.isDoubtful = decide (trace.entry.seed = .region) := by
  rw [isDoubtful, doubt, Bool.not_false, Bool.and_true]

/-- A trace that is not trusted at the start of a window is the only one that yields nothing
although it holds an instruction; so what a cut trace yields, the whole one yields too. -/
theorem exists_yield?_of_cut {trace : Trace} {count : Nat} {part : Routine × List Nat}
    (yields : (trace.cut count).yield? = some part) :
    trace.cut count = trace ∨
      ∃ whole, trace.yield? = some whole ∧ part.1.CutFrom whole.1 := by
  rcases trace.cut_cases count with same | ⟨bound, member, tiling, doubt, -⟩
  · exact Or.inl same
  obtain ⟨certain, found, -⟩ := yield?_eq_some_iff.mp yields
  obtain ⟨start, entry, seed, -, instructions, first, head, -⟩ := routine?_eq_some found
  rw [isDoubtful_of_isConfident_eq_false doubt, entry_cut, decide_eq_false_iff_not] at certain
  rw [entry_cut] at start entry seed
  have begins := List.take_prefix count trace.tiling.instructions
  rw [← instructions_cut] at begins
  obtain ⟨whole, traced⟩ : ∃ whole, trace.routine? = some whole := by
    refine Option.ne_none_iff_exists'.mp fun none => ?_
    rw [routine?_eq_none_iff.mp none, List.prefix_nil] at begins
    rw [begins] at head
    exact nomatch head
  have wholeCertain : trace.isDoubtful = false := by
    rw [isDoubtful, decide_eq_false certain, Bool.false_and]
  obtain ⟨wholeStart, wholeEntry, wholeSeed, -, wholeInstructions, -⟩ := routine?_eq_some traced
  refine Or.inr ⟨(whole, trace.labels), yield?_eq_some_iff.mpr ⟨wholeCertain, traced, rfl⟩, ?_⟩
  constructor
  · rw [start, wholeStart]
  · rw [seed, wholeSeed]
  · rw [entry, wholeEntry]
  · rw [instructions, wholeInstructions]
    exact begins
  · rw [instructions, wholeInstructions, tiling]
    exact Tiling.instructions_filter_ne member

/-- A cut trace offers nothing that the whole one does not offer. -/
theorem mem_offers_of_cut {trace : Trace} {count : Nat} {entry : Entry}
    (offer : entry ∈ (trace.cut count).offers) : entry ∈ trace.offers := by
  rw [offers] at offer
  cases yields : (trace.cut count).yield? with
  | none =>
    rw [yields] at offer
    exact absurd offer List.not_mem_nil
  | some part =>
    rw [yields] at offer
    rcases exists_yield?_of_cut yields with same | ⟨whole, wholeYields, -⟩
    · rw [same] at offer yields
      rwa [offers, yields]
    · rw [offers, wholeYields]
      rcases trace.cut_cases count with same | ⟨-, -, -, -, kept⟩
      · rwa [same] at offer
      · exact kept entry offer

end Trace

/-! ### A bounded and a free survey side by side -/

/-- Without a budget a survey never runs out of it. -/
theorem Stage.Course.going {scope : Scope} {first last : Stage}
    (course : Course scope none first last) (going : first.survey.exhausted = false) :
    last.survey.exhausted = false := by
  refine course.keeps (fun stage => stage.survey.exhausted = false) ?_ going
  intro before after move going
  cases move with
  | @offer survey merged entry _ =>
    show (survey.enqueue scope.range entry).exhausted = false
    rcases Survey.enqueue_cases scope.range survey entry with ⟨-, -, accepted⟩ | ⟨-, refused⟩
    · rwa [accepted]
    · rwa [refused]
  | launch _ => exact going
  | merge _ => exact (Survey.exhausted_merge _ _ _).trans going
  | cut exceeding _ => exact nomatch exceeding
  | refuse exceeding _ => exact nomatch exceeding
  | giveUpWave stopped => exact Bool.noConfusion (stopped.symm.trans going)
  | giveUpQueue stopped => exact Bool.noConfusion (stopped.symm.trans going)

namespace Survey

/-- The budget of one survey has run out, and all that it has found another one has found too,
except that its last routine may be the beginning of one. -/
structure Truncates (bounded free : Survey) : Prop where
  stopped : bounded.exhausted = true
  begun : bounded.seen.isEmpty = false
  routines : ∃ (common : List (Routine × List Nat)) (last : Option (Routine × List Nat)),
    bounded.routines.toList = common ++ last.toList ∧ common <+: free.routines.toList ∧
      ∀ part ∈ last, ∃ whole ∈ free.routines.toList, part.1.CutFrom whole.1
  seen : ∀ offset ∈ bounded.seen, offset ∈ free.seen

namespace Truncates

theorem grows {bounded before after : Survey} (truncates : bounded.Truncates before)
    (grown : before.Grows after) : bounded.Truncates after := by
  obtain ⟨common, last, found, shared, cut⟩ := truncates.routines
  refine ⟨truncates.stopped, truncates.begun,
    ⟨common, last, found, shared.trans grown.routines, fun part member => ?_⟩,
    fun offset marked => grown.seen offset (truncates.seen offset marked)⟩
  obtain ⟨whole, listed, cutFrom⟩ := cut part member
  exact ⟨whole, grown.routines.subset listed, cutFrom⟩

theorem abandon {bounded free : Survey} (truncates : bounded.Truncates free)
    (offsets : List Nat) : (bounded.abandon offsets).Truncates free :=
  ⟨truncates.stopped, truncates.begun, truncates.routines, truncates.seen⟩

theorem handleWave {scope : Scope} {budget : Option Nat} {bounded free : Survey}
    (truncates : bounded.Truncates free) :
    (bounded.handleWave scope budget).Truncates free := by
  rw [Survey.handleWave, if_pos truncates.stopped]
  have waiting : { bounded with queue := [] }.Truncates free :=
    ⟨truncates.stopped, truncates.begun, truncates.routines, truncates.seen⟩
  exact waiting.abandon _

end Truncates

variable {scope : Scope} {limit : Nat}

/-- When a trace is cut, what is still taken of it is taken without the cut too. -/
theorem truncates_merge_cut {survey : Survey} {trace : Trace} {count : Nat}
    (stopped : survey.exhausted = true) (accepted : trace.entry.offset ∈ survey.seen)
    {free : Survey} (routines : free.routines = survey.routines) (seen : free.seen = survey.seen)
    (range : Span) :
    (survey.merge range (trace.cut count)).Truncates (free.merge range trace) := by
  refine ⟨(exhausted_merge _ _ _).trans stopped, ?_, ?_, fun offset marked => ?_⟩
  · refine Std.TreeSet.isEmpty_eq_false_iff_exists_mem.mpr ⟨trace.entry.offset, ?_⟩
    rw [seen_merge, mem_seen_accept]
    exact Or.inl accepted
  · rw [routines_merge, routines_merge, Array.toList_append, Array.toList_append, routines]
    cases yields : (trace.cut count).yield? with
    | none =>
      exact ⟨survey.routines.toList, none, rfl, List.prefix_append _ _,
        fun part member => absurd member (Option.not_mem_none part)⟩
    | some part =>
      rcases Trace.exists_yield?_of_cut yields with same | ⟨whole, wholeYields, cutFrom⟩
      · rw [same] at yields
        rw [yields]
        refine ⟨survey.routines.toList ++ [part], none, (List.append_nil _).symm,
          List.prefix_rfl, fun part member => absurd member (Option.not_mem_none part)⟩
      · rw [wholeYields]
        refine ⟨survey.routines.toList, some part, rfl, List.prefix_append _ _, ?_⟩
        rintro _ ⟨⟩
        exact ⟨whole, List.mem_append_right _ (List.mem_singleton_self whole), cutFrom⟩
  · rw [seen_merge, mem_seen_accept] at marked ⊢
    rw [seen]
    refine marked.imp_right fun ⟨offered, inside⟩ => ⟨?_, inside⟩
    obtain ⟨entry, member, rfl⟩ := List.mem_map.mp offered
    exact List.mem_map_of_mem (Trace.mem_offers_of_cut member)

/-- When a trace exceeds the budget, the two surveys part. -/
theorem truncates_mergeCut {survey : Survey} {trace : Trace}
    (accepted : trace.entry.offset ∈ survey.seen) (decoded : Nat) :
    (survey.mergeCut scope.range limit trace).Truncates
      ({ survey with decoded := decoded }.merge scope.range trace) := by
  rw [mergeCut]
  split
  · have grown : survey.Grows ({ survey with decoded := decoded }.merge scope.range trace) := by
      refine .merge ?_ _ _
      exact ⟨List.prefix_rfl, fun _ marked => marked⟩
    refine Truncates.abandon ?_ _
    refine ⟨rfl, ?_, ⟨survey.routines.toList, none, ?_, grown.routines, ?_⟩, grown.seen⟩
    · exact Std.TreeSet.isEmpty_eq_false_iff_exists_mem.mpr ⟨_, accepted⟩
    · exact (List.append_nil _).symm
    · exact fun part member => absurd member (Option.not_mem_none part)
  · refine truncates_merge_cut ?_ ?_ ?_ ?_ scope.range
    · rfl
    · exact accepted
    · rfl
    · rfl

/-- Merging a wave with a budget and without one gives the same, or the surveys part. -/
theorem mergeAll_eq_or_truncates (limit : Nat) {survey : Survey} {wave : List Entry}
    {merged : List Trace} (placed : Stage.Placed scope ⟨survey, wave, merged⟩) :
    survey.mergeAll scope.range (some limit) (wave.map (Trace.run scope)) =
        survey.mergeAll scope.range none (wave.map (Trace.run scope)) ∨
      (survey.mergeAll scope.range (some limit) (wave.map (Trace.run scope))).Truncates
        (survey.mergeAll scope.range none (wave.map (Trace.run scope))) := by
  induction wave generalizing survey merged with
  | nil => exact Or.inl rfl
  | cons entry wave inductionHypothesis =>
    have next : Stage.Move scope none ⟨survey, entry :: wave, merged⟩ _ := .merge rfl
    rw [List.map_cons, mergeAll, mergeAll]
    cases exceeding : survey.exceeds (some limit) (Trace.run scope entry) with
    | none => exact inductionHypothesis (Stage.Placed.move next placed)
    | some budget =>
      have accepted : (Trace.run scope entry).entry.offset ∈ survey.seen := by
        rw [Trace.entry_run]
        refine placed.marked.mpr (List.mem_append_left _ (List.mem_append_left _ ?_))
        exact List.mem_append_right _ List.mem_cons_self
      exact Or.inr (((truncates_mergeCut accepted _).abandon _).grows
        (Stage.course_mergeAll scope none _ wave merged).grows)

/-- A survey between waves that has given up nothing yet. -/
structure Going (scope : Scope) (survey : Survey) : Prop where
  placed : ∃ merged, Stage.Placed scope ⟨survey, [], merged⟩
  going : survey.exhausted = false

theorem Going.course {survey after : Survey} (running : survey.Going scope)
    (course : ∀ merged, ∃ later,
      Stage.Course scope none ⟨survey, [], merged⟩ ⟨after, [], later⟩) :
    after.Going scope := by
  obtain ⟨merged, placed⟩ := running.placed
  obtain ⟨later, course⟩ := course merged
  exact ⟨⟨later, course.placed placed⟩, course.going running.going⟩

/-- A survey with a budget and one without are the same until the budget runs out. -/
theorem pairing_budget (scope : Scope) (limit : Nat) :
    Pairing scope scope (some limit) none
      (fun bounded free => bounded = free ∧ free.Going scope) Truncates where
  range := rfl
  queue together := by rw [together.1]
  exhausted together := by rw [together.1]
  covered together := by rw [together.1]
  seen together := by rw [together.1]
  offer := by
    rintro bounded free entry ⟨rfl, running⟩ root
    exact ⟨rfl, running.course fun merged => ⟨merged, .single (.offer root)⟩⟩
  wave := by
    rintro bounded free ⟨rfl, running⟩
    obtain ⟨merged, placed⟩ := running.placed
    have launched := Stage.Placed.move (.launch running.going : Stage.Move scope none _ _) placed
    have still : ¬ bounded.exhausted = true := by rw [running.going]; exact Bool.false_ne_true
    rcases mergeAll_eq_or_truncates limit launched with equal | truncates
    · refine Or.inl ⟨?_, running.course fun merged =>
        ⟨_, Stage.course_handleWave scope none bounded merged⟩⟩
      rw [handleWave, handleWave, if_neg still, if_neg still]
      exact equal
    · refine Or.inr ?_
      rw [handleWave, handleWave, if_neg still, if_neg still]
      exact truncates
  stopped truncates := truncates.stopped
  begun truncates := truncates.begun
  giveUp truncates := truncates.handleWave
  grows truncates grown := truncates.grows grown

/-- At its end a survey with a budget is the one without, or its budget has run out. -/
theorem run_eq_or_truncates {begun : Survey} (running : begun.Going scope) (limit : Nat)
    (entryPoints : List Address) (handlers : List Handler) (windows : List Span) :
    (begun.run scope (some limit) entryPoints handlers windows =
        begun.run scope none entryPoints handlers windows ∧
      (begun.run scope none entryPoints handlers windows).exhausted = false) ∨
    (begun.run scope (some limit) entryPoints handlers windows).Truncates
      (begun.run scope none entryPoints handlers windows) := by
  have seeded := running.course fun merged =>
    ⟨_, Stage.course_seeded scope none begun merged entryPoints handlers⟩
  refine ((pairing_budget scope limit).run entryPoints entryPoints handlers handlers
    ⟨rfl, seeded⟩ windows).imp_left fun together => ?_
  exact ⟨together.1, together.2.going⟩

end Survey

end Cartridge
