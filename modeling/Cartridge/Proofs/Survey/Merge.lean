/-
This file says what merging a trace does to a survey, field by field. A trace yields a
routine unless it holds no instruction, or comes from a window and does not end on a return
or a jump. Only a trace that yields a routine offers its transfers as entries; an offered
entry is accepted if it lies in the range and its offset is new. All that merging leaves
behind is the entries accepted, the routine, its coverage, the problems and a report.
-/

import Cartridge.Survey
import Std.Data.TreeSet.Lemmas

namespace Cartridge

/-! ### Accepting entries -/

namespace Survey

/-- Accepting an entry queues it and marks its offset, or changes nothing. -/
theorem enqueue_cases (range : Span) (survey : Survey) (entry : Entry) :
    (range.contains entry.offset = true ∧ entry.offset ∉ survey.seen ∧
      survey.enqueue range entry =
        { survey with
          queue := entry :: survey.queue
          seen := survey.seen.insert entry.offset }) ∨
    ((range.contains entry.offset = true → entry.offset ∈ survey.seen) ∧
      survey.enqueue range entry = survey) := by
  unfold enqueue
  split
  · rename_i accepted
    rw [Bool.and_eq_true, Bool.not_eq_true', ← Bool.not_eq_true,
      Std.TreeSet.contains_iff_mem] at accepted
    exact Or.inl ⟨accepted.1, accepted.2, rfl⟩
  · rename_i refused
    refine Or.inr ⟨fun inside => ?_, rfl⟩
    rw [inside, Bool.true_and, Bool.not_eq_true', Bool.not_eq_false,
      Std.TreeSet.contains_iff_mem] at refused
    exact refused

/-- Accepts entries in turn. -/
def accept (range : Span) (survey : Survey) (entries : List Entry) : Survey :=
  entries.foldl (enqueue range) survey

theorem accept_append (range : Span) (survey : Survey) (first second : List Entry) :
    survey.accept range (first ++ second) = (survey.accept range first).accept range second :=
  List.foldl_append

/-- Going through items and accepting the entry that each of them makes, if any, is accepting
the entries made. -/
theorem foldl_eq_accept {Item : Type} {range : Span} {step : Survey → Item → Survey}
    {make : Item → Option Entry}
    (each : ∀ survey item, step survey item = survey.accept range (make item).toList)
    (survey : Survey) (items : List Item) :
    items.foldl step survey = survey.accept range (items.filterMap make) := by
  induction items generalizing survey with
  | nil => rfl
  | cons item rest inductionHypothesis =>
    rw [List.foldl_cons, inductionHypothesis, each, ← accept_append, List.filterMap_cons]
    cases make item <;> rfl

/-- A property that accepting one entry keeps is kept by accepting many. -/
theorem accept_invariant {range : Span} (Holds : Survey → Prop) {entries : List Entry}
    (accepts : ∀ {survey entry}, entry ∈ entries → Holds survey →
      Holds (survey.enqueue range entry))
    {survey : Survey} (holds : Holds survey) : Holds (survey.accept range entries) := by
  induction entries generalizing survey with
  | nil => exact holds
  | cons entry rest inductionHypothesis =>
    exact inductionHypothesis (fun member => accepts (List.mem_cons_of_mem _ member))
      (accepts List.mem_cons_self holds)

theorem mem_seen_enqueue {range : Span} {survey : Survey} {entry : Entry} {offset : Nat} :
    offset ∈ (survey.enqueue range entry).seen ↔
      offset ∈ survey.seen ∨ offset = entry.offset ∧ range.contains offset = true := by
  rcases enqueue_cases range survey entry with ⟨inside, -, accepted⟩ | ⟨known, refused⟩
  · rw [accepted, Std.TreeSet.mem_insert, Nat.compare_eq_eq, or_comm]
    refine or_congr_right ⟨?_, fun new => new.1.symm⟩
    rintro rfl
    exact ⟨rfl, inside⟩
  · rw [refused]
    refine ⟨Or.inl, ?_⟩
    rintro (old | ⟨rfl, inside⟩)
    · exact old
    · exact known inside

/-- The offsets marked are the old ones and those of the entries inside the range. -/
theorem mem_seen_accept {range : Span} {survey : Survey} {entries : List Entry} {offset : Nat} :
    offset ∈ (survey.accept range entries).seen ↔
      offset ∈ survey.seen ∨
        offset ∈ entries.map Entry.offset ∧ range.contains offset = true := by
  induction entries generalizing survey with
  | nil => simp [accept]
  | cons entry rest inductionHypothesis =>
    rw [show survey.accept range (entry :: rest) = (survey.enqueue range entry).accept range rest
      from rfl, inductionHypothesis, mem_seen_enqueue, List.map_cons, List.mem_cons, or_and_right,
      or_assoc]

theorem mem_queue_accept {range : Span} {survey : Survey} {entries : List Entry} {entry : Entry}
    (member : entry ∈ (survey.accept range entries).queue) :
    entry ∈ survey.queue ∨ entry ∈ entries := by
  revert member
  refine accept_invariant
    (fun after => entry ∈ after.queue → entry ∈ survey.queue ∨ entry ∈ entries) ?_ Or.inl
  intro after other listed known member
  rcases enqueue_cases range after other with ⟨-, -, accepted⟩ | ⟨-, refused⟩
  · rw [accepted] at member
    rcases List.mem_cons.mp member with rfl | old
    · exact Or.inr listed
    · exact known old
  · rw [refused] at member
    exact known member

/-- The entries queued are the old ones and, at each new offset of the range, the first entry
offered there. -/
theorem mem_queue_accept_iff {range : Span} {survey : Survey} {entries : List Entry}
    {entry : Entry} :
    entry ∈ (survey.accept range entries).queue ↔
      entry ∈ survey.queue ∨
        range.contains entry.offset = true ∧ entry.offset ∉ survey.seen ∧
          entries.find? (fun other => other.offset == entry.offset) = some entry := by
  induction entries generalizing survey with
  | nil => simp [accept]
  | cons first rest inductionHypothesis =>
    rw [show survey.accept range (first :: rest) = (survey.enqueue range first).accept range rest
      from rfl, inductionHypothesis]
    rcases enqueue_cases range survey first with ⟨inside, new, accepted⟩ | ⟨known, refused⟩
    · rw [accepted, Std.TreeSet.mem_insert, Nat.compare_eq_eq, List.mem_cons]
      by_cases here : first.offset = entry.offset
      · rw [List.find?_cons_of_pos (by rw [here]; exact beq_self_eq_true _), Option.some.injEq]
        constructor
        · rintro ((rfl | old) | ⟨-, fresh, -⟩)
          · exact Or.inr ⟨inside, new, rfl⟩
          · exact Or.inl old
          · exact absurd (Or.inl here) fresh
        · rintro (old | ⟨-, -, rfl⟩)
          · exact Or.inl (Or.inr old)
          · exact Or.inl (Or.inl rfl)
      · have other : entry ≠ first := fun same => here (same ▸ rfl)
        rw [List.find?_cons_of_neg (by simpa using here), or_iff_right other, or_iff_right here]
    · rw [refused]
      refine or_congr_right (and_congr_right fun inside => and_congr_right fun fresh => ?_)
      have here : first.offset ≠ entry.offset := by
        intro same
        rw [← same] at inside fresh
        exact fresh (known inside)
      rw [List.find?_cons_of_neg (by simpa using here)]

/-- Accepting entries touches nothing but the queue and the marks. -/
theorem accept_eq (range : Span) (survey : Survey) (entries : List Entry) :
    survey.accept range entries =
      { survey with
        queue := (survey.accept range entries).queue
        seen := (survey.accept range entries).seen } := by
  refine accept_invariant (fun after =>
    after = { survey with queue := after.queue, seen := after.seen }) ?_ rfl
  intro after entry _ same
  rcases enqueue_cases range after entry with ⟨-, -, accepted⟩ | ⟨-, refused⟩
  · rw [accepted, same]
  · rwa [refused]

theorem unanalyzed_accept (range : Span) (survey : Survey) (entries : List Entry) :
    (survey.accept range entries).unanalyzed = survey.unanalyzed := by
  rw [accept_eq]

/-- Problems recorded before do not matter to what is accepted. -/
theorem accept_with_issues (range : Span) (survey : Survey) (issues : Array Issue)
    (entries : List Entry) :
    { survey with issues := issues }.accept range entries =
      { survey.accept range entries with issues := issues } := by
  induction entries generalizing survey with
  | nil => rfl
  | cons entry rest inductionHypothesis =>
    have step : { survey with issues := issues }.enqueue range entry =
        { survey.enqueue range entry with issues := issues } := by
      unfold enqueue
      split <;> rfl
    show ({ survey with issues := issues }.enqueue range entry).accept range rest = _
    rw [step]
    exact inductionHypothesis _

end Survey

/-! ### What a trace leaves behind -/

/-- The entry that a target makes, if it lies in the image. -/
def Target.entry? (seed : Seed) (target : Target) : Option Entry :=
  target.offset.map fun offset => ⟨offset, target.processor, seed⟩

namespace Trace

/-- The entries to which the calls and jumps of a trace lead. -/
def successors (trace : Trace) : List Entry :=
  trace.calls.filterMap (Target.entry? .call) ++ trace.jumps.filterMap (Target.entry? .jump)

/-- Whether a trace comes from a window and does not end on a return or a jump. -/
def isDoubtful (trace : Trace) : Bool :=
  decide (trace.entry.seed = .region) && !trace.isConfident

/-- The routine that merging a trace records, with the branch targets in it. -/
def yield? (trace : Trace) : Option (Routine × List Nat) :=
  if trace.isDoubtful then none else trace.routine?.map fun routine => (routine, trace.labels)

/-- The entries that merging a trace offers. -/
def offers (trace : Trace) : List Entry :=
  if trace.yield?.isSome then trace.successors else []

/-- The problems that merging a trace records. -/
def problems (trace : Trace) : List Issue :=
  if trace.routine?.isNone then trace.truncatedAt.toList.map .truncated
  else if trace.isDoubtful then []
  else (if trace.ending = .truncated then trace.truncatedAt.toList.map .truncated else []) ++
    (ascending id trace.unresolved).map .unresolved

/-- The report that merging a trace makes. -/
def reports (trace : Trace) : List Event :=
  match trace.routine? with
  | none => []
  | some routine =>
    if trace.isDoubtful then [.dropped trace.entry.offset trace.ending] else [.routine routine]

theorem yield?_eq_some_iff {trace : Trace} {found : Routine × List Nat} :
    trace.yield? = some found ↔
      trace.isDoubtful = false ∧ trace.routine? = some found.1 ∧ trace.labels = found.2 := by
  rw [yield?]
  cases trace.isDoubtful with
  | true => simp
  | false =>
    cases trace.routine? with
    | none => simp
    | some routine => simp [Prod.ext_iff]

end Trace

/-! ### Merging -/

namespace Survey

theorem enqueueTargets_eq_accept (range : Span) (seed : Seed) (survey : Survey)
    (targets : List Target) :
    survey.enqueueTargets range seed targets =
      survey.accept range (targets.filterMap (Target.entry? seed)) := by
  refine foldl_eq_accept (fun survey target => ?_) survey targets
  rw [Target.entry?]
  cases target.offset <;> rfl

theorem reportTruncated_eq (survey : Survey) (place : Option Nat) :
    survey.reportTruncated place =
      { survey with issues := survey.issues ++ (place.toList.map Issue.truncated).toArray } := by
  cases place with
  | none => simp [reportTruncated]
  | some offset => simp [reportTruncated, report]

theorem foldl_report_eq (survey : Survey) (offsets : List Nat) :
    offsets.foldl (fun survey offset => survey.report (.unresolved offset)) survey =
      { survey with issues := survey.issues ++ (offsets.map Issue.unresolved).toArray } := by
  induction offsets generalizing survey with
  | nil => simp
  | cons offset rest inductionHypothesis =>
    rw [List.foldl_cons, inductionHypothesis]
    simp [report]

/-- Merging a trace accepts what the trace offers and adds its routine, its problems and its
report to what the survey has. -/
theorem merge_eq (range : Span) (survey : Survey) (trace : Trace) :
    survey.merge range trace =
      { survey.accept range trace.offers with
        routines := survey.routines ++ trace.yield?.toArray
        covered := (trace.yield?.toList.flatMap fun found => found.1.instructions).foldl cover
          survey.covered
        issues := survey.issues ++ trace.problems.toArray
        events := survey.events ++ trace.reports.toArray } := by
  cases found : trace.routine? with
  | none =>
    have nothing : trace.yield? = none := by simp [Trace.yield?, found]
    simp [merge, found, nothing, reportTruncated_eq, Trace.offers, Trace.problems, Trace.reports,
      accept]
  | some routine =>
    cases doubt : trace.isDoubtful with
    | true =>
      have dropped : trace.entry.seed = .region ∧ (!trace.isConfident) = true := by
        simpa [Trace.isDoubtful] using doubt
      simp [merge, found, dropped, Trace.yield?, Trace.offers, Trace.problems, Trace.reports,
        doubt, accept]
    | false =>
      have kept : ¬(trace.entry.seed = .region ∧ (!trace.isConfident) = true) := by
        simpa [Trace.isDoubtful] using doubt
      have yields : trace.yield? = some (routine, trace.labels) := by
        simp [Trace.yield?, found, doubt]
      have reported : survey.reportTrace trace =
          { survey with issues := survey.issues ++ trace.problems.toArray } := by
        rw [reportTrace, foldl_report_eq]
        by_cases cutOff : trace.ending = .truncated <;>
          simp [cutOff, reportTruncated_eq, Trace.problems, found, doubt]
      have offered : trace.offers = trace.successors := by simp [Trace.offers, yields]
      simp only [merge, found, if_neg kept, enqueueTargets_eq_accept, ← accept_append]
      rw [reported, ← Trace.successors, accept_with_issues, offered]
      rw [accept_eq]
      simp [record, yields, Trace.reports, found, doubt]

@[simp]
theorem queue_merge (range : Span) (survey : Survey) (trace : Trace) :
    (survey.merge range trace).queue = (survey.accept range trace.offers).queue := by
  rw [merge_eq]

@[simp]
theorem seen_merge (range : Span) (survey : Survey) (trace : Trace) :
    (survey.merge range trace).seen = (survey.accept range trace.offers).seen := by
  rw [merge_eq]

@[simp]
theorem routines_merge (range : Span) (survey : Survey) (trace : Trace) :
    (survey.merge range trace).routines = survey.routines ++ trace.yield?.toArray := by
  rw [merge_eq]

@[simp]
theorem issues_merge (range : Span) (survey : Survey) (trace : Trace) :
    (survey.merge range trace).issues = survey.issues ++ trace.problems.toArray := by
  rw [merge_eq]

@[simp]
theorem unanalyzed_merge (range : Span) (survey : Survey) (trace : Trace) :
    (survey.merge range trace).unanalyzed = survey.unanalyzed := by
  rw [merge_eq, unanalyzed_accept]

@[simp]
theorem exhausted_merge (range : Span) (survey : Survey) (trace : Trace) :
    (survey.merge range trace).exhausted = survey.exhausted := by
  rw [merge_eq, accept_eq]

@[simp]
theorem decoded_merge (range : Span) (survey : Survey) (trace : Trace) :
    (survey.merge range trace).decoded = survey.decoded := by
  rw [merge_eq, accept_eq]

end Survey

end Cartridge
