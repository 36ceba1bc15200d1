/-
This file proves how the routines of a survey are entered. An instruction that control executes
in one routine sends control to another one by a call, by a jump, or by a branch that goes back
before its own routine or out of the range. Calls and jumps clear the state on the way; a
branch hands it over as it is. Of all the entries that the merged traces offer at one offset
only the first is ever traced, so the first transfer to a routine decides how it is entered.

What the roots of a survey have and every transfer hands on, all accepted entries have. So they
wait under states that arise from the starting states.
-/

import Cartridge.Proofs.ProcessorState
import Cartridge.Proofs.Survey.Budget
import Cartridge.Proofs.Survey.Harvest
import Cartridge.Proofs.Survey.Provenance

namespace Cartridge

/-- Neither the data bank nor anything on the stack is known. -/
def Processor.IsCleared (processor : Processor) : Prop :=
  processor.dataBank = none ∧ processor.pushed = []

theorem Processor.isCleared_enterRoutine (processor : Processor) :
    processor.enterRoutine.IsCleared :=
  ⟨rfl, rfl⟩

/-! ### How control leaves a routine -/

namespace Scope

/-- Control executes an instruction under a state on its way from the entry of a routine. -/
def ExecutesUnder (scope : Scope) (start : Nat) (entry before : Processor)
    (instruction : Instruction) : Prop :=
  scope.Reaches start entry instruction.offset before ∧
    scope.Decodes start instruction.offset before instruction

/-- Control goes from a routine to the entry of another one. -/
inductive Sends (scope : Scope) (start : Nat) (entry : Processor) : Entry → Prop
  | call {before : Processor} {instruction : Instruction} {address : Address} {offset : Nat}
      (executed : scope.ExecutesUnder start entry before instruction)
      (calls : instruction.flow = .call (some address))
      (found : scope.board.wiring.offset? address = some offset) :
      Sends scope start entry ⟨offset, (before.advance instruction).enterRoutine, .call⟩
  | jump {before : Processor} {instruction : Instruction} {address : Address} {offset : Nat}
      (executed : scope.ExecutesUnder start entry before instruction)
      (jumps : instruction.flow = .jump (some address))
      (found : scope.board.wiring.offset? address = some offset) :
      Sends scope start entry ⟨offset, (before.advance instruction).enterRoutine, .jump⟩
  /-- A branch that leaves the routine hands over the state as it is. -/
  | branch {before : Processor} {instruction : Instruction} {address : Address} {offset : Nat}
      (executed : scope.ExecutesUnder start entry before instruction)
      (branches : instruction.flow = .branch address ∨ instruction.flow = .goto address)
      (found : scope.board.wiring.offset? address = some offset)
      (leaves : scope.leaves start offset = true) :
      Sends scope start entry ⟨offset, before.advance instruction, .jump⟩

/-- Control goes by a branch from a routine back to an offset before it, with the state that
the branch leaves behind. -/
def BranchesBack (scope : Scope) (start : Nat) (entry : Processor) (offset : Nat)
    (after : Processor) : Prop :=
  offset < start ∧ ∃ before instruction address,
    scope.ExecutesUnder start entry before instruction ∧
      (instruction.flow = .branch address ∨ instruction.flow = .goto address) ∧
      scope.board.wiring.offset? address = some offset ∧ after = before.advance instruction

/-- What is entered in the range under a state that is not cleared is entered by a branch
back. -/
theorem Sends.branchesBack {scope : Scope} {start : Nat} {entry : Processor} {sent : Entry}
    (sends : scope.Sends start entry sent) (inside : scope.range.contains sent.offset = true)
    (uncleared : ¬ sent.processor.IsCleared) :
    sent.seed = .jump ∧ scope.BranchesBack start entry sent.offset sent.processor := by
  cases sends with
  | call _ _ _ => exact absurd (Processor.isCleared_enterRoutine _) uncleared
  | jump _ _ _ => exact absurd (Processor.isCleared_enterRoutine _) uncleared
  | branch executed branches found leaves =>
    rcases leaves_iff.mp leaves with back | out
    · exact ⟨rfl, back, _, _, _, executed, branches, found, rfl⟩
    · exact Bool.noConfusion (inside.symm.trans out)

end Scope

/-! ### The successors of a trace -/

namespace Walk

theorem mem_calls {wiring : Wiring} {walk : Walk} {target : Target} :
    target ∈ walk.calls wiring ↔
      ∃ step ∈ walk.steps, ∃ address, step.instruction.flow = .call (some address) ∧
        step.targetAt wiring address step.after.enterRoutine = target := by
  rw [calls, List.mem_filterMap]
  refine exists_congr fun step => and_congr_right fun _ => ?_
  unfold Step.call?
  split
  · rename_i address flow
    simp [flow]
  · rename_i other
    simp only [reduceCtorEq, false_iff, not_exists, not_and]
    exact fun address flow => absurd flow (other address)

theorem mem_jumps {wiring : Wiring} {walk : Walk} {target : Target} :
    target ∈ walk.jumps wiring ↔
      ∃ step ∈ walk.steps, ∃ address, step.instruction.flow = .jump (some address) ∧
        step.targetAt wiring address step.after.enterRoutine = target := by
  rw [jumps, List.mem_filterMap]
  refine exists_congr fun step => and_congr_right fun _ => ?_
  unfold Step.jump?
  split
  · rename_i address flow
    simp [flow]
  · rename_i other
    simp only [reduceCtorEq, false_iff, not_exists, not_and]
    exact fun address flow => absurd flow (other address)

end Walk

namespace Scope.Walkable

variable {scope : Scope} {start offset : Nat} {entry processor : Processor}
  (walkable : scope.Walkable start entry offset processor) {target : Target} {sent : Entry}

include walkable

theorem sends_call (member : target ∈ (scope.walk offset processor).calls scope.board.wiring)
    (made : target.entry? .call = some sent) : scope.Sends start entry sent := by
  obtain ⟨step, taken, address, flow, rfl⟩ := Walk.mem_calls.mp member
  obtain ⟨before, reached, decodes, after⟩ := walkable.reaches_step taken
  obtain ⟨place, found, rfl⟩ := Option.map_eq_some_iff.mp made
  simp only [Step.targetAt, after]
  exact .call ⟨reached, decodes⟩ flow found

theorem sends_jump (member : target ∈ (scope.walk offset processor).jumps scope.board.wiring)
    (made : target.entry? .jump = some sent) : scope.Sends start entry sent := by
  obtain ⟨step, taken, address, flow, rfl⟩ := Walk.mem_jumps.mp member
  obtain ⟨before, reached, decodes, after⟩ := walkable.reaches_step taken
  obtain ⟨place, found, rfl⟩ := Option.map_eq_some_iff.mp made
  simp only [Step.targetAt, after]
  exact .jump ⟨reached, decodes⟩ flow found

theorem sends_leaving (member : target ∈ scope.leaving start
      ((scope.walk offset processor).branches scope.board.wiring))
    (made : target.entry? .jump = some sent) : scope.Sends start entry sent := by
  obtain ⟨branching, leaves⟩ := List.mem_filter.mp member
  obtain ⟨step, taken, address, branches, rfl⟩ := Walk.mem_branches.mp branching
  obtain ⟨before, reached, decodes, after⟩ := walkable.reaches_step taken
  obtain ⟨place, found, rfl⟩ := Option.map_eq_some_iff.mp made
  rw [found] at leaves
  simp only [Step.targetAt, after]
  exact .branch ⟨reached, decodes⟩ branches found leaves

end Scope.Walkable

namespace Trace

theorem mem_successors {trace : Trace} {sent : Entry} :
    sent ∈ trace.successors ↔
      (∃ target ∈ trace.calls, target.entry? .call = some sent) ∨
        ∃ target ∈ trace.jumps, target.entry? .jump = some sent := by
  rw [successors, List.mem_append, List.mem_filterMap, List.mem_filterMap]

/-- Control goes from the entry of a trace to everything that the trace leads to. -/
def Sends (scope : Scope) (trace : Trace) : Prop :=
  ∀ sent ∈ trace.successors, scope.Sends trace.entry.offset trace.entry.processor sent

theorem Sends.absorb {scope : Scope} {trace : Trace} (sends : trace.Sends scope)
    {place : Nat × Processor}
    (walkable : scope.Walkable trace.entry.offset trace.entry.processor place.1 place.2) :
    (trace.absorb scope (scope.walk place.1 place.2)).Sends scope := by
  intro sent member
  rw [entry_absorb]
  unfold Trace.absorb at member
  split at member
  · rcases mem_successors.mp member with ⟨target, called, made⟩ | ⟨target, jumped, made⟩
    · rcases List.mem_append.mp called with old | new
      · exact sends sent (mem_successors.mpr (Or.inl ⟨target, old, made⟩))
      · exact walkable.sends_call new made
    · rcases List.mem_append.mp jumped with old | new
      · exact sends sent (mem_successors.mpr (Or.inr ⟨target, old, made⟩))
      · rcases List.mem_append.mp new with jump | leaving
        · exact walkable.sends_jump jump made
        · exact walkable.sends_leaving leaving made
  · exact sends sent member

theorem sends_run (scope : Scope) (entry : Entry) : (run scope entry).Sends scope := by
  -- as for `follows_run`, the entry decides which branches the trace goes on with
  refine (explore_invariant (fun trace => trace.entry = entry ∧ trace.Sends scope)
    (fun place => scope.Walkable entry.offset entry.processor place.1 place.2) ?_ ?_
    (entry.offset, entry.processor) ⟨rfl, fun sent member => ?_⟩ (scope.walkable_entry _ _)
    (fun target member => absurd member List.not_mem_nil)).2
  · rintro trace place ⟨rfl, sends⟩ walkable
    exact ⟨entry_absorb _ _ _, sends.absorb walkable⟩
  · rintro trace place ⟨rfl, -⟩ walkable target member
    unfold continuations at member
    split at member
    · exact walkable.staying member
    · exact absurd member List.not_mem_nil
  · exact absurd member List.not_mem_nil

theorem mem_successors_of_mem_offers {trace : Trace} {sent : Entry}
    (offer : sent ∈ trace.offers) : sent ∈ trace.successors := by
  rw [offers] at offer
  split at offer
  · exact offer
  · exact absurd offer List.not_mem_nil

/-- Cutting a trace adds nothing to what it leads to. -/
theorem Taken.sends {scope : Scope} {trace : Trace} (taken : trace.Taken scope) :
    trace.Sends scope := by
  cases taken with
  | whole entry => exact sends_run scope entry
  | @part entry count positive =>
    rcases (run scope entry).cut_cases count with same | ⟨-, -, -, -, kept⟩
    · rw [same]
      exact sends_run scope entry
    · intro sent member
      rw [entry_cut]
      exact sends_run scope entry sent (kept sent member)

end Trace

/-! ### The first offer -/

/-- The first entry that traces offer at an offset. -/
def Trace.firstOffer? (traces : List Trace) (offset : Nat) : Option Entry :=
  (traces.flatMap Trace.offers).find? fun entry => entry.offset == offset

theorem Trace.firstOffer?_append (earlier later : List Trace) (offset : Nat) :
    firstOffer? (earlier ++ later) offset =
      (firstOffer? earlier offset).or (firstOffer? later offset) := by
  rw [firstOffer?, List.flatMap_append, List.find?_append]
  rfl

namespace Stage

/-- Whether an entry is queued, in the wave under way or merged. -/
def Accepted (stage : Stage) (entry : Entry) : Prop :=
  entry ∈ stage.survey.queue ∨ entry ∈ stage.wave ∨ entry ∈ stage.merged.map Trace.entry

/-- Merging a trace accepts only what the trace offers first at an offset never accepted before. -/
theorem accepted_merge {range : Span} {survey : Survey} {wave : List Entry} {merged : List Trace}
    {trace : Trace} {entry : Entry}
    (accepted : Accepted ⟨survey.merge range trace, wave, merged ++ [trace]⟩ entry) :
    Accepted ⟨survey, trace.entry :: wave, merged⟩ entry ∨
      range.contains entry.offset = true ∧ entry.offset ∉ survey.seen ∧
        trace.offers.find? (fun other => other.offset == entry.offset) = some entry := by
  rcases accepted with queued | waiting | done
  · rw [Survey.queue_merge] at queued
    exact (Survey.mem_queue_accept_iff.mp queued).imp_left Or.inl
  · exact Or.inl (Or.inr (Or.inl (List.mem_cons_of_mem _ waiting)))
  · rw [List.map_append] at done
    rcases List.mem_append.mp done with old | new
    · exact Or.inl (Or.inr (Or.inr old))
    · obtain rfl := List.mem_singleton.mp new
      exact Or.inl (Or.inr (Or.inl List.mem_cons_self))

/-- A move that merges no trace accepts nothing new but a root. One that merges a trace merges that
of an accepted entry, and accepts nothing new but its first offers. -/
theorem Move.accepted_cases {scope : Scope} {budget : Option Nat} {before after : Stage}
    (move : Move scope budget before after) :
    (after.merged = before.merged ∧
      ∀ entry, after.Accepted entry → before.Accepted entry ∨ entry.IsRoot) ∨
    ∃ trace : Trace, trace.Taken scope ∧ before.Accepted trace.entry ∧
      after.merged = before.merged ++ [trace] ∧
      ∀ entry, after.Accepted entry → before.Accepted entry ∨
        scope.range.contains entry.offset = true ∧ entry.offset ∉ before.survey.seen ∧
          trace.offers.find? (fun other => other.offset == entry.offset) = some entry := by
  cases move with
  | @offer survey merged entry root =>
    refine Or.inl ⟨rfl, fun other accepted => ?_⟩
    rcases Survey.enqueue_cases scope.range survey entry with ⟨-, -, taken⟩ | ⟨-, refused⟩
    · rw [taken] at accepted
      rcases accepted with queued | rest
      · rcases List.mem_cons.mp queued with rfl | old
        · exact Or.inr root
        · exact Or.inl (Or.inl old)
      · exact Or.inl (Or.inr rest)
    · rw [refused] at accepted
      exact Or.inl accepted
  | launch _ =>
    refine Or.inl ⟨rfl, fun entry accepted => Or.inl ?_⟩
    rcases accepted with queued | waiting | done
    · exact absurd queued List.not_mem_nil
    · exact Or.inl (List.mem_mergeSort.mp waiting)
    · exact Or.inr (Or.inr done)
  | @merge survey entry wave merged within =>
    have start := Trace.entry_run scope entry
    refine Or.inr ⟨Trace.run scope entry, .whole entry, ?_, rfl, fun other accepted => ?_⟩
    · rw [start]
      exact Or.inr (Or.inl List.mem_cons_self)
    · have known := accepted_merge accepted
      rw [start] at known
      exact known
  | @cut survey entry wave merged limit exceeding left =>
    have start := (Trace.entry_cut _ (limit - survey.decoded)).trans (Trace.entry_run scope entry)
    refine Or.inr ⟨_, .part entry left, ?_, rfl, fun other accepted => ?_⟩
    · rw [start]
      exact Or.inr (Or.inl List.mem_cons_self)
    · have known := accepted_merge accepted
      rw [start] at known
      exact known
  | refuse _ _ =>
    refine Or.inl ⟨rfl, fun entry accepted => Or.inl ?_⟩
    exact accepted.imp_right fun later => later.imp_left (List.mem_cons_of_mem _)
  | giveUpWave _ =>
    refine Or.inl ⟨rfl, fun entry accepted => Or.inl ?_⟩
    exact accepted.imp_right fun later => later.imp_left fun none => absurd none List.not_mem_nil
  | giveUpQueue _ =>
    refine Or.inl ⟨rfl, fun entry accepted => Or.inl ?_⟩
    exact accepted.imp_left fun none => absurd none List.not_mem_nil

/-- Whatever was accepted is a root, or the first entry that a merged trace offered at its
offset. -/
structure FirstOffered (scope : Scope) (stage : Stage) : Prop where
  harvested : stage.Harvested scope
  first : ∀ {entry : Entry}, stage.Accepted entry →
    entry.IsRoot ∨ Trace.firstOffer? stage.merged entry.offset = some entry

namespace FirstOffered

variable {scope : Scope} {budget : Option Nat}

theorem fresh (issues : Array Issue) (events : Array Event) :
    FirstOffered scope ⟨{ issues := issues, events := events }, [], []⟩ :=
  ⟨.fresh issues events, by simp [Accepted]⟩

/-- At an offset of the range that was never accepted nothing was offered. -/
theorem firstOffer?_eq_none {stage : Stage} (offered : stage.FirstOffered scope) {offset : Nat}
    (inside : scope.range.contains offset = true) (new : offset ∉ stage.survey.seen) :
    Trace.firstOffer? stage.merged offset = none := by
  refine List.find?_eq_none.mpr fun other member => ?_
  obtain ⟨source, merged, offer⟩ := List.mem_flatMap.mp member
  rw [beq_iff_eq]
  intro same
  rw [← same] at inside new
  exact new (offered.harvested.offered source merged other offer inside)

/-- The offers of a trace come behind all earlier ones, and those that are accepted are the
first ones at their offsets. -/
theorem move {before after : Stage} (move : Move scope budget before after)
    (offered : before.FirstOffered scope) : after.FirstOffered scope := by
  refine ⟨offered.harvested.move move, fun {entry} accepted => ?_⟩
  rcases move.accepted_cases with ⟨same, only⟩ | ⟨trace, -, -, grown, only⟩
  · rw [same]
    rcases only entry accepted with old | root
    · exact offered.first old
    · exact Or.inl root
  · rw [grown, Trace.firstOffer?_append]
    rcases only entry accepted with old | ⟨inside, new, first⟩
    · refine (offered.first old).imp_right fun earlier => ?_
      rw [earlier]
      rfl
    · refine Or.inr ?_
      rw [offered.firstOffer?_eq_none inside new, Option.none_or, Trace.firstOffer?,
        List.flatMap_singleton]
      exact first

end FirstOffered

theorem Course.firstOffered {scope : Scope} {budget : Option Nat} {first last : Stage}
    (course : Course scope budget first last) (offered : first.FirstOffered scope) :
    last.FirstOffered scope :=
  course.keeps (FirstOffered scope) FirstOffered.move offered

end Stage

/-! ### What entries have in common -/

/-- All roots have a property, and control hands it on from one routine to the next. -/
structure Scope.HandsOn (scope : Scope) (Holds : Entry → Prop) : Prop where
  root : ∀ {entry : Entry}, entry.IsRoot → Holds entry
  sends : ∀ {entry sent : Entry}, Holds entry →
    scope.Sends entry.offset entry.processor sent → Holds sent

namespace Stage

/-- Everything accepted has a property. -/
def Accepts (Holds : Entry → Prop) (stage : Stage) : Prop :=
  ∀ entry, stage.Accepted entry → Holds entry

namespace Accepts

variable {scope : Scope} {budget : Option Nat} {Holds : Entry → Prop}

theorem fresh (issues : Array Issue) (events : Array Event) :
    Accepts Holds ⟨{ issues := issues, events := events }, [], []⟩ := by
  simp [Accepts, Accepted]

/-- A trace offers only what control hands on from its entry. -/
theorem move (handsOn : scope.HandsOn Holds) {before after : Stage}
    (move : Move scope budget before after) (accepts : before.Accepts Holds) :
    after.Accepts Holds := by
  intro entry accepted
  rcases move.accepted_cases with ⟨-, only⟩ | ⟨trace, taken, start, -, only⟩
  · rcases only entry accepted with old | root
    · exact accepts entry old
    · exact handsOn.root root
  · rcases only entry accepted with old | ⟨-, -, first⟩
    · exact accepts entry old
    · have offer := List.mem_of_find?_eq_some first
      have sends := taken.sends entry (Trace.mem_successors_of_mem_offers offer)
      exact handsOn.sends (accepts trace.entry start) sends

end Accepts

/-- What the roots have and control hands on, every entry has that a survey ever accepts. -/
theorem Course.accepts {scope : Scope} {budget : Option Nat} {Holds : Entry → Prop}
    {first last : Stage} (course : Course scope budget first last)
    (handsOn : scope.HandsOn Holds) (accepts : first.Accepts Holds) : last.Accepts Holds :=
  course.keeps (Accepts Holds) (Accepts.move handsOn) accepts

end Stage

/-! ### The states that entries have -/

theorem Entry.IsRoot.arises {entry : Entry} (root : entry.IsRoot) : entry.processor.Arises := by
  cases root with
  | handler offset interrupt =>
    show (Survey.handlerState interrupt).Arises
    unfold Survey.handlerState
    split
    · exact .afterReset
    · split
      · exact .interrupted
      · exact .fresh
  | entryPoint | region => exact .fresh
  | fallback => exact .interrupted

namespace Scope

theorem Reaches.arises {scope : Scope} {start offset : Nat} {entry processor : Processor}
    (reached : scope.Reaches start entry offset processor) (known : entry.Arises) :
    processor.Arises := by
  induction reached with
  | entry => exact known
  | @falls _ _ instruction _ _ _ inductionHypothesis =>
    exact inductionHypothesis.perform (.advance instruction)
  | @follows _ _ _ instruction _ _ _ _ _ _ _ inductionHypothesis =>
    exact inductionHypothesis.perform (.advance instruction)

/-- Control hands over a state that arises from the one under which it entered the routine. -/
theorem Sends.arises {scope : Scope} {start : Nat} {entry : Processor} {sent : Entry}
    (sends : scope.Sends start entry sent) (known : entry.Arises) : sent.processor.Arises := by
  cases sends with
  | @call _ instruction _ _ executed =>
    exact ((executed.1.arises known).perform (.advance instruction)).perform .enterRoutine
  | @jump _ instruction _ _ executed =>
    exact ((executed.1.arises known).perform (.advance instruction)).perform .enterRoutine
  | @branch _ instruction _ _ executed =>
    exact (executed.1.arises known).perform (.advance instruction)

theorem handsOn_arises (scope : Scope) : scope.HandsOn fun entry => entry.processor.Arises where
  root root := root.arises
  sends known sends := sends.arises known

end Scope

end Cartridge
