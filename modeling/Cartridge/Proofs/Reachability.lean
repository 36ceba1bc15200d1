/-
This file defines what control reaches inside a routine and proves that walks follow it.
From the entry, control falls through instructions that do not end straight-line code,
and follows branches that stay in the routine, always with the processor state that the
path leaves behind, and as long as every instruction on the way ends inside the window of
the entry. A walk that begins where control comes, in the bank of the entry, takes only
steps that control takes, and the targets of its branches are again such places: relative
branches never leave the bank, so every walk of a routine has the same window.
-/

import Cartridge.Proofs.BankWindow
import Cartridge.Proofs.Walk
import Cartridge.Trace

namespace Cartridge

/-! ### What control reaches -/

namespace Scope

/-- The end of the window to which a routine keeps: the bank window of its start, cut off at
the end of the range. -/
def windowEnd (scope : Scope) (start : Nat) : Nat :=
  min (scope.board.wiring.bankEnd start) scope.range.stop

/-- Decoding at an offset under a state gives an instruction that ends inside the window of
a routine. -/
def Decodes (scope : Scope) (start offset : Nat) (processor : Processor)
    (instruction : Instruction) : Prop :=
  Instruction.decode scope.board.layout scope.board.image offset processor = .ok instruction ∧
    instruction.stop ≤ scope.windowEnd start

/-- The pairs of an offset and a processor state to which control comes from the entry of a
routine. -/
inductive Reaches (scope : Scope) (start : Nat) (entry : Processor) : Nat → Processor → Prop
  /-- Control begins at the entry. -/
  | entry : Reaches scope start entry start entry
  /-- Control goes on behind an instruction that does not end straight-line code. -/
  | falls {offset : Nat} {processor : Processor} {instruction : Instruction}
      (reached : Reaches scope start entry offset processor)
      (decodes : scope.Decodes start offset processor instruction)
      (continues : instruction.flow.isTerminator = false) :
      Reaches scope start entry instruction.stop (processor.advance instruction)
  /-- Control follows a branch that goes neither back before the start nor out of the
  range. -/
  | follows {offset target : Nat} {processor : Processor} {instruction : Instruction}
      {address : Address} (reached : Reaches scope start entry offset processor)
      (decodes : scope.Decodes start offset processor instruction)
      (branches : instruction.flow = .branch address ∨ instruction.flow = .goto address)
      (found : scope.board.wiring.offset? address = some target)
      (notBefore : start ≤ target) (inside : scope.range.contains target = true) :
      Reaches scope start entry target (processor.advance instruction)

/-- Control executes an instruction on its way from the entry of a routine. -/
def Executes (scope : Scope) (start : Nat) (entry : Processor) (instruction : Instruction) :
    Prop :=
  ∃ processor, scope.Reaches start entry instruction.offset processor ∧
    scope.Decodes start instruction.offset processor instruction

theorem Decodes.offset_eq {scope : Scope} {start offset : Nat} {processor : Processor}
    {instruction : Instruction} (decodes : scope.Decodes start offset processor instruction) :
    instruction.offset = offset :=
  Instruction.offset_of_decode decodes.1

theorem Decodes.lt_bankEnd {scope : Scope} {start offset : Nat} {processor : Processor}
    {instruction : Instruction} (decodes : scope.Decodes start offset processor instruction) :
    offset < scope.board.wiring.bankEnd start := by
  have positive := instruction.offset_lt_stop
  rw [decodes.offset_eq] at positive
  exact Nat.lt_of_lt_of_le positive (Nat.le_trans decodes.2 (Nat.min_le_left _ _))

/-- Control never comes to an offset before the start. -/
theorem Reaches.start_le {scope : Scope} {start offset : Nat} {entry processor : Processor}
    (reached : scope.Reaches start entry offset processor) : start ≤ offset := by
  induction reached with
  | entry => exact Nat.le_refl _
  | falls _ decodes _ inductionHypothesis =>
    rw [← decodes.offset_eq] at inductionHypothesis
    exact Nat.le_trans inductionHypothesis (Nat.le_of_lt (Instruction.offset_lt_stop _))
  | follows _ _ _ _ notBefore _ _ => exact notBefore

/-- Control executes instructions of the bank window of the start only. -/
theorem Reaches.div_eq {scope : Scope} {start offset : Nat} {entry processor : Processor}
    {instruction : Instruction} (reached : scope.Reaches start entry offset processor)
    (decodes : scope.Decodes start offset processor instruction) :
    offset / scope.board.layout.bankSize = start / scope.board.layout.bankSize := by
  have before := decodes.lt_bankEnd
  exact Wiring.div_eq_of_lt_bankEnd reached.start_le before

end Scope

/-! ### Walks of a routine -/

theorem Flow.ending?_eq_none_iff (flow : Flow) :
    flow.ending? = none ↔ flow.isTerminator = false := by
  cases flow <;> simp [ending?, isTerminator]

theorem Walk.mem_branches {wiring : Wiring} {walk : Walk} {target : Target} :
    target ∈ walk.branches wiring ↔
      ∃ step ∈ walk.steps, ∃ address,
        (step.instruction.flow = .branch address ∨ step.instruction.flow = .goto address) ∧
          step.targetAt wiring address step.after = target := by
  rw [branches, List.mem_filterMap]
  refine exists_congr fun step => and_congr_right fun _ => ?_
  cases flow : step.instruction.flow <;> simp [Step.branch?, flow]

namespace Scope

theorem leaves_iff {scope : Scope} {start offset : Nat} :
    scope.leaves start offset = true ↔ offset < start ∨ scope.range.contains offset = false := by
  simp [leaves]

theorem leaves_eq_false_iff {scope : Scope} {start offset : Nat} :
    scope.leaves start offset = false ↔ start ≤ offset ∧ scope.range.contains offset = true := by
  simp [leaves]

theorem mem_staying {scope : Scope} {start offset : Nat} {processor : Processor}
    {branches : List Target} :
    (offset, processor) ∈ scope.staying start branches ↔
      ∃ target ∈ branches, target.offset = some offset ∧ target.processor = processor ∧
        start ≤ offset ∧ scope.range.contains offset = true := by
  rw [staying, List.mem_filterMap]
  refine exists_congr fun target => and_congr_right fun _ => ?_
  rw [← leaves_eq_false_iff]
  cases target.offset with
  | none => simp
  | some place => by_cases leaves : scope.leaves start place = true <;> grind

/-- A place from which a routine may be walked: control comes there, and it lies in the bank
window of the start. -/
def Walkable (scope : Scope) (start : Nat) (entry : Processor) (offset : Nat)
    (processor : Processor) : Prop :=
  scope.Reaches start entry offset processor ∧
    offset / scope.board.layout.bankSize = start / scope.board.layout.bankSize

theorem walkable_entry (scope : Scope) (start : Nat) (entry : Processor) :
    scope.Walkable start entry start entry :=
  ⟨.entry, rfl⟩

/-- A walk from a walkable place has the window of the routine. -/
theorem Walkable.windowEnd_eq {scope : Scope} {start offset : Nat} {entry processor : Processor}
    (walkable : scope.Walkable start entry offset processor) :
    scope.board.windowEnd (some scope.range.stop) offset = scope.windowEnd start := by
  have same : scope.board.wiring.bankEnd offset = scope.board.wiring.bankEnd start :=
    Wiring.bankEnd_eq_of_div_eq walkable.2
  rw [Board.windowEnd, same, windowEnd]

/-- Every step of a walk from a walkable place is one that control takes. -/
theorem Walkable.reaches_step {scope : Scope} {start offset : Nat} {entry processor : Processor}
    (walkable : scope.Walkable start entry offset processor) {step : Step}
    (member : step ∈ (scope.walk offset processor).steps) :
    ∃ before, scope.Reaches start entry step.instruction.offset before ∧
      scope.Decodes start step.instruction.offset before step.instruction ∧
      step.after = before.advance step.instruction := by
  rw [walk, Board.steps_walk, walkable.windowEnd_eq] at member
  obtain ⟨before, reached, fetched, after⟩ :=
    Board.path_invariant (scope.Reaches start entry)
      (fun reached fetched ends => .falls reached (Board.fetch?_eq_some_iff.mp fetched)
        ((Flow.ending?_eq_none_iff _).mp ends))
      walkable.1 member
  exact ⟨before, reached, Board.fetch?_eq_some_iff.mp fetched, after⟩

/-- Control executes the instructions of a walk from a walkable place. -/
theorem Walkable.executes {scope : Scope} {start offset : Nat} {entry processor : Processor}
    (walkable : scope.Walkable start entry offset processor) {instruction : Instruction}
    (member : instruction ∈ (scope.walk offset processor).instructions) :
    scope.Executes start entry instruction := by
  obtain ⟨step, taken, rfl⟩ := List.mem_map.mp member
  obtain ⟨before, reached, decodes, -⟩ := walkable.reaches_step taken
  exact ⟨before, reached, decodes⟩

/-- The targets of branches that stay in the routine are walkable again. -/
theorem Walkable.staying {scope : Scope} {start offset : Nat} {entry processor : Processor}
    (walkable : scope.Walkable start entry offset processor) {target : Nat × Processor}
    (member : target ∈ scope.staying start
      ((scope.walk offset processor).branches scope.board.wiring)) :
    scope.Walkable start entry target.1 target.2 := by
  obtain ⟨place, state⟩ := target
  obtain ⟨branch, listed, found, rfl, notBefore, inside⟩ := mem_staying.mp member
  obtain ⟨step, taken, address, branches, rfl⟩ := Walk.mem_branches.mp listed
  obtain ⟨before, reached, decodes, after⟩ := walkable.reaches_step taken
  constructor
  · show scope.Reaches start entry place step.after
    rw [after]
    exact .follows reached decodes branches found notBefore inside
  · exact (Board.div_eq_of_branches decodes.1 branches found).trans (reached.div_eq decodes)

end Scope

end Cartridge
