/-
This file proves that a trusted trace overlooks no branch. Every branch of an instruction of
the trace is filed: as unmapped, as a jump out of the routine, or as a label inside it. And
every label is settled, unless the limit on instructions stops the trace: an instruction of
the trace stands there; or control comes there, but what it would execute overlaps an
instruction of the trace, or does not decode inside the window. The argument follows the
frontier: a target that was taken up is settled or waits, and there are walks enough for all
targets, because every offset of the range is taken up at most once.
-/

import Cartridge.Proofs.Partition
import Cartridge.Proofs.Transfers

namespace Cartridge

/-! ### Filing branches -/

namespace Trace

/-- Where a trace files a branch to an address. -/
inductive Files (scope : Scope) (trace : Trace) (address : Address) : Prop
  | unmapped (missing : scope.board.wiring.offset? address = none)
      (member : address ∈ trace.unmapped)
  | jump {target : Nat} (found : scope.board.wiring.offset? address = some target)
      (leaves : scope.leaves trace.entry.offset target = true)
      (member : address ∈ trace.jumps.map Target.address)
  | label {target : Nat} (found : scope.board.wiring.offset? address = some target)
      (stays : scope.leaves trace.entry.offset target = false) (member : target ∈ trace.labels)

/-- Every branch of an instruction of the trace is filed. -/
def KeepsBranches (scope : Scope) (trace : Trace) : Prop :=
  ∀ (offset : Nat) (instruction : Instruction) (address : Address),
    trace.tiling[offset]? = some instruction →
      instruction.flow = .branch address ∨ instruction.flow = .goto address →
        trace.Files scope address

namespace Files

variable {scope : Scope} {trace : Trace} {address : Address} {target : Nat}

theorem mem_unmapped (files : trace.Files scope address)
    (missing : scope.board.wiring.offset? address = none) : address ∈ trace.unmapped := by
  cases files with
  | unmapped _ member => exact member
  | jump found => exact nomatch missing.symm.trans found
  | label found => exact nomatch missing.symm.trans found

theorem mem_jumps (files : trace.Files scope address)
    (found : scope.board.wiring.offset? address = some target)
    (leaves : scope.leaves trace.entry.offset target = true) :
    address ∈ trace.jumps.map Target.address := by
  cases files with
  | unmapped missing => exact nomatch missing.symm.trans found
  | jump _ _ member => exact member
  | label here stays =>
    obtain rfl := Option.some.inj (here.symm.trans found)
    exact Bool.noConfusion (stays.symm.trans leaves)

theorem mem_labels (files : trace.Files scope address)
    (found : scope.board.wiring.offset? address = some target)
    (stays : scope.leaves trace.entry.offset target = false) : target ∈ trace.labels := by
  cases files with
  | unmapped missing => exact nomatch missing.symm.trans found
  | jump here leaves =>
    obtain rfl := Option.some.inj (here.symm.trans found)
    exact Bool.noConfusion (stays.symm.trans leaves)
  | label here _ member =>
    obtain rfl := Option.some.inj (here.symm.trans found)
    exact member

theorem absorb (files : trace.Files scope address) (walk : Walk) :
    (trace.absorb scope walk).Files scope address := by
  unfold Trace.absorb
  split
  · cases files with
    | unmapped missing member => exact .unmapped missing (List.mem_append_left _ member)
    | jump found leaves member =>
      refine .jump found leaves ?_
      exact ((List.sublist_append_left _ _).map _).subset member
    | label found stays member => exact .label found stays (List.mem_append_left _ member)
  · cases files with
    | unmapped missing member => exact .unmapped missing member
    | jump found leaves member => exact .jump found leaves member
    | label found stays member => exact .label found stays member

end Files

/-- A trusted trace files the branches of the walk that it takes in. -/
theorem files_absorb {scope : Scope} {trace : Trace} (trusted : trace.isConfident = true)
    {walk : Walk} {step : Step} (taken : step ∈ walk.steps) {address : Address}
    (branches : step.instruction.flow = .branch address ∨
      step.instruction.flow = .goto address) :
    (trace.absorb scope walk).Files scope address := by
  have listed : step.targetAt scope.board.wiring address step.after ∈
      walk.branches scope.board.wiring :=
    Walk.mem_branches.mpr ⟨step, taken, address, branches, rfl⟩
  rw [Trace.absorb, if_pos trusted]
  cases found : scope.board.wiring.offset? address with
  | none =>
    refine .unmapped found (List.mem_append_right _ (List.mem_filterMap.mpr ?_))
    refine ⟨_, List.mem_append_right _ listed, ?_⟩
    rw [Step.targetAt, found]
  | some target =>
    cases leaves : scope.leaves trace.entry.offset target with
    | true =>
      refine .jump found leaves (List.mem_map.mpr ⟨_, List.mem_append_right _
        (List.mem_append_right _ (List.mem_filter.mpr ⟨listed, ?_⟩)), rfl⟩)
      rw [Step.targetAt, found]
      exact leaves
    | false =>
      obtain ⟨notBefore, inside⟩ := Scope.leaves_eq_false_iff.mp leaves
      refine .label found leaves (List.mem_append_right _ ?_)
      refine List.mem_map.mpr ⟨(target, step.after), Scope.mem_staying.mpr ?_, rfl⟩
      exact ⟨_, listed, found, rfl, notBefore, inside⟩

theorem keepsBranches_run {scope : Scope} {entry : Entry}
    (trusted : (run scope entry).isConfident = true) :
    (run scope entry).KeepsBranches scope := by
  refine explore_of_absorb (fun trace => trace.isConfident = true → trace.KeepsBranches scope) ?_
    (entry.offset, entry.processor) ?_ trusted
  · intro trace walk keeps trusted offset instruction address look branches
    rw [isConfident_absorb] at trusted
    rw [tiling_absorb] at look
    rcases Tiling.getElem?_of_foldl_place look with old | ⟨member, -⟩
    · exact (keeps trusted offset instruction address old branches).absorb walk
    · obtain ⟨step, taken, rfl⟩ := List.mem_map.mp member
      exact files_absorb trusted taken branches
  · intro _ offset instruction address look
    simp [start] at look

end Trace

/-! ### Taking up targets -/

namespace Frontier

theorem mem_walked_takeUp {walked : Std.TreeSet Nat} {fresh targets : List (Nat × Processor)}
    {offset : Nat} :
    offset ∈ (takeUp walked fresh targets).1 ↔
      offset ∈ walked ∨ offset ∈ targets.map Prod.fst := by
  induction targets generalizing walked fresh with
  | nil => simp [takeUp]
  | cons target rest inductionHypothesis =>
    rw [takeUp]
    split
    · rename_i known
      rw [inductionHypothesis, List.map_cons, List.mem_cons]
      constructor
      · exact Or.imp_right Or.inr
      · rintro (old | rfl | later)
        · exact Or.inl old
        · exact Or.inl (Std.TreeSet.contains_iff_mem.mp known)
        · exact Or.inr later
    · rw [inductionHypothesis, Std.TreeSet.mem_insert, Nat.compare_eq_eq, List.map_cons,
        List.mem_cons, or_assoc, or_left_comm, eq_comm]

theorem mem_takeUp_of_fresh {walked : Std.TreeSet Nat} {fresh targets : List (Nat × Processor)}
    {target : Nat × Processor} (member : target ∈ fresh) :
    target ∈ (takeUp walked fresh targets).2 := by
  induction targets generalizing walked fresh with
  | nil => exact List.mem_reverse.mpr member
  | cons first rest inductionHypothesis =>
    rw [takeUp]
    split
    · exact inductionHypothesis member
    · exact inductionHypothesis (List.mem_cons_of_mem _ member)

/-- An offset that was not walked before is so now because a target there was taken up. -/
theorem mem_takeUp_of_walked {walked : Std.TreeSet Nat} {fresh targets : List (Nat × Processor)}
    {offset : Nat} (member : offset ∈ (takeUp walked fresh targets).1) :
    offset ∈ walked ∨ offset ∈ (takeUp walked fresh targets).2.map Prod.fst := by
  induction targets generalizing walked fresh with
  | nil => exact Or.inl member
  | cons target rest inductionHypothesis =>
    rw [takeUp] at member ⊢
    split at member
    · rename_i known
      rw [if_pos known]
      exact inductionHypothesis member
    · rename_i new
      rw [if_neg new]
      rcases inductionHypothesis member with old | taken
      · rcases Std.TreeSet.mem_insert.mp old with here | before
        · obtain rfl := Nat.compare_eq_eq.mp here
          exact Or.inr (List.mem_map_of_mem (mem_takeUp_of_fresh List.mem_cons_self))
        · exact Or.inl before
      · exact Or.inr taken

theorem size_takeUp (walked : Std.TreeSet Nat) (fresh targets : List (Nat × Processor)) :
    (takeUp walked fresh targets).1.size + fresh.length =
      walked.size + (takeUp walked fresh targets).2.length := by
  induction targets generalizing walked fresh with
  | nil => simp [takeUp]
  | cons target rest inductionHypothesis =>
    rw [takeUp]
    split
    · exact inductionHypothesis walked fresh
    · rename_i new
      have counted := inductionHypothesis (walked.insert target.1) (target :: fresh)
      rw [Std.TreeSet.size_insert, if_neg new, List.length_cons] at counted
      omega

theorem mem_walked_start {start offset : Nat} :
    offset ∈ (Frontier.start start).walked ↔ offset = start := by
  rw [Frontier.start, Std.TreeSet.mem_insert, Nat.compare_eq_eq, eq_comm]
  exact or_iff_left (by simp)

/-- Only offsets of the range were taken up, and there are walks enough left for every target
that waits. -/
structure Room (range : Span) (count : Nat) (walked : Std.TreeSet Nat)
    (waiting : List (Nat × Processor)) : Prop where
  inside : ∀ offset ∈ walked, range.contains offset = true
  enough : range.size + 1 + waiting.length ≤ count + walked.size

namespace Room

variable {range : Span} {count : Nat} {frontier : Frontier}

/-- As long as a target waits, another walk is allowed. -/
theorem count_ne_zero {walked : Std.TreeSet Nat} {waiting : List (Nat × Processor)}
    (room : Room range count walked waiting) : count ≠ 0 := by
  have once : walked.toList.Nodup :=
    Std.TreeSet.ordered_toList.imp fun before => Nat.ne_of_lt (Nat.compare_eq_lt.mp before)
  have bounded := Span.length_le_size once fun offset member =>
    room.inside offset (Std.TreeSet.mem_toList.mp member)
  rw [Std.TreeSet.length_toList] at bounded
  have enough := room.enough
  omega

theorem start {offset : Nat} (inside : range.contains offset = true) (processor : Processor) :
    Room range (range.size + 1) (Frontier.start offset).walked [(offset, processor)] := by
  constructor
  · intro offset member
    rwa [mem_walked_start.mp member]
  · rw [Frontier.start, Std.TreeSet.size_insert, if_neg (by simp)]
    simp

/-- The walk from the next target makes room for the targets that it leads to. -/
theorem add {place : Nat × Processor} {targets : List (Nat × Processor)}
    (room : Room range (count + 1) frontier.walked (place :: frontier.pending))
    (inside : ∀ target ∈ targets, range.contains target.1 = true) :
    Room range count (frontier.add targets).walked (frontier.add targets).pending := by
  constructor
  · intro offset member
    rcases mem_walked_takeUp.mp member with old | new
    · exact room.inside offset old
    · obtain ⟨target, listed, rfl⟩ := List.mem_map.mp new
      exact inside target listed
  · -- a target that is taken up waits, so it counts on both sides
    have counted := size_takeUp frontier.walked [] targets
    have enough := room.enough
    rw [List.length_cons] at enough
    rw [List.length_nil] at counted
    simp only [Frontier.add, List.length_append]
    omega

theorem prune (room : Room range count frontier.walked frontier.pending) (tiling : Tiling) :
    Room range count (frontier.prune tiling).walked (frontier.prune tiling).pending := by
  refine ⟨room.inside, ?_⟩
  have shorter : (frontier.prune tiling).pending.length ≤ frontier.pending.length :=
    (List.dropWhile_sublist _).length_le
  have enough := room.enough
  show range.size + 1 + (frontier.prune tiling).pending.length ≤ count + frontier.walked.size
  omega

end Room

end Frontier

/-- A trace goes on inside the range only. -/
theorem Trace.contains_of_mem_continuations {scope : Scope} {trace : Trace} {walk : Walk}
    {target : Nat × Processor} (member : target ∈ trace.continuations scope walk) :
    scope.range.contains target.1 = true := by
  unfold continuations at member
  split at member
  · obtain ⟨-, -, -, -, -, inside⟩ := Scope.mem_staying.mp member
    exact inside
  · exact absurd member List.not_mem_nil

/-! ### Settled targets -/

namespace Scope

/-- What can become of a target inside a routine with the given instructions. -/
inductive Settles (scope : Scope) (start : Nat) (entry : Processor)
    (instructions : List Instruction) (offset : Nat) : Prop
  /-- One of the instructions stands there. -/
  | listed {instruction : Instruction} (member : instruction ∈ instructions)
      (here : instruction.offset = offset)
  /-- Control comes there, but the instruction that it finds overlaps one of them. -/
  | overlaps {processor : Processor} {instruction other : Instruction}
      (reached : scope.Reaches start entry offset processor)
      (decodes : scope.Decodes start offset processor instruction)
      (member : other ∈ instructions) (clash : Tiling.Clash other instruction)
  /-- Control comes there, but nothing decodes there inside the window. -/
  | undecodable {processor : Processor} (reached : scope.Reaches start entry offset processor)
      (fails : ∀ instruction, ¬ scope.Decodes start offset processor instruction)

theorem Settles.mono {scope : Scope} {start offset : Nat} {entry : Processor}
    {instructions more : List Instruction} (subset : instructions ⊆ more)
    (settles : scope.Settles start entry instructions offset) :
    scope.Settles start entry more offset := by
  cases settles with
  | listed member here => exact .listed (subset member) here
  | overlaps reached decodes member clash => exact .overlaps reached decodes (subset member) clash
  | undecodable reached fails => exact .undecodable reached fails

end Scope

theorem Board.steps_path_of_fetch? {board : Board} {stop limit offset : Nat}
    {processor : Processor} {instruction : Instruction} (positive : limit ≠ 0)
    (fetched : board.fetch? stop offset processor = some instruction) :
    ∃ rest, (board.path stop limit offset processor).1 =
      ⟨instruction, processor.advance instruction⟩ :: rest := by
  cases limit with
  | zero => exact absurd rfl positive
  | succ limit =>
    rw [path, fetched]
    cases ends : instruction.flow.ending? with
    | none =>
      refine ⟨(board.path stop limit instruction.stop (processor.advance instruction)).1, ?_⟩
      simp only [ends]
    | some ending =>
      refine ⟨[], ?_⟩
      simp only [ends]

theorem Tiling.instructions_subset_foldl_place (tiling : Tiling)
    (instructions : List Instruction) :
    tiling.instructions ⊆ Tiling.instructions (instructions.foldl place tiling) := by
  intro instruction member
  obtain ⟨offset, look⟩ := mem_instructions.mp member
  exact mem_instructions.mpr ⟨offset, getElem?_foldl_place_of_some look instructions⟩

namespace Trace

/-- Taking in the walk from a target settles it. -/
theorem settles_absorb {scope : Scope} {trace : Trace} (orderly : trace.tiling.Orderly)
    (positive : scope.limit ≠ 0) {start : Nat} {entry : Processor} {place : Nat × Processor}
    (walkable : scope.Walkable start entry place.1 place.2) :
    scope.Settles start entry
      (trace.absorb scope (scope.walk place.1 place.2)).tiling.instructions place.1 := by
  cases fetched : scope.board.fetch? (scope.windowEnd start) place.1 place.2 with
  | none =>
    refine .undecodable walkable.1 fun instruction decodes => ?_
    rw [Board.fetch?_eq_some_iff.mpr decodes] at fetched
    exact nomatch fetched
  | some instruction =>
    have decodes : scope.Decodes start place.1 place.2 instruction :=
      Board.fetch?_eq_some_iff.mp fetched
    obtain ⟨rest, steps⟩ := Board.steps_path_of_fetch? positive fetched
    have first : (scope.walk place.1 place.2).instructions =
        instruction :: rest.map Step.instruction := by
      rw [Walk.instructions, Scope.walk, Board.steps_walk, walkable.windowEnd_eq, steps,
        List.map_cons]
    rw [tiling_absorb, first, List.foldl_cons]
    by_cases overlaps : trace.tiling.overlaps instruction = true
    · obtain ⟨offset, placed, look, clash⟩ := (Tiling.overlaps_iff orderly instruction).mp overlaps
      refine .overlaps walkable.1 decodes (Tiling.mem_instructions.mpr ⟨offset, ?_⟩) clash
      exact Tiling.getElem?_foldl_place_of_some (Tiling.getElem?_place_of_some look _) _
    · refine .listed (Tiling.mem_instructions.mpr ⟨instruction.offset, ?_⟩) decodes.offset_eq
      refine Tiling.getElem?_foldl_place_of_some ?_ _
      rw [Tiling.getElem?_place_of_not_overlaps overlaps, if_pos rfl]

/-! ### The frontier of a trace -/

/-- A trusted trace that may still take in `count` walks: every label was taken up, and every
target taken up is settled or waits. -/
structure Underway (scope : Scope) (entry : Entry) (count : Nat) (trace : Trace)
    (walked : Std.TreeSet Nat) (waiting : List (Nat × Processor)) : Prop where
  same : trace.entry = entry
  trusted : trace.isConfident = true
  orderly : trace.tiling.Orderly
  noted : ∀ offset ∈ trace.labels, offset ∈ walked
  accounted : ∀ offset ∈ walked,
    scope.Settles entry.offset entry.processor trace.tiling.instructions offset ∨
      offset ∈ waiting.map Prod.fst
  walkable : ∀ target ∈ waiting,
    scope.Walkable entry.offset entry.processor target.1 target.2
  inside : ∀ offset ∈ walked, scope.range.contains offset = true
  enough : scope.range.size + 1 + waiting.length ≤ count + walked.size

namespace Underway

variable {scope : Scope} {entry : Entry} {count : Nat} {trace : Trace} {frontier : Frontier}

theorem room {walked : Std.TreeSet Nat} {waiting : List (Nat × Processor)}
    (underway : Underway scope entry count trace walked waiting) :
    Frontier.Room scope.range count walked waiting :=
  ⟨underway.inside, underway.enough⟩

/-- Taking in the walk from the next target, and taking up the targets of its branches. -/
theorem absorb {place : Nat × Processor} (positive : scope.limit ≠ 0)
    (underway : Underway scope entry (count + 1) trace frontier.walked
      (place :: frontier.pending)) :
    Underway scope entry count (trace.absorb scope (scope.walk place.1 place.2))
      (frontier.add (trace.continuations scope (scope.walk place.1 place.2))).walked
      (frontier.add (trace.continuations scope (scope.walk place.1 place.2))).pending := by
  have here := underway.walkable place List.mem_cons_self
  have continuations : trace.continuations scope (scope.walk place.1 place.2) =
      scope.staying entry.offset ((scope.walk place.1 place.2).branches scope.board.wiring) := by
    rw [Trace.continuations, if_pos underway.trusted, underway.same]
  have kept : trace.tiling.instructions ⊆
      (trace.absorb scope (scope.walk place.1 place.2)).tiling.instructions := by
    rw [tiling_absorb]
    exact Tiling.instructions_subset_foldl_place _ _
  constructor
  · rw [entry_absorb, underway.same]
  · rw [isConfident_absorb, underway.trusted]
  · rw [tiling_absorb]
    exact underway.orderly.foldl_place _
  · intro offset member
    rw [Trace.absorb, if_pos underway.trusted] at member
    refine Frontier.mem_walked_takeUp.mpr ?_
    rcases List.mem_append.mp member with old | new
    · exact Or.inl (underway.noted offset old)
    · rw [continuations, ← underway.same]
      exact Or.inr new
  · intro offset member
    rw [Frontier.add, List.map_append, List.mem_append]
    rcases Frontier.mem_takeUp_of_walked member with old | new
    · rcases underway.accounted offset old with settled | waits
      · exact Or.inl (settled.mono kept)
      · rcases List.mem_cons.mp waits with rfl | later
        · exact Or.inl (settles_absorb underway.orderly positive here)
        · exact Or.inr (Or.inl later)
    · exact Or.inr (Or.inr new)
  · intro target member
    rcases Frontier.mem_pending_add member with old | new
    · exact underway.walkable target (List.mem_cons_of_mem _ old)
    · rw [continuations] at new
      exact here.staying new
  · exact (underway.room.add fun _ => contains_of_mem_continuations).inside
  · exact (underway.room.add fun _ => contains_of_mem_continuations).enough

/-- Targets at which an instruction stands need not be walked from. -/
theorem prune (underway : Underway scope entry count trace frontier.walked frontier.pending) :
    Underway scope entry count trace (frontier.prune trace.tiling).walked
      (frontier.prune trace.tiling).pending := by
  refine ⟨underway.same, underway.trusted, underway.orderly, underway.noted, ?_, ?_,
    underway.inside, ?_⟩
  · intro offset member
    rcases underway.accounted offset member with settled | waits
    · exact Or.inl settled
    · rw [← List.takeWhile_append_dropWhile (p := fun target => trace.tiling.contains target.1)
        (l := frontier.pending), List.map_append, List.mem_append] at waits
      rcases waits with dropped | stays
      · obtain ⟨target, passed, rfl⟩ := List.mem_map.mp dropped
        have stands := List.all_eq_true.mp List.all_takeWhile target passed
        rw [← Std.TreeMap.isSome_getElem?_eq_contains] at stands
        obtain ⟨instruction, look⟩ := Option.isSome_iff_exists.mp stands
        exact Or.inl (.listed (Tiling.mem_instructions.mpr ⟨_, look⟩)
          (underway.orderly.keyed look))
      · exact Or.inr stays
  · exact fun target member =>
      underway.walkable target (Frontier.mem_pending_of_prune member)
  · exact (underway.room.prune trace.tiling).enough

end Underway

/-- A trace that stays below the limit settles all of its labels. -/
theorem settles_explore {scope : Scope} {entry : Entry} {count : Nat} {trace last : Trace}
    {frontier : Frontier} (place : Nat × Processor)
    (underway : Underway scope entry count trace frontier.walked (place :: frontier.pending))
    (explored : explore scope count trace frontier (scope.walk place.1 place.2) = last)
    (short : last.tiling.size < scope.limit) {offset : Nat} (label : offset ∈ last.labels) :
    scope.Settles entry.offset entry.processor last.tiling.instructions offset := by
  induction count generalizing trace frontier place with
  | zero => exact absurd rfl underway.room.count_ne_zero
  | succ count inductionHypothesis =>
    have next := (underway.absorb (Nat.ne_of_gt (Nat.zero_lt_of_lt short))).prune
    rw [explore] at explored
    split at explored
    · rename_i done
      subst explored
      rw [done] at next
      exact (next.accounted offset (next.noted offset label)).resolve_right List.not_mem_nil
    · rename_i target processor rest more
      split at explored
      · rename_i full
        subst explored
        exact absurd short (Nat.not_lt_of_le full)
      · rw [more] at next
        exact inductionHypothesis (target, processor) next explored

/-- A trusted trace of an entry of the range that stays below the limit settles all of its
labels. -/
theorem settles_run {scope : Scope} {entry : Entry}
    (inside : scope.range.contains entry.offset = true)
    (trusted : (run scope entry).isConfident = true)
    (short : (run scope entry).tiling.size < scope.limit) {offset : Nat}
    (label : offset ∈ (run scope entry).labels) :
    scope.Settles entry.offset entry.processor (run scope entry).tiling.instructions offset := by
  have room := Frontier.Room.start inside entry.processor
  have begun : Underway scope entry (scope.range.size + 1)
      (start entry (scope.walk entry.offset entry.processor))
      (Frontier.start entry.offset).walked ((entry.offset, entry.processor) :: []) := by
    rw [isConfident, ending_run] at trusted
    constructor
    · rfl
    · exact trusted
    · exact Tiling.orderly_empty
    · exact fun offset member => absurd member List.not_mem_nil
    · exact fun offset member =>
        Or.inr (List.mem_singleton.mpr (Frontier.mem_walked_start.mp member))
    · intro target member
      rw [List.mem_singleton.mp member]
      exact scope.walkable_entry _ _
    · exact room.inside
    · exact room.enough
  exact settles_explore (entry.offset, entry.processor) begun rfl short label

end Trace

end Cartridge
