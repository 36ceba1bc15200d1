/-
This file proves that decoding inside a span depends on the bytes of the span only. A fetch
may look at bytes behind the end of its window, but then it finds no instruction that fits,
whatever these bytes are; and an instruction that fits is made of bytes before the end. So
two images of one size that agree on a span give the same walks, the same traces, the same
sweeps and the same scores inside it.
-/

import Cartridge.Analysis
import Cartridge.Proofs.Trace

namespace Cartridge

/-- Two images have the same size and the same bytes inside a span. -/
structure Image.AgreeOn (span : Span) (first second : Image) : Prop where
  size : first.size = second.size
  bytes : ∀ offset, span.contains offset = true → first.byte? offset = second.byte? offset

namespace Image.AgreeOn

variable {span : Span} {first second : Image}

theorem symm (agree : first.AgreeOn span second) : second.AgreeOn span first :=
  ⟨agree.size.symm, fun offset inside => (agree.bytes offset inside).symm⟩

theorem wiring (agree : first.AgreeOn span second) (layout : Layout) :
    Board.wiring ⟨layout, first⟩ = Board.wiring ⟨layout, second⟩ := by
  rw [Board.wiring, Board.wiring, agree.size]

theorem slice (agree : first.AgreeOn span second) {start stop : Nat} (after : span.start ≤ start)
    (before : stop ≤ span.stop) : first.slice start stop = second.slice start stop := by
  refine Array.ext_getElem? fun index => ?_
  rw [Image.slice, Image.slice, Array.getElem?_extract, Array.getElem?_extract]
  rw [show first.bytes.size = second.bytes.size from agree.size]
  split
  · rename_i within
    refine agree.bytes (start + index) ((Span.contains_iff _ _).mpr ?_)
    omega
  · rfl

end Image.AgreeOn

/-! ### Fetching -/

namespace Operand

theorem size_of_read? {image : Image} {offset size : Nat} {operand : Operand}
    (read : read? image offset size = some operand) : operand.size = size := by
  match size with
  | 0 =>
    obtain rfl := Option.some.inj read
    rfl
  | 1 =>
    obtain ⟨low, -, made⟩ := Option.bind_eq_some_iff.mp read
    obtain rfl := Option.some.inj made
    rfl
  | 2 =>
    obtain ⟨low, -, more⟩ := Option.bind_eq_some_iff.mp read
    obtain ⟨high, -, made⟩ := Option.bind_eq_some_iff.mp more
    obtain rfl := Option.some.inj made
    rfl
  | 3 =>
    obtain ⟨low, -, more⟩ := Option.bind_eq_some_iff.mp read
    obtain ⟨high, -, most⟩ := Option.bind_eq_some_iff.mp more
    obtain ⟨bank, -, made⟩ := Option.bind_eq_some_iff.mp most
    obtain rfl := Option.some.inj made
    rfl
  | _ + 4 => exact nomatch read

theorem read?_congr {first second : Image} {offset size : Nat}
    (same : ∀ index < size, first.byte? (offset + index) = second.byte? (offset + index)) :
    read? first offset size = read? second offset size := by
  match size with
  | 0 => rfl
  | 1 =>
    rw [read?, read?, show first.byte? offset = _ from same 0 (by omega)]
    rfl
  | 2 =>
    rw [read?, read?, show first.byte? offset = _ from same 0 (by omega), same 1 (by omega)]
    rfl
  | 3 =>
    rw [read?, read?, show first.byte? offset = _ from same 0 (by omega), same 1 (by omega),
      same 2 (by omega)]
    rfl
  | _ + 4 => rfl

end Operand

namespace Board

variable (layout : Layout) {span : Span} {first second : Image}

theorem fetch?_of_agreeOn (agree : first.AgreeOn span second) {stop offset : Nat}
    {processor : Processor} {instruction : Instruction} (after : span.start ≤ offset)
    (bounded : stop ≤ span.stop)
    (fetched : fetch? ⟨layout, first⟩ stop offset processor = some instruction) :
    fetch? ⟨layout, second⟩ stop offset processor = some instruction := by
  rw [fetch?_eq_some_iff, Instruction.decode_eq_ok_iff] at fetched ⊢
  obtain ⟨⟨codeAt, addressAt, operandAt, here, resolves⟩, fits⟩ := fetched
  have size := Operand.size_of_read? operandAt
  rw [Instruction.stop, Instruction.size, size, here] at fits
  refine ⟨⟨?_, addressAt, ?_, here, resolves⟩, ?_⟩
  · rw [← agree.bytes offset ((Span.contains_iff _ _).mpr (by omega))]
    exact codeAt
  · rw [← operandAt]
    refine (Operand.read?_congr fun index within => ?_).symm
    exact agree.bytes _ ((Span.contains_iff _ _).mpr (by omega))
  · rw [Instruction.stop, Instruction.size, size, here]
    exact fits

/-- A fetch whose window ends inside the span depends on the bytes of the span only. -/
theorem fetch?_eq_of_agreeOn (agree : first.AgreeOn span second) {stop offset : Nat}
    (after : span.start ≤ offset) (bounded : stop ≤ span.stop) (processor : Processor) :
    fetch? ⟨layout, first⟩ stop offset processor =
      fetch? ⟨layout, second⟩ stop offset processor :=
  Option.ext fun _ =>
    ⟨fetch?_of_agreeOn layout agree after bounded,
      fetch?_of_agreeOn layout agree.symm after bounded⟩

theorem path_eq_of_agreeOn (agree : first.AgreeOn span second) {stop : Nat}
    (bounded : stop ≤ span.stop) (limit : Nat) {offset : Nat} (after : span.start ≤ offset)
    (processor : Processor) :
    path ⟨layout, first⟩ stop limit offset processor =
      path ⟨layout, second⟩ stop limit offset processor := by
  induction limit generalizing offset processor with
  | zero => rfl
  | succ limit inductionHypothesis =>
    rw [path, path, fetch?_eq_of_agreeOn layout agree after bounded]
    cases fetched : fetch? ⟨layout, second⟩ stop offset processor with
    | none => rfl
    | some instruction =>
      have progress := lt_stop_of_fetch? fetched
      simp only [inductionHypothesis (Nat.le_trans after (Nat.le_of_lt progress))]

theorem run_eq_of_agreeOn (agree : first.AgreeOn span second) {stop : Nat}
    (bounded : stop ≤ span.stop) (count : Nat) {offset : Nat} (after : span.start ≤ offset)
    (processor : Processor) :
    run ⟨layout, first⟩ stop count offset processor =
      run ⟨layout, second⟩ stop count offset processor := by
  induction count generalizing offset processor with
  | zero => rfl
  | succ count inductionHypothesis =>
    rw [run, run, fetch?_eq_of_agreeOn layout agree after bounded]
    cases fetched : fetch? ⟨layout, second⟩ stop offset processor with
    | none => rfl
    | some instruction =>
      have progress := lt_stop_of_fetch? fetched
      simp only [inductionHypothesis (Nat.le_trans after (Nat.le_of_lt progress))]

end Board

/-! ### Pieces of a span -/

theorem Span.piece_bounds {span piece : Span} {size : Nat} (member : piece ∈ span.pieces size) :
    span.start ≤ piece.start ∧ piece.stop ≤ span.stop := by
  unfold pieces at member
  split at member
  · obtain ⟨index, -, rfl⟩ := List.mem_map.mp member
    exact ⟨Nat.le_max_left _ _, Nat.min_le_left _ _⟩
  · exact absurd member List.not_mem_nil

/-- A listing of a span depends on the bytes of the span only. -/
theorem Board.listing_eq_of_agreeOn {span : Span} {first second : Image}
    (agree : first.AgreeOn span second) (layout : Layout) (processor : Processor) :
    listing ⟨layout, first⟩ span processor = listing ⟨layout, second⟩ span processor := by
  have same : windows ⟨layout, first⟩ span = windows ⟨layout, second⟩ span := by
    rw [windows, windows, agree.wiring]
  rw [listing, listing, same]
  rw [List.flatMap_def, List.flatMap_def]
  refine congrArg List.flatten (List.map_congr_left fun window member => ?_)
  obtain ⟨after, before⟩ := Span.piece_bounds member
  rw [sweep_eq_run, sweep_eq_run]
  rw [show (⟨layout, first⟩ : Board).image.size = (⟨layout, second⟩ : Board).image.size
    from agree.size]
  refine run_eq_of_agreeOn layout agree ?_ _ after processor
  exact Nat.le_trans (Nat.min_le_left _ _) (Nat.le_trans before (Nat.min_le_left _ _))

/-- The scores of the windows of a span depend on the bytes of the span only. -/
theorem Region.classify_eq_of_agreeOn {span : Span} {first second : Image}
    (agree : first.AgreeOn span second) (weights : Weights) (threshold : Float)
    (windowSize : Nat) :
    classify weights threshold windowSize first span =
      classify weights threshold windowSize second span := by
  rw [classify, classify, agree.size]
  refine List.map_congr_left fun window member => ?_
  obtain ⟨after, before⟩ := Span.piece_bounds member
  rw [agree.slice after (Nat.le_trans before (Nat.min_le_left _ _))]

/-! ### Tracing -/

/-- Two scopes in which every walk that starts behind the start of the range is the same. -/
structure Scope.Agrees (first second : Scope) : Prop where
  wiring : first.board.wiring = second.board.wiring
  range : first.range = second.range
  limit : first.limit = second.limit
  walk : ∀ offset processor, first.range.start ≤ offset →
    first.walk offset processor = second.walk offset processor

theorem Image.AgreeOn.scope {range : Span} {first second : Image}
    (agree : first.AgreeOn range second) (layout : Layout) (limit : Nat) :
    Scope.Agrees ⟨⟨layout, first⟩, range, limit⟩ ⟨⟨layout, second⟩, range, limit⟩ where
  wiring := agree.wiring layout
  range := rfl
  limit := rfl
  walk offset processor after := by
    have window : Board.windowEnd ⟨layout, first⟩ (some range.stop) offset =
        Board.windowEnd ⟨layout, second⟩ (some range.stop) offset := by
      rw [Board.windowEnd, Board.windowEnd, agree.wiring]
    have bounded : Board.windowEnd ⟨layout, second⟩ (some range.stop) offset ≤ range.stop :=
      Nat.min_le_right _ _
    rw [Scope.walk, Scope.walk, Board.walk, Board.walk, Board.follow_eq_path,
      Board.follow_eq_path, window]
    simp only [Board.path_eq_of_agreeOn layout agree bounded limit after processor]

namespace Trace

variable {first second : Scope}

theorem absorb_congr (agrees : first.Agrees second) (trace : Trace) (walk : Walk) :
    trace.absorb first walk = trace.absorb second walk := by
  unfold absorb absorbTargets Scope.leaving Scope.staying Scope.leaves
  rw [agrees.wiring, agrees.range]

theorem continuations_congr (agrees : first.Agrees second) (trace : Trace) (walk : Walk) :
    trace.continuations first walk = trace.continuations second walk := by
  unfold continuations Scope.staying Scope.leaves
  rw [agrees.wiring, agrees.range]

theorem start_le_of_mem_continuations {scope : Scope} {trace : Trace} {walk : Walk}
    {target : Nat × Processor} (member : target ∈ trace.continuations scope walk) :
    scope.range.start ≤ target.1 := by
  unfold continuations at member
  split at member
  · obtain ⟨-, -, -, -, -, inside⟩ := Scope.mem_staying.mp member
    exact ((Span.contains_iff _ _).mp inside).1
  · exact absurd member List.not_mem_nil

theorem explore_congr (agrees : first.Agrees second) (count : Nat) (trace : Trace)
    {frontier : Frontier} (walk : Walk)
    (pending : ∀ target ∈ frontier.pending, first.range.start ≤ target.1) :
    explore first count trace frontier walk = explore second count trace frontier walk := by
  induction count generalizing trace frontier walk with
  | zero => rfl
  | succ count inductionHypothesis =>
    rw [explore, explore, ← absorb_congr agrees, ← continuations_congr agrees, ← agrees.limit]
    have wider : ∀ target ∈ ((frontier.add (trace.continuations first walk)).prune
        (trace.absorb first walk).tiling).pending, first.range.start ≤ target.1 := by
      intro target member
      rcases Frontier.mem_pending_add (Frontier.mem_pending_of_prune member) with old | new
      · exact pending target old
      · exact start_le_of_mem_continuations new
    cases next : ((frontier.add (trace.continuations first walk)).prune
        (trace.absorb first walk).tiling).pending with
    | nil => rfl
    | cons target rest =>
      rw [next] at wider
      have here := wider target List.mem_cons_self
      simp only
      split
      · rfl
      · rw [← agrees.walk _ _ here]
        exact inductionHypothesis _ _ fun later member =>
          wider later (List.mem_cons_of_mem _ member)

/-- In scopes that agree, the traces of an entry of the range are the same. -/
theorem run_congr (agrees : first.Agrees second) {entry : Entry}
    (inside : first.range.contains entry.offset = true) : run first entry = run second entry := by
  rw [run, run, ← agrees.range, ← agrees.walk _ _ ((Span.contains_iff _ _).mp inside).1]
  exact explore_congr agrees _ _ _ fun target member => absurd member List.not_mem_nil

end Trace

end Cartridge
