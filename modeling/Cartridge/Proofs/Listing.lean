/-
This file proves that a listing tiles its span. The bank windows partition the part of the
span that has addresses, and each of them is swept anew. The instructions of a sweep stand one
behind the other, each under the state that those before it leave behind. A sweep stops only
where the next instruction would run past the window: every byte of the image that has an
address begins an instruction, as long as the bytes of its operand are there. No instruction
is longer than four bytes, so at most three bytes of a window are left over.
-/

import Cartridge.Proofs.Partition
import Cartridge.Sweep

namespace Cartridge

/-! ### Decoding succeeds inside an image -/

/-- An operand can be read where the image holds its bytes. -/
theorem Operand.exists_read? {image : Image} {offset size : Nat} (short : size ≤ 3)
    (inside : offset + size ≤ image.size) : ∃ operand, read? image offset size = some operand := by
  have byte (place : Nat) (within : place < image.size) := Image.exists_byte? within
  match size, short with
  | 0, _ => exact ⟨.absent, rfl⟩
  | 1, _ =>
    obtain ⟨low, lowAt⟩ := byte offset (by omega)
    exact ⟨.byte low, by rw [read?, lowAt]; rfl⟩
  | 2, _ =>
    obtain ⟨low, lowAt⟩ := byte offset (by omega)
    obtain ⟨high, highAt⟩ := byte (offset + 1) (by omega)
    exact ⟨.word low high, by rw [read?, lowAt, highAt]; rfl⟩
  | 3, _ =>
    obtain ⟨low, lowAt⟩ := byte offset (by omega)
    obtain ⟨high, highAt⟩ := byte (offset + 1) (by omega)
    obtain ⟨bank, bankAt⟩ := byte (offset + 2) (by omega)
    exact ⟨.long low high bank, by rw [read?, lowAt, highAt, bankAt]; rfl⟩

namespace Board

/-- The longest instruction has four bytes, so four bytes that have addresses always hold one. -/
theorem exists_fetch? {board : Board} {stop offset : Nat} (room : offset + 4 ≤ stop)
    (mapped : stop ≤ board.wiring.mappedSize) (processor : Processor) :
    ∃ instruction, board.fetch? stop offset processor = some instruction := by
  obtain ⟨present, reached⟩ := Nat.le_min.mp mapped
  have inside : stop ≤ board.image.size := present
  have first : offset < board.image.size := by omega
  obtain ⟨code, codeAt⟩ := Image.exists_byte? first
  have shown : offset < board.layout.reach := Nat.lt_of_lt_of_le (by omega) reached
  obtain ⟨address, addressAt⟩ := Layout.exists_address? shown
  have short : Instruction.operandSizeUnder processor code ≤ 3 := Opcode.operandSizeWith_le _ _ _
  have behind : offset + 1 + Instruction.operandSizeUnder processor code ≤ board.image.size := by
    omega
  obtain ⟨operand, operandAt⟩ := Operand.exists_read? short behind
  let instruction : Instruction := ⟨offset, address, code, operand,
    Instruction.resolve? (Opcode.ofByte code) operand address processor.dataBank⟩
  have decoded : Instruction.decode board.layout board.image offset processor = .ok instruction :=
    Instruction.decode_eq_ok_iff.mpr ⟨codeAt, addressAt, operandAt, rfl, rfl⟩
  have fits : instruction.stop ≤ stop :=
    Nat.le_trans (Nat.add_le_add_left instruction.size_le offset) room
  exact ⟨instruction, fetch?_eq_some_iff.mpr ⟨decoded, fits⟩⟩

/-! ### Instructions one behind the other -/

/-- Instructions that stand one behind the other from an offset to a finish, each decoded under
the state that those before it leave behind. -/
inductive Unbroken (board : Board) : Nat → Processor → List Instruction → Nat → Prop
  | nil (offset : Nat) (processor : Processor) : Unbroken board offset processor [] offset
  | cons {offset finish : Nat} {processor : Processor} {instruction : Instruction}
      {rest : List Instruction}
      (decoded : Instruction.decode board.layout board.image offset processor = .ok instruction)
      (follows : Unbroken board instruction.stop (processor.advance instruction) rest finish) :
      Unbroken board offset processor (instruction :: rest) finish

namespace Unbroken

variable {board : Board} {start finish : Nat} {processor : Processor}
  {instructions : List Instruction}

theorem le (unbroken : board.Unbroken start processor instructions finish) : start ≤ finish := by
  induction unbroken with
  | nil => exact Nat.le_refl _
  | cons decoded _ inductionHypothesis =>
    rw [← Instruction.offset_of_decode decoded]
    exact Nat.le_trans (Nat.le_of_lt (Instruction.offset_lt_stop _)) inductionHypothesis

theorem bounds_of_mem (unbroken : board.Unbroken start processor instructions finish)
    {instruction : Instruction} (member : instruction ∈ instructions) :
    start ≤ instruction.offset ∧ instruction.stop ≤ finish := by
  induction unbroken with
  | nil => exact absurd member List.not_mem_nil
  | cons decoded follows inductionHypothesis =>
    have here := Instruction.offset_of_decode decoded
    rcases List.mem_cons.mp member with rfl | later
    · exact ⟨Nat.le_of_eq here.symm, follows.le⟩
    · obtain ⟨after, before⟩ := inductionHypothesis later
      rw [← here]
      exact ⟨Nat.le_trans (Nat.le_of_lt (Instruction.offset_lt_stop _)) after, before⟩

theorem pairwise (unbroken : board.Unbroken start processor instructions finish) :
    instructions.Pairwise fun earlier later => earlier.stop ≤ later.offset := by
  induction unbroken with
  | nil => exact .nil
  | cons _ follows inductionHypothesis =>
    exact .cons (fun _ later => (follows.bounds_of_mem later).1) inductionHypothesis

end Unbroken

/-! ### The sweep of a window -/

/-- The instructions of one bank window. They begin where the window begins and follow one
another without a gap; they end at most three bytes before the window does, and what stands
behind them runs past its end. -/
def Fills (board : Board) (processor : Processor) (window : Span)
    (instructions : List Instruction) : Prop :=
  ∃ finish, board.Unbroken window.start processor instructions finish ∧
    finish ≤ window.stop ∧ window.stop ≤ finish + 3 ∧
    ∀ next, Instruction.decode board.layout board.image finish
      (instructions.foldl Processor.advance processor) = .ok next → window.stop < next.stop

theorem fills_run {board : Board} {stop : Nat} (mapped : stop ≤ board.wiring.mappedSize)
    {count offset : Nat} (enough : stop - offset ≤ count) (inside : offset ≤ stop)
    (processor : Processor) :
    board.Fills processor ⟨offset, stop⟩ (board.run stop count offset processor) := by
  induction count generalizing offset processor with
  | zero =>
    have there : offset = stop := by omega
    subst there
    refine ⟨offset, .nil offset processor, inside, Nat.le_add_right _ _, fun next decoded => ?_⟩
    have here : offset ≤ next.offset := Nat.le_of_eq (Instruction.offset_of_decode decoded).symm
    exact Nat.lt_of_le_of_lt here next.offset_lt_stop
  | succ count inductionHypothesis =>
    rw [run]
    cases fetched : board.fetch? stop offset processor with
    | none =>
      have missing (next : Instruction) : board.fetch? stop offset processor ≠ some next := by
        rw [fetched]
        exact (Option.some_ne_none next).symm
      refine ⟨offset, .nil offset processor, inside, ?_, fun next decoded => ?_⟩
      · refine Nat.le_of_not_lt fun room => ?_
        obtain ⟨next, found⟩ := exists_fetch? (Nat.succ_le_of_lt room) mapped processor
        exact missing next found
      · refine Nat.lt_of_not_le fun fits => ?_
        exact missing next (fetch?_eq_some_iff.mpr ⟨decoded, fits⟩)
    | some instruction =>
      obtain ⟨decoded, fits⟩ := fetch?_eq_some_iff.mp fetched
      have progress := lt_stop_of_fetch? fetched
      obtain ⟨finish, follows, before, near, stuck⟩ :=
        inductionHypothesis (by omega) fits (processor.advance instruction)
      exact ⟨finish, .cons decoded follows, before, near, stuck⟩

theorem fills_sweep {board : Board} {window : Span} (order : window.start ≤ window.stop)
    (mapped : window.stop ≤ board.wiring.mappedSize) (processor : Processor) :
    board.Fills processor window (board.sweep window processor) := by
  have present : window.stop ≤ board.image.size := Nat.le_trans mapped (Nat.min_le_left _ _)
  rw [sweep_eq_run, Nat.min_eq_left present]
  exact fills_run mapped (Nat.le_refl _) order processor

/-! ### The windows of a listing -/

variable (board : Board) (span : Span)

/-- The end of the part of a span that has addresses. -/
def mappedStop : Nat :=
  min span.stop board.wiring.mappedSize

theorem partition_windows :
    Span.Partition span.start (board.windows span) (max span.start (board.mappedStop span)) :=
  Span.partition_pieces board.layout.bankSize_pos _ _

/-- A window ends where the bank of its start ends, or where the addresses of the span do. -/
theorem stop_of_mem_windows {window : Span} (member : window ∈ board.windows span) :
    window.stop = min (board.wiring.bankEnd window.start) (board.mappedStop span) := by
  have present : board.mappedStop span ≤ board.image.size :=
    Nat.le_trans (Nat.min_le_right _ _) (Nat.min_le_left _ _)
  rw [Span.stop_of_mem_pieces board.layout.bankSize_pos member, Wiring.bankEnd, Nat.min_assoc]
  exact congrArg _ (Nat.min_eq_right present).symm

/-- The windows of a span are those up to a multiple of the bank size and those from it on, even
if it lies behind the part of the span that has addresses. -/
theorem windows_append {start middle stop : Nat} (aligned : board.layout.bankSize ∣ middle)
    (first : start ≤ middle) (second : middle ≤ stop) :
    board.windows ⟨start, stop⟩ =
      board.windows ⟨start, middle⟩ ++ board.windows ⟨middle, stop⟩ := by
  rw [windows, windows, windows]
  rcases Nat.le_total middle board.wiring.mappedSize with inside | outside
  · rw [Nat.min_eq_left inside]
    exact Span.pieces_append board.layout.bankSize_pos aligned first
      (Nat.le_min.mpr ⟨second, inside⟩)
  · have behind : Span.pieces ⟨middle, board.wiring.mappedSize⟩ board.layout.bankSize = [] :=
      Span.pieces_of_empty outside _
    rw [Nat.min_eq_right outside, Nat.min_eq_right (Nat.le_trans outside second), behind,
      List.append_nil]

/-- A span and its part before the end of the addresses have the same windows. -/
theorem windows_clamp :
    board.windows (span.clamp board.wiring.mappedSize) = board.windows span := by
  rw [windows, windows, Span.clamp]
  rcases Nat.le_total span.start board.wiring.mappedSize with inside | outside
  · rw [Nat.min_eq_left inside, Nat.min_assoc, Nat.min_self]
  · have last : min span.stop board.wiring.mappedSize ≤ board.wiring.mappedSize :=
      Nat.min_le_right _ _
    rw [Span.pieces_of_empty, Span.pieces_of_empty]
    · exact Nat.le_trans last outside
    · rw [Nat.min_eq_right outside]
      exact Nat.min_le_right _ _

/-! ### Listings -/

variable (processor : Processor)

theorem fills_of_mem_windows {window : Span} (member : window ∈ board.windows span) :
    board.Fills processor window (board.sweep window processor) := by
  have order := ((board.partition_windows span).start_le_of_mem member).2
  refine fills_sweep (Nat.le_of_lt order) ?_ processor
  rw [board.stop_of_mem_windows span member]
  exact Nat.le_trans (Nat.min_le_right _ _) (Nat.min_le_right _ _)

/-- Every instruction of a listing ends at or before the start of the next. -/
theorem pairwise_listing :
    (board.listing span processor).Pairwise fun earlier later => earlier.stop ≤ later.offset := by
  rw [listing, List.pairwise_flatMap]
  constructor
  · intro window member
    obtain ⟨finish, unbroken, -⟩ := board.fills_of_mem_windows span processor member
    exact unbroken.pairwise
  · refine (board.partition_windows span).pairwise_stop_le.imp_of_mem ?_
    intro first second memberFirst memberSecond before earlier listed later listedLater
    obtain ⟨finish, unbroken, inside, -⟩ := board.fills_of_mem_windows span processor memberFirst
    obtain ⟨_, unbrokenLater, -⟩ := board.fills_of_mem_windows span processor memberSecond
    calc earlier.stop ≤ finish := (unbroken.bounds_of_mem listed).2
      _ ≤ first.stop := inside
      _ ≤ second.start := before
      _ ≤ later.offset := (unbrokenLater.bounds_of_mem listedLater).1

theorem listing_append {start middle stop : Nat} (aligned : board.layout.bankSize ∣ middle)
    (first : start ≤ middle) (second : middle ≤ stop) :
    board.listing ⟨start, stop⟩ processor =
      board.listing ⟨start, middle⟩ processor ++ board.listing ⟨middle, stop⟩ processor := by
  rw [listing, listing, listing, board.windows_append aligned first second, List.flatMap_append]

theorem listing_clamp : board.listing (span.clamp board.wiring.mappedSize) processor =
    board.listing span processor := by
  rw [listing, listing, board.windows_clamp span]

end Board

end Cartridge
