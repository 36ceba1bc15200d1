/-
This file says what a well-formed routine is and proves that every sound trace gives one.
Its instructions are ascending and do not overlap, the first stands at the start of the
routine and the last ends at its end; instructions and gaps together partition the
routine; the bytes of an instruction are those of the image; and the address is the
canonical one of the start.
-/

import Cartridge.Proofs.Partition
import Cartridge.Proofs.Trace

namespace Cartridge

/-! ### Instructions and gaps -/

/-- The offsets of an instruction. -/
def Instruction.span (instruction : Instruction) : Span :=
  ⟨instruction.offset, instruction.stop⟩

namespace Routine

/-- The spans of the instructions, followed by the gaps. -/
def pieces (routine : Routine) : List Span :=
  routine.instructions.map Instruction.span ++ routine.gaps

/-- The spans of instructions and of the gaps between them, in ascending order. -/
def sortedPieces : List Instruction → List Span
  | first :: second :: rest =>
    if first.stop < second.offset then
      first.span :: ⟨first.stop, second.offset⟩ :: sortedPieces (second :: rest)
    else first.span :: sortedPieces (second :: rest)
  | [last] => [last.span]
  | [] => []

theorem sortedPieces_perm (instructions : List Instruction) :
    (sortedPieces instructions).Perm
      (instructions.map Instruction.span ++ gapsBetween instructions) := by
  induction instructions with
  | nil => exact List.Perm.refl _
  | cons first rest inductionHypothesis =>
    cases rest with
    | nil => exact List.Perm.refl _
    | cons second rest =>
      rw [sortedPieces, gapsBetween, List.map_cons, List.cons_append]
      split
      · refine List.Perm.cons _ ?_
        exact (List.Perm.cons _ inductionHypothesis).trans List.perm_middle.symm
      · exact List.Perm.cons _ inductionHypothesis

/-- Instructions that follow one another without overlap, and the gaps between them, leave
nothing out from the first instruction to the last. -/
theorem partition_sortedPieces {first last : Instruction} {rest : List Instruction}
    (apart : (first :: rest).Pairwise fun earlier later => earlier.stop ≤ later.offset)
    (ends : (first :: rest).getLast? = some last) :
    Span.Partition first.offset (sortedPieces (first :: rest)) last.stop := by
  induction rest generalizing first with
  | nil =>
    obtain rfl : first = last := Option.some.inj ends
    exact .cons first.offset_lt_stop (.nil _)
  | cons second rest inductionHypothesis =>
    obtain ⟨before, apartRest⟩ := List.pairwise_cons.mp apart
    have follows := inductionHypothesis apartRest (by rwa [List.getLast?_cons_cons] at ends)
    have bounded := before second List.mem_cons_self
    rw [sortedPieces]
    split
    · rename_i gap
      exact .cons first.offset_lt_stop (.cons gap follows)
    · rename_i abut
      rw [show second.offset = first.stop by omega] at follows
      exact .cons first.offset_lt_stop follows

end Routine

/-! ### The bytes of an instruction -/

theorem Operand.byte?_of_read? {image : Image} {offset size : Nat} {operand : Operand}
    (read : read? image offset size = some operand) {index : Nat} (within : index < operand.size) :
    image.byte? (offset + index) = operand.bytes[index]? := by
  unfold read? at read
  split at read
  · obtain rfl := Option.some.inj read
    exact absurd within (Nat.not_lt_zero _)
  · obtain ⟨low, lowAt, made⟩ := Option.bind_eq_some_iff.mp read
    obtain rfl := Option.some.inj made
    match index, within with
    | 0, _ => exact lowAt
  · obtain ⟨low, lowAt, more⟩ := Option.bind_eq_some_iff.mp read
    obtain ⟨high, highAt, made⟩ := Option.bind_eq_some_iff.mp more
    obtain rfl := Option.some.inj made
    match index, within with
    | 0, _ => exact lowAt
    | 1, _ => exact highAt
  · obtain ⟨low, lowAt, more⟩ := Option.bind_eq_some_iff.mp read
    obtain ⟨high, highAt, most⟩ := Option.bind_eq_some_iff.mp more
    obtain ⟨bank, bankAt, made⟩ := Option.bind_eq_some_iff.mp most
    obtain rfl := Option.some.inj made
    match index, within with
    | 0, _ => exact lowAt
    | 1, _ => exact highAt
    | 2, _ => exact bankAt
  · exact nomatch read

theorem Instruction.byte?_of_decode {layout : Layout} {image : Image} {offset : Nat}
    {processor : Processor} {instruction : Instruction}
    (decoded : decode layout image offset processor = .ok instruction) {index : Nat}
    (within : index < instruction.size) :
    image.byte? (offset + index) = instruction.bytes[index]? := by
  obtain ⟨codeAt, -, operandAt, -, -⟩ := decode_eq_ok_iff.mp decoded
  rw [size] at within
  cases index with
  | zero => exact codeAt
  | succ index =>
    rw [bytes, List.getElem?_cons_succ, ← Operand.byte?_of_read? operandAt (by omega),
      Nat.add_assoc, Nat.add_comm 1]

/-- A decoded instruction holds the bytes of the image at its offset. -/
theorem Instruction.slice_of_decode {layout : Layout} {image : Image} {offset : Nat}
    {processor : Processor} {instruction : Instruction}
    (decoded : decode layout image offset processor = .ok instruction) :
    (image.slice instruction.offset instruction.stop).toList = instruction.bytes := by
  have length : instruction.bytes.length = instruction.size := by
    rw [bytes, List.length_cons, Operand.length_bytes, size, Nat.add_comm]
  rw [Image.slice, Array.toList_extract, List.extract_eq_take_drop, stop, Nat.add_sub_cancel_left,
    offset_of_decode decoded]
  refine List.ext_getElem? fun index => ?_
  rw [List.getElem?_take]
  split
  · rename_i within
    rw [List.getElem?_drop, Array.getElem?_toList]
    exact byte?_of_decode decoded within
  · rename_i past
    rw [List.getElem?_eq_none (by omega)]

/-! ### Well-formed routines -/

/-- A routine whose instructions, with the gaps between them, fill it from its start to its
end, inside a range of an image. -/
structure Routine.WellFormed (board : Board) (range : Span) (routine : Routine) : Prop where
  nonempty : routine.instructions ≠ []
  ascending : routine.instructions.Pairwise fun earlier later => earlier.offset < later.offset
  apart : routine.instructions.Pairwise fun earlier later => earlier.stop ≤ later.offset
  begins : routine.instructions.head?.map Instruction.offset = some routine.start
  ends : routine.instructions.getLast?.map Instruction.stop = some routine.stop
  pieces_disjoint : routine.pieces.Pairwise Span.Disjoint
  pieces_nonempty : ∀ piece ∈ routine.pieces, piece.start < piece.stop
  pieces_cover : ∀ offset, (∃ piece ∈ routine.pieces, piece.contains offset = true) ↔
    routine.start ≤ offset ∧ offset < routine.stop
  bytes : ∀ instruction ∈ routine.instructions,
    (board.image.slice instruction.offset instruction.stop).toList = instruction.bytes
  address : board.layout.address? routine.start = some routine.address
  inside : range.start ≤ routine.start ∧ routine.stop ≤ range.stop

namespace Trace

/-- The routine of a trace has the instructions of the trace, and the first of them gives it
its address. -/
theorem routine?_eq_some {trace : Trace} {routine : Routine}
    (found : trace.routine? = some routine) :
    routine.start = trace.entry.offset ∧ routine.entry = trace.entry.processor ∧
      routine.seed = trace.entry.seed ∧ routine.ending = trace.ending ∧
      routine.instructions = trace.tiling.instructions ∧
      ∃ first, trace.tiling.instructions.head? = some first ∧ routine.address = first.address := by
  obtain ⟨first, head, rfl⟩ := Option.map_eq_some_iff.mp found
  exact ⟨rfl, rfl, rfl, rfl, rfl, first, head, rfl⟩

/-- Control executes every instruction of the routine of a sound trace. -/
theorem Sound.executes_routine {scope : Scope} {trace : Trace} (sound : trace.Sound scope)
    {routine : Routine} (found : trace.routine? = some routine) {instruction : Instruction}
    (listed : instruction ∈ routine.instructions) :
    scope.Executes routine.start routine.entry instruction := by
  obtain ⟨start, entry, -, -, instructions, -⟩ := routine?_eq_some found
  rw [instructions] at listed
  obtain ⟨offset, look⟩ := Tiling.mem_instructions.mp listed
  rw [start, entry]
  exact sound.follows look

/-- The first instruction of the routine of a sound trace stands at the entry. -/
theorem Sound.offset_head {scope : Scope} {trace : Trace} (sound : trace.Sound scope)
    {first : Instruction} (head : trace.tiling.instructions.head? = some first) :
    first.offset = trace.entry.offset := by
  obtain ⟨offset, look⟩ := Tiling.mem_instructions.mp (List.mem_of_mem_head? head)
  obtain ⟨anchor, anchored⟩ := sound.anchored look
  rw [sound.orderly.head?_instructions anchored fun found => sound.entry_le found] at head
  rw [← Option.some.inj head]
  exact sound.orderly.keyed anchored

/-- Every routine that a sound trace inside the range gives is well-formed. -/
theorem Sound.wellFormed {scope : Scope} {trace : Trace} (sound : trace.Sound scope)
    (inRange : scope.range.contains trace.entry.offset = true) {routine : Routine}
    (found : trace.routine? = some routine) : routine.WellFormed scope.board scope.range := by
  obtain ⟨start, -, -, -, instructions, first, head, address⟩ := routine?_eq_some found
  have apart := sound.orderly.pairwise_instructions
  have here : first.offset = routine.start := (sound.offset_head head).trans start.symm
  rw [← instructions] at head apart
  obtain ⟨rest, list⟩ := List.head?_eq_some_iff.mp head
  obtain ⟨last, ends⟩ : ∃ last, routine.instructions.getLast? = some last := by
    rw [list]
    exact ⟨_, List.getLast?_eq_some_getLast (List.cons_ne_nil _ _)⟩
  have stop : routine.stop = last.stop := by rw [Routine.stop, ends]
  have partition : Span.Partition routine.start (Routine.sortedPieces routine.instructions)
      routine.stop := by
    rw [stop, ← here, list]
    rw [list] at apart ends
    exact Routine.partition_sortedPieces apart ends
  have sorted : (Routine.sortedPieces routine.instructions).Perm routine.pieces :=
    Routine.sortedPieces_perm _
  have decodes : ∀ instruction ∈ routine.instructions, ∃ processor,
      scope.Decodes routine.start instruction.offset processor instruction := by
    intro instruction listed
    obtain ⟨processor, -, decodes⟩ := sound.executes_routine found listed
    exact ⟨processor, decodes⟩
  obtain ⟨before, first_decodes⟩ := decodes first (List.mem_of_mem_head? head)
  obtain ⟨after, last_decodes⟩ := decodes last (List.mem_of_mem_getLast? ends)
  constructor
  · rw [list]
    exact List.cons_ne_nil _ _
  · exact apart.imp fun order => Nat.lt_of_lt_of_le (Instruction.offset_lt_stop _) order
  · exact apart
  · rw [head, Option.map_some, here]
  · rw [ends, Option.map_some, stop]
  · exact (sorted.pairwise_iff fun disjoint => disjoint.symm).mp partition.pairwise_disjoint
  · exact fun piece member => (partition.start_le_of_mem (sorted.mem_iff.mpr member)).2
  · intro offset
    rw [← partition.exists_contains_iff]
    exact exists_congr fun piece => and_congr_left fun _ => sorted.mem_iff.symm
  · intro instruction listed
    obtain ⟨processor, decodes⟩ := decodes instruction listed
    exact Instruction.slice_of_decode decodes.1
  · rw [address, ← here]
    exact (Instruction.decode_eq_ok_iff.mp first_decodes.1).2.1
  · rw [start, stop]
    exact ⟨((Span.contains_iff _ _).mp inRange).1,
      Nat.le_trans last_decodes.2 (Nat.min_le_right _ _)⟩

end Trace

end Cartridge
