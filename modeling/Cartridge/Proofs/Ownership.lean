/-
This file says what it takes that an instruction makes a transfer, and proves where the
transfers that a routine records come from. Every one of them is made by an instruction that
the trace of the routine passed. But passing an instruction is not keeping it: an instruction
that overlaps one placed before is displaced, and a cut drops those behind it. A transfer is
one of the routine's own instructions exactly if one that makes it was neither displaced nor
cut off.
-/

import Cartridge.Proofs.Counting
import Cartridge.Proofs.Flow

namespace Cartridge

/-! ### Transfers and their makers -/

/-- A transfer of control as a routine records it. -/
inductive Transfer where
  | call (address : Address)
  | jump (address : Address)
  /-- A transfer to an address outside the image. -/
  | unmapped (address : Address)
  /-- A transfer through a pointer, made at an offset. -/
  | unresolved (offset : Nat)
deriving DecidableEq

namespace Instruction

/-- The instruction calls an address. -/
def Calls (instruction : Instruction) (address : Address) : Prop :=
  instruction.flow = .call (some address)

/-- The instruction jumps or branches to an address. -/
def Jumps (instruction : Instruction) (address : Address) : Prop :=
  instruction.flow = .jump (some address) ∨ instruction.flow = .goto address ∨
    instruction.flow = .branch address

/-- The instruction calls or jumps through a pointer. -/
def UsesPointer (instruction : Instruction) : Prop :=
  instruction.flow = .call none ∨ instruction.flow = .jump none

end Instruction

namespace Transfer

/-- A routine records a transfer. -/
def RecordedBy (routine : Routine) : Transfer → Prop
  | call address => address ∈ routine.calls
  | jump address => address ∈ routine.jumps
  | unmapped address => address ∈ routine.unmapped
  | unresolved offset => offset ∈ routine.unresolved

/-- An instruction makes a transfer. -/
def MadeBy (instruction : Instruction) : Transfer → Prop
  | call address => instruction.Calls address
  | jump address => instruction.Jumps address
  | unmapped address => instruction.Calls address ∨ instruction.Jumps address
  | unresolved offset => instruction.offset = offset ∧ instruction.UsesPointer

/-- Whether the transfer leads to an address outside the image. -/
def isUnmapped : Transfer → Bool
  | unmapped _ => true
  | call _ | jump _ | unresolved _ => false

instance (routine : Routine) (transfer : Transfer) : Decidable (transfer.RecordedBy routine) :=
  match transfer with
  | call address => inferInstanceAs (Decidable (address ∈ routine.calls))
  | jump address => inferInstanceAs (Decidable (address ∈ routine.jumps))
  | unmapped address => inferInstanceAs (Decidable (address ∈ routine.unmapped))
  | unresolved offset => inferInstanceAs (Decidable (offset ∈ routine.unresolved))

instance (instruction : Instruction) (address : Address) :
    Decidable (instruction.Calls address) :=
  inferInstanceAs (Decidable (instruction.flow = .call (some address)))

instance (instruction : Instruction) (address : Address) :
    Decidable (instruction.Jumps address) :=
  inferInstanceAs (Decidable (_ ∨ _))

instance (instruction : Instruction) : Decidable instruction.UsesPointer :=
  inferInstanceAs (Decidable (_ ∨ _))

instance (instruction : Instruction) (transfer : Transfer) :
    Decidable (transfer.MadeBy instruction) :=
  match transfer with
  | call address => inferInstanceAs (Decidable (instruction.Calls address))
  | jump address => inferInstanceAs (Decidable (instruction.Jumps address))
  | unmapped _ => inferInstanceAs (Decidable (_ ∨ _))
  | unresolved _ => inferInstanceAs (Decidable (_ ∧ _))

/-- What an instruction makes, another one at the same offset with the same flow makes, too. -/
theorem MadeBy.congr {transfer : Transfer} {first second : Instruction}
    (made : transfer.MadeBy first) (here : second.offset = first.offset)
    (flow : second.flow = first.flow) : transfer.MadeBy second := by
  cases transfer <;>
    simpa only [MadeBy, Instruction.Calls, Instruction.Jumps, Instruction.UsesPointer, here, flow]
      using made

end Transfer

/-! ### The targets of a walk -/

namespace Walk

variable {wiring : Wiring} {walk : Walk} {target : Target}

theorem exists_maker_of_call (member : target ∈ walk.calls wiring) :
    ∃ maker ∈ walk.instructions, maker.offset = target.source ∧ maker.Calls target.address := by
  obtain ⟨step, taken, made⟩ := List.mem_filterMap.mp member
  unfold Step.call? at made
  split at made
  · rename_i leaves
    obtain rfl := Option.some.inj made
    exact ⟨step.instruction, List.mem_map_of_mem taken, rfl, leaves⟩
  · exact nomatch made

theorem exists_maker_of_jump (member : target ∈ walk.jumps wiring) :
    ∃ maker ∈ walk.instructions, maker.offset = target.source ∧ maker.Jumps target.address := by
  obtain ⟨step, taken, made⟩ := List.mem_filterMap.mp member
  unfold Step.jump? at made
  split at made
  · rename_i leaves
    obtain rfl := Option.some.inj made
    exact ⟨step.instruction, List.mem_map_of_mem taken, rfl, Or.inl leaves⟩
  · exact nomatch made

theorem exists_maker_of_branch (member : target ∈ walk.branches wiring) :
    ∃ maker ∈ walk.instructions, maker.offset = target.source ∧ maker.Jumps target.address := by
  obtain ⟨step, taken, address, leaves, rfl⟩ := mem_branches.mp member
  exact ⟨step.instruction, List.mem_map_of_mem taken, rfl, Or.inr leaves.symm⟩

theorem exists_maker_of_unresolved {offset : Nat} (member : offset ∈ walk.unresolved) :
    ∃ maker ∈ walk.instructions, maker.offset = offset ∧ maker.UsesPointer := by
  obtain ⟨step, taken, made⟩ := List.mem_filterMap.mp member
  unfold Step.unresolved? at made
  split at made
  · rename_i leaves
    exact ⟨step.instruction, List.mem_map_of_mem taken, Option.some.inj made, Or.inl leaves⟩
  · rename_i leaves
    exact ⟨step.instruction, List.mem_map_of_mem taken, Option.some.inj made, Or.inr leaves⟩
  · exact nomatch made

end Walk

theorem Target.mem_missing {targets : List Target} {address : Address}
    (member : address ∈ missing targets) : ∃ target ∈ targets, target.address = address := by
  obtain ⟨target, listed, made⟩ := List.mem_filterMap.mp member
  refine ⟨target, listed, ?_⟩
  split at made
  · exact nomatch made
  · exact Option.some.inj made

/-! ### The transfers of a trace -/

namespace Trace

/-- Everything that a trace records is made by one of some instructions; unless it is that an
address lies outside the image, by one of the `kept` instructions among them. -/
structure Owes (kept makers : List Instruction) (trace : Trace) : Prop where
  calls : ∀ target ∈ trace.calls,
    ∃ maker ∈ kept, maker.offset = target.source ∧ maker.Calls target.address
  jumps : ∀ target ∈ trace.jumps,
    ∃ maker ∈ kept, maker.offset = target.source ∧ maker.Jumps target.address
  unmapped : ∀ address ∈ trace.unmapped,
    ∃ maker ∈ makers, maker.Calls address ∨ maker.Jumps address
  unresolved : ∀ offset ∈ trace.unresolved,
    ∃ maker ∈ kept, maker.offset = offset ∧ maker.UsesPointer

namespace Owes

variable {scope : Scope} {trace : Trace} {makers : List Instruction}

theorem absorbSteps (owes : trace.Owes makers makers) {walk : Walk}
    (known : walk.instructions ⊆ makers) : (trace.absorbSteps walk).Owes makers makers := by
  refine ⟨owes.calls, owes.jumps, owes.unmapped, fun offset member => ?_⟩
  rcases List.mem_append.mp member with old | new
  · exact owes.unresolved offset old
  · obtain ⟨maker, listed, made⟩ := Walk.exists_maker_of_unresolved new
    exact ⟨maker, known listed, made⟩

theorem absorbTargets (owes : trace.Owes makers makers) {walk : Walk}
    (known : walk.instructions ⊆ makers) :
    (trace.absorbTargets scope walk).Owes makers makers := by
  refine ⟨fun target member => ?_, fun target member => ?_, fun address member => ?_,
    owes.unresolved⟩
  · rcases List.mem_append.mp member with old | new
    · exact owes.calls target old
    · obtain ⟨maker, listed, made⟩ := Walk.exists_maker_of_call new
      exact ⟨maker, known listed, made⟩
  · rcases List.mem_append.mp member with old | new
    · exact owes.jumps target old
    · rcases List.mem_append.mp new with jumped | left
      · obtain ⟨maker, listed, made⟩ := Walk.exists_maker_of_jump jumped
        exact ⟨maker, known listed, made⟩
      · obtain ⟨maker, listed, made⟩ := Walk.exists_maker_of_branch (List.mem_filter.mp left).1
        exact ⟨maker, known listed, made⟩
  · rcases List.mem_append.mp member with old | new
    · exact owes.unmapped address old
    · obtain ⟨target, among, rfl⟩ := Target.mem_missing new
      rw [List.append_assoc] at among
      rcases List.mem_append.mp among with called | among
      · obtain ⟨maker, listed, -, made⟩ := Walk.exists_maker_of_call called
        exact ⟨maker, known listed, Or.inl made⟩
      · rcases List.mem_append.mp among with jumped | branched
        · obtain ⟨maker, listed, -, made⟩ := Walk.exists_maker_of_jump jumped
          exact ⟨maker, known listed, Or.inr made⟩
        · obtain ⟨maker, listed, -, made⟩ := Walk.exists_maker_of_branch branched
          exact ⟨maker, known listed, Or.inr made⟩

theorem absorb (owes : trace.Owes makers makers) {walk : Walk}
    (known : walk.instructions ⊆ makers) : (trace.absorb scope walk).Owes makers makers := by
  unfold Trace.absorb
  split
  · exact (owes.absorbSteps known).absorbTargets known
  · exact owes.absorbSteps known

theorem foldl_absorb (owes : trace.Owes makers makers) {walks : List Walk}
    (known : ∀ walk ∈ walks, walk.instructions ⊆ makers) :
    (walks.foldl (Trace.absorb scope) trace).Owes makers makers := by
  induction walks generalizing trace with
  | nil => exact owes
  | cons walk rest inductionHypothesis =>
    exact inductionHypothesis (owes.absorb (known walk List.mem_cons_self))
      fun other later => known other (List.mem_cons_of_mem _ later)

/-- A cut looks at where a transfer is made, except for the addresses outside the image: these
all stay. -/
theorem cut (owes : trace.Owes makers makers) {count bound : Nat}
    (last : trace.tiling.keys[count]? = some bound) :
    (trace.cut count).Owes (makers.filter fun maker => maker.offset < bound) makers := by
  have kept : ∀ {maker : Instruction}, maker ∈ makers → maker.offset < bound →
      maker ∈ makers.filter fun maker => maker.offset < bound :=
    fun listed before => List.mem_filter.mpr ⟨listed, decide_eq_true before⟩
  rw [Trace.cut, last]
  constructor
  · intro target member
    obtain ⟨old, before⟩ := List.mem_filter.mp member
    obtain ⟨maker, listed, here, made⟩ := owes.calls target old
    exact ⟨maker, kept listed (here ▸ of_decide_eq_true before), here, made⟩
  · intro target member
    obtain ⟨old, before⟩ := List.mem_filter.mp member
    obtain ⟨maker, listed, here, made⟩ := owes.jumps target old
    exact ⟨maker, kept listed (here ▸ of_decide_eq_true before), here, made⟩
  · exact owes.unmapped
  · intro offset member
    obtain ⟨old, before⟩ := List.mem_filter.mp member
    obtain ⟨maker, listed, here, made⟩ := owes.unresolved offset old
    exact ⟨maker, kept listed (here ▸ of_decide_eq_true before), here, made⟩

/-- What the routine of a trace records is made by one of the instructions. -/
theorem exists_maker {kept : List Instruction} (owes : trace.Owes kept makers)
    (subset : kept ⊆ makers) {routine : Routine} (found : trace.routine? = some routine)
    {transfer : Transfer} (recorded : transfer.RecordedBy routine) :
    ∃ maker ∈ makers, transfer.MadeBy maker ∧
      (transfer.isUnmapped = false → maker ∈ kept) := by
  obtain ⟨first, -, rfl⟩ := Option.map_eq_some_iff.mp found
  cases transfer with
  | call address =>
    obtain ⟨target, listed, rfl⟩ := List.mem_map.mp (mem_ascending.mp recorded)
    obtain ⟨maker, member, -, made⟩ := owes.calls target listed
    exact ⟨maker, subset member, made, fun _ => member⟩
  | jump address =>
    obtain ⟨target, listed, rfl⟩ := List.mem_map.mp (mem_ascending.mp recorded)
    obtain ⟨maker, member, -, made⟩ := owes.jumps target listed
    exact ⟨maker, subset member, made, fun _ => member⟩
  | unmapped address =>
    obtain ⟨maker, member, made⟩ := owes.unmapped address (mem_ascending.mp recorded)
    exact ⟨maker, member, made, fun mapped => nomatch mapped⟩
  | unresolved offset =>
    obtain ⟨maker, member, made⟩ := owes.unresolved offset (mem_ascending.mp recorded)
    exact ⟨maker, subset member, made, fun _ => member⟩

end Owes

/-- Everything that a trace records is made by an instruction that it passes. -/
theorem owes_run (scope : Scope) (entry : Entry) :
    (run scope entry).Owes (passed scope entry) (passed scope entry) := by
  rw [run_eq_after]
  refine Owes.foldl_absorb ?_ fun walk member instruction listed =>
    List.mem_flatMap.mpr ⟨walk, member, listed⟩
  constructor <;> exact fun _ member => absurd member List.not_mem_nil

end Trace

/-! ### Displaced instructions -/

namespace Routine

/-- An instruction has no place in a routine because it overlaps one at another offset. -/
def Displaces (routine : Routine) (instruction : Instruction) : Prop :=
  ∃ other ∈ routine.instructions,
    other.offset ≠ instruction.offset ∧ Tiling.Clash other instruction

theorem offset_lt_stop_of_mem {routine : Routine} {instruction : Instruction}
    (apart : routine.instructions.Pairwise fun earlier later => earlier.stop ≤ later.offset)
    (member : instruction ∈ routine.instructions) : instruction.offset < routine.stop := by
  obtain ⟨earlier, last, list⟩ := (List.eq_nil_or_concat routine.instructions).resolve_left
    (List.ne_nil_of_mem member)
  rw [List.concat_eq_append] at list
  have ends : routine.stop = last.stop := by
    rw [stop, list, List.getLast?_concat]
  rw [ends]
  rw [list] at apart member
  rcases List.mem_append.mp member with before | final
  · have touches := (List.pairwise_append.mp apart).2.2 instruction before last
      (List.mem_singleton_self last)
    exact Nat.lt_of_lt_of_le instruction.offset_lt_stop
      (Nat.le_trans touches (Nat.le_of_lt last.offset_lt_stop))
  · rw [List.mem_singleton.mp final]
    exact last.offset_lt_stop

/-- A routine that begins another one has all of its instructions before its own end. -/
theorem mem_of_offset_lt_stop {routine whole : Routine}
    (apart : whole.instructions.Pairwise fun earlier later => earlier.stop ≤ later.offset)
    (some : routine.instructions ≠ []) (begins : routine.instructions <+: whole.instructions)
    {instruction : Instruction} (member : instruction ∈ whole.instructions)
    (before : instruction.offset < routine.stop) : instruction ∈ routine.instructions := by
  obtain ⟨rest, list⟩ := begins
  rw [← list] at apart member
  refine (List.mem_append.mp member).resolve_right fun behind => ?_
  obtain ⟨last, ends⟩ := Option.isSome_iff_exists.mp (List.getLast?_isSome.mpr some)
  have touches := (List.pairwise_append.mp apart).2.2 last (List.mem_of_getLast? ends)
    instruction behind
  rw [stop, ends] at before
  exact Nat.not_lt_of_le touches before

end Routine

namespace Trace

variable {scope : Scope} {entry : Entry} {whole : Routine} {instruction : Instruction}

theorem not_displaces_of_mem (found : (run scope entry).routine? = some whole)
    (member : instruction ∈ whole.instructions) : ¬ whole.Displaces instruction := by
  rintro ⟨other, listed, elsewhere, before, after⟩
  obtain ⟨-, -, -, -, instructions, -⟩ := routine?_eq_some found
  rw [instructions] at member listed
  have orderly := orderly_run scope entry
  obtain ⟨offset, look⟩ := Tiling.mem_instructions.mp member
  obtain ⟨place, lookOther⟩ := Tiling.mem_instructions.mp listed
  rw [← orderly.keyed look] at look
  rw [← orderly.keyed lookOther] at lookOther
  rcases Nat.lt_or_gt_of_ne elsewhere with first | second
  · exact Nat.not_lt_of_le (orderly.apart lookOther look first) after
  · exact Nat.not_lt_of_le (orderly.apart look lookOther second) before

/-- Where an instruction that a trace passes is not displaced, one with the same flow stands. -/
theorem exists_standing (found : (run scope entry).routine? = some whole)
    (member : instruction ∈ passed scope entry) (free : ¬ whole.Displaces instruction) :
    ∃ standing ∈ whole.instructions,
      standing.offset = instruction.offset ∧ standing.flow = instruction.flow := by
  obtain ⟨-, -, -, -, instructions, -⟩ := routine?_eq_some found
  obtain ⟨offset, placed, look, clash⟩ := Tiling.exists_clash_of_mem Tiling.orderly_empty member
  rw [← tiling_run] at look
  have listed : placed ∈ (run scope entry).tiling.instructions :=
    Tiling.mem_instructions.mpr ⟨offset, look⟩
  have here : placed.offset = instruction.offset := by
    by_contra elsewhere
    exact free ⟨placed, instructions ▸ listed, elsewhere, clash⟩
  obtain ⟨processor, decoded⟩ := exists_decode_of_mem_passed member
  obtain ⟨other, decodedPlaced⟩ := exists_decode_of_mem_passed
    (mem_passed_of_mem_instructions listed)
  rw [here] at decodedPlaced
  exact ⟨placed, instructions ▸ listed, here,
    Instruction.flow_eq_of_decode decodedPlaced decoded⟩

/-- What the routine of a trace records is made by an instruction that the trace passed. Unless
it is that an address lies outside the image, a cut has not dropped what stands there. -/
theorem Taken.exists_maker {trace : Trace} (taken : trace.Taken scope) {routine : Routine}
    (found : trace.routine? = some routine) {transfer : Transfer}
    (recorded : transfer.RecordedBy routine) :
    ∃ maker ∈ passed scope routine.origin, transfer.MadeBy maker ∧
      (transfer.isUnmapped = false →
        ∀ standing ∈ (run scope routine.origin).tiling.instructions,
          standing.offset = maker.offset → standing ∈ routine.instructions) := by
  obtain ⟨start, processor, seed, -, instructions, -⟩ := routine?_eq_some found
  rw [Routine.origin, start, processor, seed, instructions]
  cases taken with
  | whole entry =>
    rw [entry_run]
    obtain ⟨maker, passes, made, -⟩ :=
      (owes_run scope entry).exists_maker (List.Subset.refl _) found recorded
    exact ⟨maker, passes, made, fun _ standing listed _ => listed⟩
  | @part entry count positive =>
    rw [entry_cut, entry_run]
    cases last : (run scope entry).tiling.keys[count]? with
    | none =>
      have uncut : (run scope entry).cut count = run scope entry := by rw [cut, last]
      rw [uncut] at found ⊢
      obtain ⟨maker, passes, made, -⟩ :=
        (owes_run scope entry).exists_maker (List.Subset.refl _) found recorded
      exact ⟨maker, passes, made, fun _ standing listed _ => listed⟩
    | some bound =>
      obtain ⟨maker, passes, made, near⟩ := ((owes_run scope entry).cut last).exists_maker
        (List.filter_subset_self _) found recorded
      refine ⟨maker, passes, made, fun mapped standing listed here => ?_⟩
      have before := of_decide_eq_true (List.mem_filter.mp (near mapped)).2
      obtain ⟨offset, look⟩ := Tiling.mem_instructions.mp listed
      refine Tiling.mem_instructions.mpr ⟨offset, ?_⟩
      rw [getElem?_cut_of_some last, look, ← (orderly_run scope entry).keyed look, here,
        Option.filter_some, if_pos (decide_eq_true before)]

end Trace

end Cartridge
