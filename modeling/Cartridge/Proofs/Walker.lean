/-
This file says exactly what a walk is, without following one. Its instructions stand one behind
the other from the start, each decoded under the state that those before it leave behind; they
keep to the window and to the limit, and none but the last ends straight-line code. The last
instruction and the number of instructions tell how the walk ends, and a walk that is truncated
can go no further than it went. What a walk records is read off its instructions and the states
behind them. There is one walk of which all this is true, and a walker takes it.

The decoder of a walker may have been made for an image of another length. Then the last bank
ends there, and there ends what the decoder finds of the image on the bus.
-/

import Cartridge.Proofs.Listing
import Cartridge.Proofs.Reachability

namespace Cartridge

/-! ### Walkers -/

/-- An image with a decoder for it, and how far to walk. -/
structure Walker where
  image : Image
  /-- The layout of the decoder, and the length of the image that it was made for. -/
  wiring : Wiring
  /-- The most instructions of a walk. -/
  limit : Nat
  /-- An offset that counts as the end of the image, if there is one. -/
  bound : Option Nat

namespace Walker

variable (walker : Walker)

/-- The board from which the walker fetches its instructions. -/
def board : Board :=
  ⟨walker.wiring.layout, walker.image⟩

/-- The end of the window of a walk: that of the bank of its start, of the image, or the bound,
whichever comes first. -/
def windowEnd (start : Nat) : Nat :=
  match walker.bound with
  | some bound => min (min (walker.wiring.bankEnd start) bound) walker.image.size
  | none => min (walker.wiring.bankEnd start) walker.image.size

/-- Walks from a start. -/
def walk (start : Nat) (processor : Processor) : Walk :=
  let taken := walker.board.follow (walker.windowEnd start) walker.limit start processor []
  ⟨start, processor, taken.1, taken.2⟩

theorem walk_eq_path (start : Nat) (processor : Processor) :
    walker.walk start processor = ⟨start, processor,
      (walker.board.path (walker.windowEnd start) walker.limit start processor).1,
      (walker.board.path (walker.windowEnd start) walker.limit start processor).2⟩ := by
  simp [walk, Board.follow_eq_path]

end Walker

/-- The walks of a board are those of a walker whose decoder was made for its image. -/
theorem Board.walk_eq_walker (board : Board) (limit : Nat) (bound : Option Nat) (start : Nat)
    (processor : Processor) :
    board.walk limit bound start processor =
      Walker.walk ⟨board.image, board.wiring, limit, bound⟩ start processor := by
  have inside : board.wiring.bankEnd start ≤ board.image.size := Nat.min_le_right _ _
  have window : Walker.windowEnd ⟨board.image, board.wiring, limit, bound⟩ start =
      board.windowEnd bound start := by
    cases bound with
    | none => exact Nat.min_eq_left inside
    | some bound => exact Nat.min_eq_left (Nat.le_trans (Nat.min_le_left _ _) inside)
  rw [Walker.walk, window]
  rfl

/-! ### Trails -/

/-- The first offset behind instructions that stand one behind the other from a start. -/
def Instruction.finish (start : Nat) (instructions : List Instruction) : Nat :=
  instructions.foldl (fun _ instruction => instruction.stop) start

namespace Processor

/-- The steps that take instructions one after the other from a state. -/
def trail : Processor → List Instruction → List Step
  | _, [] => []
  | processor, instruction :: rest =>
    ⟨instruction, processor.advance instruction⟩ ::
      trail (processor.advance instruction) rest

theorem map_instruction_trail (processor : Processor) (instructions : List Instruction) :
    (processor.trail instructions).map Step.instruction = instructions := by
  induction instructions generalizing processor with
  | nil => rfl
  | cons instruction rest inductionHypothesis =>
    rw [trail, List.map_cons, inductionHypothesis]

end Processor

namespace Walk

/-- The walk that takes instructions one after the other. -/
def along (start : Nat) (entry : Processor) (instructions : List Instruction) (ending : Ending) :
    Walk :=
  ⟨start, entry, entry.trail instructions, ending⟩

variable (start : Nat) (entry : Processor) (instructions : List Instruction) (ending : Ending)

theorem instructions_along : (along start entry instructions ending).instructions = instructions :=
  entry.map_instruction_trail instructions

theorem stop_along :
    (along start entry instructions ending).stop = Instruction.finish start instructions := by
  induction instructions generalizing start entry with
  | nil => rfl
  | cons instruction rest inductionHypothesis =>
    rw [Instruction.finish, List.foldl_cons, ← Instruction.finish,
      ← inductionHypothesis instruction.stop (entry.advance instruction)]
    simp only [stop, along, Processor.trail, List.getLast?_cons]
    cases ((entry.advance instruction).trail rest).getLast? <;> rfl

theorem exit_along : (along start entry instructions ending).exit =
    instructions.foldl Processor.advance entry := by
  induction instructions generalizing start entry with
  | nil => rfl
  | cons instruction rest inductionHypothesis =>
    rw [List.foldl_cons, ← inductionHypothesis start (entry.advance instruction)]
    simp only [exit, along, Processor.trail, List.getLast?_cons]
    cases ((entry.advance instruction).trail rest).getLast? <;> rfl

/-- A walk is the one along its instructions if its steps are their trail. -/
theorem eq_along {walk : Walk} (steps : walk.steps = walk.entry.trail walk.instructions) :
    walk = along walk.start walk.entry walk.instructions walk.ending := by
  rw [along, ← steps]

theorem stop_of_steps {walk : Walk} (steps : walk.steps = walk.entry.trail walk.instructions) :
    walk.stop = Instruction.finish walk.start walk.instructions := by
  rw [eq_along steps, stop_along, instructions_along]
  rfl

theorem exit_of_steps {walk : Walk} (steps : walk.steps = walk.entry.trail walk.instructions) :
    walk.exit = walk.instructions.foldl Processor.advance walk.entry := by
  rw [eq_along steps, exit_along, instructions_along]
  rfl

end Walk

/-! ### What brings a walk to its end -/

namespace Flow

theorem ending?_eq_returned_iff (flow : Flow) :
    flow.ending? = some .returned ↔ flow = .leave ∨ flow = .halt := by
  cases flow <;> simp [ending?]

theorem ending?_eq_jumped_iff (flow : Flow) : flow.ending? = some .jumped ↔
    (∃ target, flow = .goto target) ∨ ∃ target, flow = .jump target := by
  cases flow <;> simp [ending?]

/-- An instruction ends a walk on a return or a jump only. -/
theorem isConfident_of_ending? {flow : Flow} {ending : Ending}
    (ends : flow.ending? = some ending) : ending.isConfident = true := by
  cases flow <;> simp [ending?] at ends <;> rw [← ends] <;> rfl

end Flow

namespace Ending

/-- How instructions bring a walk to its end: by the flow of the last one, or else by the limit,
if there are as many of them as allowed. -/
def of (limit : Nat) (instructions : List Instruction) : Ending :=
  match instructions.getLast?.bind fun last => last.flow.ending? with
  | some ending => ending
  | none => if instructions.length = limit then .limited else .truncated

variable {limit : Nat} {instructions : List Instruction}

theorem of_eq_iff_of_isConfident {ending : Ending} (confident : ending.isConfident = true) :
    of limit instructions = ending ↔
      ∃ last, instructions.getLast? = some last ∧ last.flow.ending? = some ending := by
  rw [← Option.bind_eq_some_iff, of]
  cases instructions.getLast?.bind fun last => last.flow.ending? with
  | some other => simp
  | none =>
    have doubtful :
        (if instructions.length = limit then Ending.limited else .truncated) ≠ ending := by
      split
      all_goals
        rintro rfl
        exact Bool.false_ne_true confident
    simpa using doubtful

theorem of_eq_returned_iff : of limit instructions = .returned ↔
    ∃ last, instructions.getLast? = some last ∧ (last.flow = .leave ∨ last.flow = .halt) := by
  rw [of_eq_iff_of_isConfident rfl]
  simp only [Flow.ending?_eq_returned_iff]

theorem of_eq_jumped_iff : of limit instructions = .jumped ↔
    ∃ last, instructions.getLast? = some last ∧
      ((∃ target, last.flow = .goto target) ∨ ∃ target, last.flow = .jump target) := by
  rw [of_eq_iff_of_isConfident rfl]
  simp only [Flow.ending?_eq_jumped_iff]

theorem of_eq_limited_iff : of limit instructions = .limited ↔
    (∀ last, instructions.getLast? = some last → last.flow.ending? = none) ∧
      instructions.length = limit := by
  rw [← Option.bind_eq_none_iff, of]
  cases ends : instructions.getLast?.bind fun last => last.flow.ending? with
  | some other =>
    obtain ⟨last, -, leaves⟩ := Option.bind_eq_some_iff.mp ends
    have confident := Flow.isConfident_of_ending? leaves
    simp only [reduceCtorEq, false_and, iff_false]
    rintro rfl
    exact Bool.false_ne_true confident
  | none => split <;> simp_all

theorem of_singleton {instruction : Instruction} {ending : Ending}
    (ends : instruction.flow.ending? = some ending) : of limit [instruction] = ending :=
  (of_eq_iff_of_isConfident (Flow.isConfident_of_ending? ends)).mpr ⟨instruction, rfl, ends⟩

/-- An instruction that control falls through leaves the end to those behind it. -/
theorem of_cons {instruction : Instruction} (falls : instruction.flow.ending? = none)
    (rest : List Instruction) : of (limit + 1) (instruction :: rest) = of limit rest := by
  rw [of, of, List.getLast?_cons, List.length_cons]
  cases rest.getLast? <;> simp [falls]

/-- Where control falls through all instructions but the last, it falls through all if it falls
through the last. -/
theorem of_eq_limited_iff_of_straight
    (straight : ∀ instruction ∈ instructions.dropLast, instruction.flow.isTerminator = false) :
    of limit instructions = .limited ↔
      (∀ instruction ∈ instructions, instruction.flow.isTerminator = false) ∧
        instructions.length = limit := by
  rw [of_eq_limited_iff]
  refine and_congr_left fun _ => ?_
  rcases List.eq_nil_or_concat instructions with rfl | ⟨initial, final, rfl⟩
  · simp
  · rw [List.concat_eq_append, List.dropLast_concat] at straight
    simp only [List.concat_eq_append, List.getLast?_concat, Option.some.injEq, forall_eq',
      Flow.ending?_eq_none_iff, List.forall_mem_append, List.forall_mem_singleton]
    exact ⟨fun falls => ⟨straight, falls⟩, fun falls => falls.2⟩

/-- Two ways to end that agree on the first three agree on the fourth. -/
theorem eq_of_iff {first second : Ending} (returned : first = .returned ↔ second = .returned)
    (jumped : first = .jumped ↔ second = .jumped)
    (limited : first = .limited ↔ second = .limited) : first = second := by
  cases first <;> cases second <;> simp_all

end Ending

/-! ### The course of a path -/

namespace Board

/-- A fetch fails where nothing decodes, or what does runs past the window. -/
theorem fetch?_eq_none_iff {board : Board} {stop offset : Nat} {processor : Processor} :
    board.fetch? stop offset processor = none ↔
      ∀ next, Instruction.decode board.layout board.image offset processor = .ok next →
        stop < next.stop := by
  rw [Option.eq_none_iff_forall_ne_some]
  refine forall_congr' fun next => ?_
  rw [ne_eq, fetch?_eq_some_iff, not_and, Nat.not_le]

/-- Instructions are those of a path that ends in a given way: they follow one another inside
the window and within the limit, none but the last leads away from them, and they are as many
as can be. -/
structure Course (board : Board) (stop limit offset : Nat) (processor : Processor)
    (instructions : List Instruction) (ending : Ending) : Prop where
  unbroken : board.Unbroken offset processor instructions
    (Instruction.finish offset instructions)
  inside : ∀ instruction ∈ instructions, instruction.stop ≤ stop
  limited : instructions.length ≤ limit
  straight : ∀ instruction ∈ instructions.dropLast, instruction.flow.ending? = none
  ends : ending = .of limit instructions
  stuck : ending = .truncated → board.fetch? stop (Instruction.finish offset instructions)
    (instructions.foldl Processor.advance processor) = none

variable {board : Board} {stop limit offset : Nat} {processor : Processor}
  {instruction : Instruction} {rest : List Instruction} {ending : Ending}

theorem course_nil_iff : board.Course stop limit offset processor [] ending ↔
    board.path stop limit offset processor = ([], ending) := by
  cases limit with
  | zero =>
    constructor
    · rintro ⟨-, -, -, -, rfl, -⟩
      rfl
    · intro ends
      obtain rfl : Ending.limited = ending := (Prod.mk.inj ends).2
      exact ⟨.nil _ _, by simp, Nat.le_refl 0, by simp, rfl, by simp⟩
  | succ limit =>
    rw [path]
    constructor
    · rintro ⟨-, -, -, -, rfl, stuck⟩
      rw [show board.fetch? stop offset processor = none from stuck rfl]
      rfl
    · intro ends
      cases fetched : board.fetch? stop offset processor with
      | none =>
        rw [fetched] at ends
        obtain rfl : Ending.truncated = ending := (Prod.mk.inj ends).2
        exact ⟨.nil _ _, by simp, Nat.zero_le _, by simp, rfl, fun _ => fetched⟩
      | some instruction =>
        rw [fetched] at ends
        cases leaves : instruction.flow.ending? <;> simp [leaves] at ends

theorem Course.fetch?_eq_some
    (course : board.Course stop limit offset processor (instruction :: rest) ending) :
    board.fetch? stop offset processor = some instruction := by
  cases course.unbroken with
  | cons decoded follows =>
    exact fetch?_eq_some_iff.mpr ⟨decoded, course.inside _ List.mem_cons_self⟩

/-- A course ends with an instruction that leads away. -/
theorem course_cons_iff_of_ends (leaves : instruction.flow.ending? = some ending)
    (fetched : board.fetch? stop offset processor = some instruction) {other : Ending} :
    board.Course stop (limit + 1) offset processor (instruction :: rest) other ↔
      rest = [] ∧ other = ending := by
  constructor
  · intro course
    have last : rest = [] := by
      cases rest with
      | nil => rfl
      | cons second later =>
        have falls := course.straight instruction (by simp)
        rw [leaves] at falls
        exact absurd falls (Option.some_ne_none _)
    subst last
    exact ⟨rfl, course.ends.trans (Ending.of_singleton leaves)⟩
  · rintro ⟨rfl, rfl⟩
    obtain ⟨decoded, fits⟩ := fetch?_eq_some_iff.mp fetched
    have confident := Flow.isConfident_of_ending? leaves
    refine ⟨.cons decoded (.nil _ _), by simpa using fits, Nat.le_add_left 1 limit, by simp,
      (Ending.of_singleton leaves).symm, ?_⟩
    rintro rfl
    exact absurd confident Bool.false_ne_true

/-- A course goes on behind an instruction that control falls through. -/
theorem course_cons_iff_of_falls (falls : instruction.flow.ending? = none)
    (fetched : board.fetch? stop offset processor = some instruction) :
    board.Course stop (limit + 1) offset processor (instruction :: rest) ending ↔
      board.Course stop limit instruction.stop (processor.advance instruction) rest ending := by
  have straight : (∀ other ∈ (instruction :: rest).dropLast, other.flow.ending? = none) ↔
      ∀ other ∈ rest.dropLast, other.flow.ending? = none := by
    cases rest <;> simp [falls]
  obtain ⟨decoded, fits⟩ := fetch?_eq_some_iff.mp fetched
  constructor
  · rintro ⟨unbroken, inside, limited, alongside, ends, stuck⟩
    cases unbroken with
    | cons _ follows =>
      exact ⟨follows, fun other member => inside other (List.mem_cons_of_mem _ member),
        Nat.le_of_succ_le_succ limited, straight.mp alongside, ends.trans (Ending.of_cons falls _),
        stuck⟩
  · rintro ⟨unbroken, inside, limited, alongside, ends, stuck⟩
    exact ⟨.cons decoded unbroken, List.forall_mem_cons.mpr ⟨fits, inside⟩,
      Nat.succ_le_succ limited, straight.mpr alongside,
      ends.trans (Ending.of_cons falls _).symm, stuck⟩

/-- The steps of a path are the trail of its instructions. -/
theorem steps_path_eq_trail (board : Board) (stop limit offset : Nat) (processor : Processor) :
    (board.path stop limit offset processor).1 = processor.trail
      ((board.path stop limit offset processor).1.map Step.instruction) := by
  fun_induction path board stop limit offset processor with
  | case1 => rfl
  | case2 => rfl
  | case3 => rfl
  | case4 limit offset processor instruction fetched step falls rest inductionHypothesis =>
    rw [List.map_cons, Processor.trail, ← inductionHypothesis]

theorem fetch?_eq_some_of_path {step : Step} {steps : List Step}
    (takes : (board.path stop limit offset processor).1 = step :: steps) :
    board.fetch? stop offset processor = some step.instruction := by
  cases limit with
  | zero => exact absurd takes (List.cons_ne_nil _ _).symm
  | succ limit =>
    rw [path] at takes
    cases fetched : board.fetch? stop offset processor with
    | none => simp [fetched] at takes
    | some instruction =>
      cases leaves : instruction.flow.ending? <;>
        simp only [fetched, leaves, List.cons.injEq] at takes <;> rw [← takes.1]

/-- A path takes the one course that its start allows. -/
theorem course_iff_path {instructions : List Instruction} :
    board.Course stop limit offset processor instructions ending ↔
      board.path stop limit offset processor = (processor.trail instructions, ending) := by
  induction instructions generalizing limit offset processor with
  | nil => exact course_nil_iff
  | cons instruction rest inductionHypothesis =>
    by_cases fetched : board.fetch? stop offset processor = some instruction
    · cases limit with
      | zero =>
        constructor
        · intro course
          exact absurd course.limited (Nat.not_succ_le_zero _)
        · intro takes
          exact absurd (congrArg Prod.fst takes) (List.cons_ne_nil _ _).symm
      | succ limit =>
        rw [path, fetched]
        cases leaves : instruction.flow.ending? with
        | some brought =>
          rw [course_cons_iff_of_ends leaves fetched]
          cases rest <;> simp [leaves, Processor.trail, @eq_comm _ ending]
        | none =>
          rw [course_cons_iff_of_falls leaves fetched, inductionHypothesis]
          simp [leaves, Processor.trail, Prod.ext_iff]
    · constructor
      · intro course
        exact absurd course.fetch?_eq_some fetched
      · intro takes
        exact absurd (fetch?_eq_some_of_path (congrArg Prod.fst takes)) fetched

end Board

/-! ### What a walk records -/

namespace Flow

/-- The routine that is called, if its address is known. -/
def called? : Flow → Option Address
  | .call target => target
  | _ => none

/-- The place in the same routine to which control may go. -/
def branched? : Flow → Option Address
  | .branch target | .goto target => some target
  | _ => none

/-- The routine that is jumped to, if its address is known. -/
def jumped? : Flow → Option Address
  | .jump target => target
  | _ => none

/-- Whether control goes where a pointer leads. -/
def usesPointer (flow : Flow) : Bool :=
  flow == .call none || flow == .jump none

end Flow

/-- The transfers among steps, in order: of the flows that `target?` picks out, to the address
that it gives, with the state that `entered` makes of the one behind the step. -/
def Wiring.transfers (wiring : Wiring) (target? : Flow → Option Address)
    (entered : Processor → Processor) (steps : List Step) : List Target :=
  steps.filterMap fun step => (target? step.instruction.flow).map fun address =>
    ⟨step.instruction.offset, address, wiring.offset? address, entered step.after⟩

namespace Walk

variable (wiring : Wiring) (walk : Walk)

theorem calls_eq_transfers :
    walk.calls wiring = wiring.transfers Flow.called? Processor.enterRoutine walk.steps := by
  refine congrArg (walk.steps.filterMap ·) (funext fun step => ?_)
  rw [Step.call?]
  cases step.instruction.flow with
  | call target => cases target <;> rfl
  | _ => rfl

theorem branches_eq_transfers :
    walk.branches wiring = wiring.transfers Flow.branched? id walk.steps := by
  refine congrArg (walk.steps.filterMap ·) (funext fun step => ?_)
  rw [Step.branch?]
  cases step.instruction.flow <;> rfl

theorem jumps_eq_transfers :
    walk.jumps wiring = wiring.transfers Flow.jumped? Processor.enterRoutine walk.steps := by
  refine congrArg (walk.steps.filterMap ·) (funext fun step => ?_)
  rw [Step.jump?]
  cases step.instruction.flow with
  | jump target => cases target <;> rfl
  | _ => rfl

theorem unresolved_eq_map : walk.unresolved =
    (walk.instructions.filter fun instruction => instruction.flow.usesPointer).map
      Instruction.offset := by
  rw [unresolved, instructions, List.filter_map, List.map_map, ← List.filterMap_eq_map,
    List.filterMap_filter]
  refine congrArg (walk.steps.filterMap ·) (funext fun step => ?_)
  rw [Step.unresolved?]
  cases flow : step.instruction.flow with
  | call target | jump target => cases target <;> simp [flow, Flow.usesPointer]
  | _ => simp [flow, Flow.usesPointer]

end Walk

/-! ### The walk of a walker -/

/-- A walk is one that a walker takes from a start. -/
structure Walker.Takes (walker : Walker) (start : Nat) (processor : Processor) (walk : Walk) :
    Prop where
  begins : walk.start = start
  enters : walk.entry = processor
  /-- The instructions stand one behind the other from the start, each decoded under the state
  that those before it leave behind. -/
  unbroken : walker.board.Unbroken start processor walk.instructions walk.stop
  inside : ∀ instruction ∈ walk.instructions, instruction.stop ≤ walker.windowEnd start
  limited : walk.instructions.length ≤ walker.limit
  straight : ∀ instruction ∈ walk.instructions.dropLast, instruction.flow.isTerminator = false
  returned : walk.ending = .returned ↔ ∃ last, walk.instructions.getLast? = some last ∧
    (last.flow = .leave ∨ last.flow = .halt)
  jumped : walk.ending = .jumped ↔ ∃ last, walk.instructions.getLast? = some last ∧
    ((∃ target, last.flow = .goto target) ∨ ∃ target, last.flow = .jump target)
  exhausted : walk.ending = .limited ↔
    (∀ instruction ∈ walk.instructions, instruction.flow.isTerminator = false) ∧
      walk.instructions.length = walker.limit
  /-- A walk that ends in none of these ways is truncated. Where it stops, nothing decodes, or what
  does runs past the window. -/
  truncated : walk.ending = .truncated → walk.truncatedAt = some walk.stop ∧
    ∀ next, Instruction.decode walker.wiring.layout walker.image walk.stop walk.exit = .ok next →
      walker.windowEnd start < next.stop
  whole : walk.ending ≠ .truncated → walk.truncatedAt = none
  /-- Every instruction is taken with the state behind it, in which its transfers are recorded. -/
  steps : walk.steps = processor.trail walk.instructions
  calls : walk.calls walker.wiring = walker.wiring.transfers Flow.called?
    Processor.enterRoutine (processor.trail walk.instructions)
  branches : walk.branches walker.wiring = walker.wiring.transfers Flow.branched? id
    (processor.trail walk.instructions)
  jumps : walk.jumps walker.wiring = walker.wiring.transfers Flow.jumped?
    Processor.enterRoutine (processor.trail walk.instructions)
  unresolved : walk.unresolved =
    (walk.instructions.filter fun instruction => instruction.flow.usesPointer).map
      Instruction.offset
  exit : walk.exit = walk.instructions.foldl Processor.advance processor

namespace Walker

variable {walker : Walker} {start : Nat} {processor : Processor}

theorem Takes.course {walk : Walk} (takes : walker.Takes start processor walk) :
    walker.board.Course (walker.windowEnd start) walker.limit start processor walk.instructions
      walk.ending := by
  obtain rfl := takes.begins
  obtain rfl := takes.enters
  have finish := Walk.stop_of_steps takes.steps
  refine ⟨finish ▸ takes.unbroken, takes.inside, takes.limited, fun instruction member => ?_, ?_,
    fun ran => ?_⟩
  · exact (Flow.ending?_eq_none_iff _).mpr (takes.straight instruction member)
  · exact Ending.eq_of_iff (takes.returned.trans Ending.of_eq_returned_iff.symm)
      (takes.jumped.trans Ending.of_eq_jumped_iff.symm)
      (takes.exhausted.trans (Ending.of_eq_limited_iff_of_straight takes.straight).symm)
  · rw [← finish, ← takes.exit]
    exact Board.fetch?_eq_none_iff.mpr (takes.truncated ran).2

theorem takes_of_course (walk : Walk) (steps : walk.steps = walk.entry.trail walk.instructions)
    (course : walker.board.Course (walker.windowEnd walk.start) walker.limit walk.start walk.entry
      walk.instructions walk.ending) :
    walker.Takes walk.start walk.entry walk := by
  have straight : ∀ instruction ∈ walk.instructions.dropLast,
      instruction.flow.isTerminator = false :=
    fun instruction member =>
      (Flow.ending?_eq_none_iff _).mp (course.straight instruction member)
  have finish := Walk.stop_of_steps steps
  have exit := Walk.exit_of_steps steps
  exact
    { begins := rfl
      enters := rfl
      unbroken := finish ▸ course.unbroken
      inside := course.inside
      limited := course.limited
      straight := straight
      returned := by rw [← Ending.of_eq_returned_iff, ← course.ends]
      jumped := by rw [← Ending.of_eq_jumped_iff, ← course.ends]
      exhausted := by rw [← Ending.of_eq_limited_iff_of_straight straight, ← course.ends]
      truncated := by
        intro ran
        rw [finish, exit]
        exact ⟨(if_pos ran).trans (congrArg some finish),
          Board.fetch?_eq_none_iff.mp (course.stuck ran)⟩
      whole := fun otherwise => if_neg otherwise
      steps := steps
      calls := steps ▸ walk.calls_eq_transfers walker.wiring
      branches := steps ▸ walk.branches_eq_transfers walker.wiring
      jumps := steps ▸ walk.jumps_eq_transfers walker.wiring
      unresolved := walk.unresolved_eq_map
      exit := exit }

/-- There is one walk that a walker takes from a start: the one that it follows. -/
theorem takes_iff (walker : Walker) (start : Nat) (processor : Processor) (walk : Walk) :
    walker.Takes start processor walk ↔ walk = walker.walk start processor := by
  rw [walk_eq_path]
  constructor
  · intro takes
    rw [Board.course_iff_path.mp takes.course, ← takes.steps, ← takes.begins, ← takes.enters]
  · rintro rfl
    have trail := walker.board.steps_path_eq_trail (walker.windowEnd start) walker.limit start
      processor
    have course := Board.course_iff_path.mpr (Prod.ext trail rfl)
    exact takes_of_course ⟨start, processor, _, _⟩ trail course

end Walker

end Cartridge
