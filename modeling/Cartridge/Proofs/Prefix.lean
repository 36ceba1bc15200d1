/-
This file proves that walks are beginnings of longer things. The instructions of a walk begin the
sweep of its window: a walk and a sweep fetch the same instructions one after the other, but the
walk halts at the first that ends straight-line code, and at its limit. And a walk begins every
walk from the same start with a wider window and a higher limit, since it fetches nothing that
the other does not. Once it has met a return or a jump, no wider bound makes it longer.
-/

import Cartridge.Proofs.Walker
import Cartridge.Sweep

namespace Cartridge

/-! ### Straight parts -/

/-- The instructions up to and with the first that ends straight-line code, or all of them if
none does. -/
def Instruction.straightPart (instructions : List Instruction) : List Instruction :=
  instructions.take (instructions.findIdx (fun instruction => instruction.flow.isTerminator) + 1)

namespace Instruction

theorem straightPart_cons_of_ends {instruction : Instruction}
    (ends : instruction.flow.isTerminator = true) (rest : List Instruction) :
    straightPart (instruction :: rest) = [instruction] := by
  simp [straightPart, List.findIdx_cons, ends]

theorem straightPart_cons_of_falls {instruction : Instruction}
    (falls : instruction.flow.isTerminator = false) (rest : List Instruction) :
    straightPart (instruction :: rest) = instruction :: straightPart rest := by
  simp [straightPart, List.findIdx_cons, falls]

end Instruction

/-! ### Walks and sweeps -/

namespace Board

/-- A run of some length takes the instruction at its offset if there is one. -/
theorem run_eq_cons {board : Board} {stop offset count : Nat} {processor : Processor}
    {instruction : Instruction} (enough : stop - offset ≤ count)
    (fetched : board.fetch? stop offset processor = some instruction) :
    ∃ fewer, stop - instruction.stop ≤ fewer ∧ board.run stop count offset processor =
      instruction :: board.run stop fewer instruction.stop (processor.advance instruction) := by
  have progress := lt_stop_of_fetch? fetched
  have fits := (fetch?_eq_some_iff.mp fetched).2
  obtain ⟨fewer, rfl⟩ : ∃ fewer, count = fewer + 1 := ⟨count - 1, by omega⟩
  refine ⟨fewer, by omega, ?_⟩
  rw [run, fetched]

theorem run_eq_nil {board : Board} {stop offset : Nat} {processor : Processor}
    (missing : board.fetch? stop offset processor = none) (count : Nat) :
    board.run stop count offset processor = [] := by
  cases count with
  | zero => rfl
  | succ count => rw [run, missing]

/-- The instructions of a path are the first of the straight part of a run that is long enough. A
path that runs out of its window takes the whole run. -/
theorem instructions_path_eq_take (board : Board) (stop limit offset : Nat)
    (processor : Processor) : ∀ {count : Nat}, stop - offset ≤ count →
      (board.path stop limit offset processor).1.map Step.instruction =
          (Instruction.straightPart (board.run stop count offset processor)).take limit ∧
        ((board.path stop limit offset processor).2 = .truncated →
          (board.path stop limit offset processor).1.map Step.instruction =
            board.run stop count offset processor) := by
  fun_induction path board stop limit offset processor with
  | case1 => exact fun _ => ⟨rfl, by simp⟩
  | case2 limit offset processor missing =>
    intro count _
    rw [run_eq_nil missing]
    exact ⟨rfl, fun _ => rfl⟩
  | case3 limit offset processor instruction fetched step ending =>
    rename_i ends
    intro count enough
    obtain ⟨fewer, -, goes⟩ := run_eq_cons enough fetched
    have terminates : instruction.flow.isTerminator = true := by
      by_contra falls
      rw [Bool.not_eq_true, ← Flow.ending?_eq_none_iff, ends] at falls
      exact absurd falls (Option.some_ne_none _)
    rw [goes, Instruction.straightPart_cons_of_ends terminates, List.take_succ_cons, List.take_nil]
    refine ⟨rfl, ?_⟩
    rintro rfl
    exact absurd (Flow.isConfident_of_ending? ends) Bool.false_ne_true
  | case4 limit offset processor instruction fetched step falls rest =>
    rename_i inductionHypothesis
    intro count enough
    obtain ⟨fewer, remaining, goes⟩ := run_eq_cons enough fetched
    obtain ⟨straight, whole⟩ := inductionHypothesis remaining
    rw [goes, Instruction.straightPart_cons_of_falls ((Flow.ending?_eq_none_iff _).mp falls),
      List.take_succ_cons, ← straight]
    refine ⟨rfl, fun ran => ?_⟩
    rw [← whole ran]
    rfl

theorem windowEnd_le_size (board : Board) (bound : Option Nat) (start : Nat) :
    board.windowEnd bound start ≤ board.image.size := by
  have inside : board.wiring.bankEnd start ≤ board.image.size := Nat.min_le_right _ _
  cases bound with
  | none => exact inside
  | some bound => exact Nat.le_trans (Nat.min_le_left _ _) inside

/-- The instructions of a walk are the first of the straight part of the sweep of its window, as
many as allowed; a walk that runs out of its window takes the whole sweep. -/
theorem instructions_walk_eq_take_sweep (board : Board) (limit : Nat) (bound : Option Nat)
    (start : Nat) (processor : Processor) :
    let walk := board.walk limit bound start processor
    let swept := board.sweep ⟨start, board.windowEnd bound start⟩ processor
    walk.instructions = (Instruction.straightPart swept).take limit ∧
      (walk.ending = .truncated → walk.instructions = swept) := by
  intro walk swept
  have sweeps : swept = board.run (board.windowEnd bound start)
      (board.windowEnd bound start - start) start processor := by
    simp only [swept, sweep_eq_run, Nat.min_eq_left (board.windowEnd_le_size bound start)]
  rw [sweeps, Walk.instructions, steps_walk, ending_walk]
  exact board.instructions_path_eq_take _ limit start processor (Nat.le_refl _)

/-- A call, a branch over a `NOP` and a return; behind them a `NOP` and a load that is cut off. -/
def cutOffImage : Image :=
  ⟨#[0x20, 0x07, 0x80, 0xD0, 0x01, 0xEA, 0x60, 0xEA, 0xAD, 0x00]⟩

/-- From the front, the sweep goes on behind the return and the walk does not; from behind the
return, both stop at the load. -/
theorem instructions_walk_eq_take_sweep_cutOff :
    let board : Board := ⟨.loRom, cutOffImage⟩
    ((board.walk 16 none 0 {}).instructions.length = 4 ∧
      (board.sweep ⟨0, board.windowEnd none 0⟩ {}).length = 5 ∧
      (board.walk 16 none 0 {}).instructions =
        (Instruction.straightPart (board.sweep ⟨0, board.windowEnd none 0⟩ {})).take 16) ∧
    (board.walk 16 none 7 {}).ending = .truncated ∧
      (board.walk 16 none 7 {}).instructions = board.sweep ⟨7, board.windowEnd none 7⟩ {} := by
  intro board
  have truncated : (board.walk 16 none 7 {}).ending = .truncated := by decide +kernel
  refine ⟨⟨by decide +kernel, by decide +kernel, ?_⟩, truncated, ?_⟩
  · exact (instructions_walk_eq_take_sweep board 16 none 0 {}).1
  · exact (instructions_walk_eq_take_sweep board 16 none 7 {}).2 truncated

end Board

/-! ### Wider bounds -/

/-- Two walkers differ in nothing but their bounds, and those of the second are no tighter. -/
structure Walker.Within (first second : Walker) : Prop where
  image : first.image = second.image
  wiring : first.wiring = second.wiring
  limit : first.limit ≤ second.limit
  bound : ∀ later, second.bound = some later →
    ∃ earlier, first.bound = some earlier ∧ earlier ≤ later

namespace Board

theorem fetch?_of_le {board : Board} {stop further offset : Nat} {processor : Processor}
    {instruction : Instruction} (wider : stop ≤ further)
    (fetched : board.fetch? stop offset processor = some instruction) :
    board.fetch? further offset processor = some instruction := by
  obtain ⟨decoded, fits⟩ := fetch?_eq_some_iff.mp fetched
  exact fetch?_eq_some_iff.mpr ⟨decoded, Nat.le_trans fits wider⟩

/-- A path begins every path from the same place with wider bounds, and is all of it once it has
met a return or a jump. -/
theorem path_mono (board : Board) {stop further : Nat} (wider : stop ≤ further)
    (limit offset : Nat) (processor : Processor) : ∀ {more : Nat}, limit ≤ more →
      (board.path stop limit offset processor).1 <+:
          (board.path further more offset processor).1 ∧
        ((board.path stop limit offset processor).2.isConfident = true →
          board.path further more offset processor = board.path stop limit offset processor) := by
  fun_induction path board stop limit offset processor with
  | case1 => exact fun _ => ⟨List.nil_prefix, (absurd · Bool.false_ne_true)⟩
  | case2 => exact fun _ => ⟨List.nil_prefix, (absurd · Bool.false_ne_true)⟩
  | case3 limit offset processor instruction fetched step ending =>
    rename_i ends
    intro more atLeast
    obtain ⟨more, rfl⟩ : ∃ fewer, more = fewer + 1 := ⟨more - 1, by omega⟩
    have same : board.path further (more + 1) offset processor = ([step], ending) := by
      rw [path, fetch?_of_le wider fetched]
      simp only [ends]
      rfl
    rw [same]
    exact ⟨List.prefix_rfl, fun _ => rfl⟩
  | case4 limit offset processor instruction fetched step falls rest =>
    rename_i inductionHypothesis
    intro more atLeast
    obtain ⟨more, rfl⟩ : ∃ fewer, more = fewer + 1 := ⟨more - 1, by omega⟩
    obtain ⟨begins, final⟩ := inductionHypothesis (Nat.le_of_succ_le_succ atLeast)
    rw [path, fetch?_of_le wider fetched]
    simp only [falls]
    refine ⟨?_, fun confident => ?_⟩
    · exact List.cons_prefix_cons.mpr ⟨rfl, begins⟩
    · rw [final confident]

end Board

namespace Walker

section

variable {first second : Walker} (within : first.Within second) (start : Nat)
include within

theorem Within.windowEnd_le : first.windowEnd start ≤ second.windowEnd start := by
  obtain ⟨image, wiring, -, bounds⟩ := within
  rw [windowEnd, windowEnd, image, wiring]
  cases later : second.bound with
  | none => cases first.bound <;> simp only <;> omega
  | some stop =>
    obtain ⟨earlier, bounded, tighter⟩ := bounds stop later
    rw [bounded]
    simp only
    omega

theorem Within.path_mono (processor : Processor) :
    (first.walk start processor).steps <+: (second.walk start processor).steps ∧
      ((first.walk start processor).ending.isConfident = true →
        second.walk start processor = first.walk start processor) := by
  have board : second.board = first.board := by rw [board, board, within.image, within.wiring]
  obtain ⟨begins, final⟩ := first.board.path_mono (within.windowEnd_le start) first.limit start
    processor within.limit
  rw [walk_eq_path, walk_eq_path, board]
  exact ⟨begins, fun confident => by rw [final confident]⟩

/-- What a walk records is the beginning of what a walk with wider bounds records, and all of it
once the walk has met a return or a jump. -/
theorem walk_mono (processor : Processor) :
    let short := first.walk start processor
    let long := second.walk start processor
    short.instructions <+: long.instructions ∧
      short.calls first.wiring <+: long.calls second.wiring ∧
      short.branches first.wiring <+: long.branches second.wiring ∧
      short.jumps first.wiring <+: long.jumps second.wiring ∧
      short.unresolved <+: long.unresolved ∧
      (short.ending.isConfident = true → long = short) := by
  intro short long
  obtain ⟨begins, final⟩ := within.path_mono start processor
  rw [← within.wiring]
  exact ⟨begins.map _, begins.filterMap _, begins.filterMap _, begins.filterMap _,
    begins.filterMap _, final⟩

end

/-- A limit cuts a walk short; a bound right behind the return leaves it whole. -/
theorem walk_mono_cutOff :
    let board : Board := ⟨.loRom, Board.cutOffImage⟩
    let limited : Walker := ⟨board.image, board.wiring, 2, some 7⟩
    let bounded : Walker := ⟨board.image, board.wiring, 4, some 7⟩
    let free : Walker := ⟨board.image, board.wiring, 16, none⟩
    (limited.Within free ∧ (board.walk 2 (some 7) 0 {}).instructions.length = 2 ∧
      (board.walk 2 (some 7) 0 {}).instructions <+: (board.walk 16 none 0 {}).instructions) ∧
    bounded.Within free ∧ (board.walk 4 (some 7) 0 {}).ending.isConfident = true ∧
      board.walk 16 none 0 {} = board.walk 4 (some 7) 0 {} := by
  intro board limited bounded free
  have loose : limited.Within free := ⟨rfl, rfl, by decide, by simp [free]⟩
  have tight : bounded.Within free := ⟨rfl, rfl, by decide, by simp [free]⟩
  have confident : (bounded.walk 0 {}).ending.isConfident = true := by decide +kernel
  obtain ⟨begins, -⟩ := walk_mono loose 0 {}
  obtain ⟨-, -, -, -, -, whole⟩ := walk_mono tight 0 {}
  rw [Board.walk_eq_walker, Board.walk_eq_walker, Board.walk_eq_walker]
  exact ⟨⟨loose, by decide +kernel, begins⟩, tight, confident, whole confident⟩

end Walker

end Cartridge
