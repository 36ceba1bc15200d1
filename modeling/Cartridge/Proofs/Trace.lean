/-
This file proves what every trace holds. A trace is built walk by walk, so a property that
taking in one walk keeps holds of the whole trace. The main consequence is that a trace is
sound: its instructions do not overlap, control executes each of them on its way from the
entry, and if there is any, one stands at the entry itself. Cutting a trace keeps it
sound.
-/

import Cartridge.Proofs.Reachability
import Cartridge.Proofs.Tiling
import Std.Data.TreeSet.Lemmas

namespace Cartridge

/-! ### Frontiers -/

namespace Frontier

theorem mem_takeUp {walked : Std.TreeSet Nat} {fresh targets : List (Nat × Processor)}
    {target : Nat × Processor} (member : target ∈ (takeUp walked fresh targets).2) :
    target ∈ fresh ∨ target ∈ targets := by
  induction targets generalizing walked fresh with
  | nil => exact Or.inl (List.mem_reverse.mp member)
  | cons first rest inductionHypothesis =>
    rw [takeUp] at member
    split at member
    · exact (inductionHypothesis member).imp_right (List.mem_cons_of_mem _)
    · rcases inductionHypothesis member with taken | later
      · rcases List.mem_cons.mp taken with rfl | old
        · exact Or.inr List.mem_cons_self
        · exact Or.inl old
      · exact Or.inr (List.mem_cons_of_mem _ later)

/-- Only targets that were pending or have been added are pending. -/
theorem mem_pending_add {frontier : Frontier} {targets : List (Nat × Processor)}
    {target : Nat × Processor} (member : target ∈ (frontier.add targets).pending) :
    target ∈ frontier.pending ∨ target ∈ targets := by
  rcases List.mem_append.mp member with pending | taken
  · exact Or.inl pending
  · rcases mem_takeUp taken with fresh | added
    · exact absurd fresh List.not_mem_nil
    · exact Or.inr added

theorem mem_pending_of_prune {frontier : Frontier} {tiling : Tiling} {target : Nat × Processor}
    (member : target ∈ (frontier.prune tiling).pending) : target ∈ frontier.pending :=
  (List.dropWhile_sublist _).subset member

end Frontier

namespace Trace

/-! ### Properties that taking in a walk keeps -/

/-- If taking in a walk that is due keeps a property of traces, and makes only such walks due
next, the property holds at the end. -/
theorem explore_invariant {scope : Scope} (Holds : Trace → Prop) (Due : Nat × Processor → Prop)
    (absorbs : ∀ {trace place}, Holds trace → Due place →
      Holds (trace.absorb scope (scope.walk place.1 place.2)))
    (continues : ∀ {trace place}, Holds trace → Due place →
      ∀ target ∈ trace.continuations scope (scope.walk place.1 place.2), Due target)
    {count : Nat} {trace : Trace} {frontier : Frontier} (place : Nat × Processor)
    (holds : Holds trace) (due : Due place) (pending : ∀ target ∈ frontier.pending, Due target) :
    Holds (explore scope count trace frontier (scope.walk place.1 place.2)) := by
  induction count generalizing trace frontier place with
  | zero => exact holds
  | succ count inductionHypothesis =>
    rw [explore]
    have grown := absorbs holds due
    have wider : ∀ target ∈ ((frontier.add (trace.continuations scope
        (scope.walk place.1 place.2))).prune
          (trace.absorb scope (scope.walk place.1 place.2)).tiling).pending, Due target := by
      intro target member
      rcases Frontier.mem_pending_add (Frontier.mem_pending_of_prune member) with old | new
      · exact pending target old
      · exact continues holds due target new
    split
    · exact grown
    · rename_i offset processor rest next
      split
      · exact grown
      · rw [next] at wider
        exact inductionHypothesis (offset, processor) grown (wider _ List.mem_cons_self)
          fun target later => wider target (List.mem_cons_of_mem _ later)

/-- If taking in any walk keeps a property of traces, going on with a trace keeps it. -/
theorem explore_of_absorb {scope : Scope} (Holds : Trace → Prop)
    (absorbs : ∀ {trace walk}, Holds trace → Holds (trace.absorb scope walk)) {count : Nat}
    {trace : Trace} {frontier : Frontier} (place : Nat × Processor) (holds : Holds trace) :
    Holds (explore scope count trace frontier (scope.walk place.1 place.2)) :=
  explore_invariant Holds (fun _ => True) (fun holds _ => absorbs holds)
    (fun _ _ _ _ => trivial) place holds trivial fun _ _ => trivial

/-! ### Taking in one walk -/

@[simp]
theorem tiling_absorb (scope : Scope) (trace : Trace) (walk : Walk) :
    (trace.absorb scope walk).tiling = walk.instructions.foldl Tiling.place trace.tiling := by
  unfold absorb
  split <;> rfl

@[simp]
theorem entry_absorb (scope : Scope) (trace : Trace) (walk : Walk) :
    (trace.absorb scope walk).entry = trace.entry := by
  unfold absorb
  split <;> rfl

@[simp]
theorem ending_absorb (scope : Scope) (trace : Trace) (walk : Walk) :
    (trace.absorb scope walk).ending = trace.ending := by
  unfold absorb
  split <;> rfl

/-! ### The first walk -/

theorem ending_run (scope : Scope) (entry : Entry) :
    (run scope entry).ending = (scope.walk entry.offset entry.processor).ending := by
  refine explore_of_absorb
    (fun trace => trace.ending = (scope.walk entry.offset entry.processor).ending) ?_
    (entry.offset, entry.processor) rfl
  intro trace walk same
  rw [ending_absorb, same]

/-- A trace that is not trusted takes in the instructions of its first walk and nothing
else. -/
theorem run_of_not_confident {scope : Scope} {entry : Entry}
    (doubtful : (run scope entry).isConfident = false) :
    run scope entry = (start entry (scope.walk entry.offset entry.processor)).absorbSteps
      (scope.walk entry.offset entry.processor) := by
  rw [isConfident, ending_run] at doubtful
  have stays : (start entry (scope.walk entry.offset entry.processor)).isConfident = false :=
    doubtful
  rw [run, explore, absorb, continuations, stays]
  rfl

theorem isConfident_run_of_nil {scope : Scope} {entry : Entry}
    (steps : (scope.walk entry.offset entry.processor).steps = []) :
    (run scope entry).isConfident = false := by
  rw [isConfident, ending_run]
  rw [Scope.walk, Board.steps_walk] at steps
  rw [Scope.walk, Board.ending_walk, Board.ending_path_of_nil steps]
  split <;> rfl

/-- The first instruction of the first walk is placed for good. -/
theorem getElem?_run_of_cons {scope : Scope} {entry : Entry} {step : Step} {rest : List Step}
    (steps : (scope.walk entry.offset entry.processor).steps = step :: rest) :
    (run scope entry).tiling[entry.offset]? = some step.instruction := by
  have here : step.instruction.offset = entry.offset := by
    rw [Scope.walk, Board.steps_walk] at steps
    exact Board.offset_head_path steps
  have placed : ((start entry (scope.walk entry.offset entry.processor)).absorb scope
      (scope.walk entry.offset entry.processor)).tiling[entry.offset]? =
        some step.instruction := by
    rw [tiling_absorb, Walk.instructions, steps, List.map_cons, List.foldl_cons, ← here]
    exact Tiling.getElem?_foldl_place_of_some (Tiling.getElem?_place_empty _) _
  rw [run, explore]
  split
  · exact placed
  · rename_i offset processor rest _
    split
    · exact placed
    · refine explore_of_absorb
        (fun trace => trace.tiling[entry.offset]? = some step.instruction) ?_
        (offset, processor) placed
      intro trace walk holds
      rw [tiling_absorb]
      exact Tiling.getElem?_foldl_place_of_some holds _

/-! ### Sound traces -/

theorem orderly_run (scope : Scope) (entry : Entry) : (run scope entry).tiling.Orderly := by
  refine explore_of_absorb (fun trace => trace.tiling.Orderly) ?_ (entry.offset, entry.processor)
    Tiling.orderly_empty
  intro trace walk orderly
  rw [tiling_absorb]
  exact orderly.foldl_place _

@[simp]
theorem entry_run (scope : Scope) (entry : Entry) : (run scope entry).entry = entry := by
  refine explore_of_absorb (fun trace => trace.entry = entry) ?_ (entry.offset, entry.processor) rfl
  intro trace walk same
  rw [entry_absorb, same]

/-- Control executes every instruction of a trace. -/
def Follows (scope : Scope) (trace : Trace) : Prop :=
  ∀ {offset : Nat} {instruction : Instruction}, trace.tiling[offset]? = some instruction →
    scope.Executes trace.entry.offset trace.entry.processor instruction

theorem Follows.absorb {scope : Scope} {trace : Trace} (follows : trace.Follows scope)
    {place : Nat × Processor}
    (walkable : scope.Walkable trace.entry.offset trace.entry.processor place.1 place.2) :
    (trace.absorb scope (scope.walk place.1 place.2)).Follows scope := by
  intro offset instruction look
  rw [tiling_absorb] at look
  rw [entry_absorb]
  rcases Tiling.getElem?_of_foldl_place look with old | ⟨member, -⟩
  · exact follows old
  · exact walkable.executes member

theorem follows_run (scope : Scope) (entry : Entry) : (run scope entry).Follows scope := by
  -- the entry is part of the invariant: it decides which branches the trace goes on with
  refine (explore_invariant (fun trace => trace.entry = entry ∧ trace.Follows scope)
    (fun place => scope.Walkable entry.offset entry.processor place.1 place.2) ?_ ?_
    (entry.offset, entry.processor) ⟨rfl, fun look => ?_⟩ (scope.walkable_entry _ _)
    (fun target member => absurd member List.not_mem_nil)).2
  · rintro trace place ⟨rfl, follows⟩ walkable
    exact ⟨entry_absorb _ _ _, follows.absorb walkable⟩
  · rintro trace place ⟨rfl, -⟩ walkable target member
    unfold continuations at member
    split at member
    · exact walkable.staying member
    · exact absurd member List.not_mem_nil
  · simp [start] at look

/-- The instructions of a trace do not overlap, control executes each of them, and if there
is any, one stands at the entry. -/
structure Sound (scope : Scope) (trace : Trace) : Prop where
  orderly : trace.tiling.Orderly
  follows : trace.Follows scope
  anchored : ∀ {offset : Nat} {instruction : Instruction},
    trace.tiling[offset]? = some instruction →
      ∃ first, trace.tiling[trace.entry.offset]? = some first

theorem Sound.entry_le {scope : Scope} {trace : Trace} (sound : trace.Sound scope) {offset : Nat}
    {instruction : Instruction} (look : trace.tiling[offset]? = some instruction) :
    trace.entry.offset ≤ offset := by
  obtain ⟨processor, reached, -⟩ := sound.follows look
  rw [← sound.orderly.keyed look]
  exact reached.start_le

theorem sound_run (scope : Scope) (entry : Entry) : (run scope entry).Sound scope := by
  refine ⟨orderly_run scope entry, follows_run scope entry, fun look => ?_⟩
  rw [entry_run]
  cases steps : (scope.walk entry.offset entry.processor).steps with
  | nil =>
    rw [run_of_not_confident (isConfident_run_of_nil steps)] at look
    simp [absorbSteps, start, Walk.instructions, steps] at look
  | cons step rest => exact ⟨_, getElem?_run_of_cons steps⟩

/-! ### Cutting -/

theorem getElem?_cut_of_some {trace : Trace} {count bound : Nat}
    (last : trace.tiling.keys[count]? = some bound) (offset : Nat) :
    (trace.cut count).tiling[offset]? = trace.tiling[offset]?.filter fun _ => offset < bound := by
  simp only [cut, last]
  rw [Std.TreeMap.getElem?_filter']

@[simp]
theorem entry_cut (trace : Trace) (count : Nat) : (trace.cut count).entry = trace.entry := by
  unfold cut
  split <;> rfl

theorem Sound.cut {scope : Scope} {trace : Trace} (sound : trace.Sound scope) (count : Nat) :
    (trace.cut count).Sound scope := by
  cases last : trace.tiling.keys[count]? with
  | none => rwa [Trace.cut, last]
  | some bound =>
    have kept : ∀ {offset : Nat} {instruction : Instruction},
        (trace.cut count).tiling[offset]? = some instruction →
          trace.tiling[offset]? = some instruction ∧ offset < bound := by
      intro offset instruction look
      rw [getElem?_cut_of_some last, Option.filter_eq_some_iff, decide_eq_true_eq] at look
      exact look
    refine ⟨?_, fun look => ?_, fun look => ?_⟩
    · simp only [Trace.cut, last]
      exact sound.orderly.filter _
    · rw [entry_cut]
      exact sound.follows (kept look).1
    · -- the entry comes first, so the cut never takes it away alone
      obtain ⟨old, before⟩ := kept look
      obtain ⟨first, anchor⟩ := sound.anchored old
      have within := Nat.lt_of_le_of_lt (sound.entry_le old) before
      refine ⟨first, ?_⟩
      rw [entry_cut, getElem?_cut_of_some last, anchor]
      simp [within]

/-! ### Traces without instructions -/

theorem routine?_eq_none_iff {trace : Trace} :
    trace.routine? = none ↔ trace.tiling.instructions = [] := by
  rw [routine?, Option.map_eq_none_iff, List.head?_eq_none_iff]

/-- A walk that may take a step but finds no instruction is truncated at the entry. -/
theorem truncatedAt_run_of_empty {scope : Scope} {entry : Entry} (limit : scope.limit ≠ 0)
    (empty : (run scope entry).tiling.instructions = []) :
    (run scope entry).truncatedAt = some entry.offset := by
  cases steps : (scope.walk entry.offset entry.processor).steps with
  | nil =>
    have ending : (scope.walk entry.offset entry.processor).ending = .truncated := by
      rw [Scope.walk, Board.steps_walk] at steps
      rw [Scope.walk, Board.ending_walk, Board.ending_path_of_nil steps, if_neg limit]
    rw [run_of_not_confident (isConfident_run_of_nil steps)]
    show (scope.walk entry.offset entry.processor).truncatedAt = some entry.offset
    rw [Walk.truncatedAt, if_pos ending, Walk.stop, steps]
    rfl
  | cons step rest =>
    have member := Tiling.mem_instructions.mpr ⟨_, getElem?_run_of_cons steps⟩
    rw [empty] at member
    exact absurd member List.not_mem_nil

theorem cut_of_empty {trace : Trace} (empty : trace.tiling.instructions = []) (count : Nat) :
    trace.cut count = trace := by
  have keys : trace.tiling.keys = [] := by
    refine List.eq_nil_iff_forall_not_mem.mpr fun offset member => ?_
    obtain ⟨instruction, look⟩ := Option.isSome_iff_exists.mp
      (Std.TreeMap.mem_iff_isSome_getElem?.mp (Std.TreeMap.mem_keys.mp member))
    have listed := Tiling.mem_instructions.mpr ⟨offset, look⟩
    rw [empty] at listed
    exact List.not_mem_nil listed
  rw [cut, keys]
  rfl

/-- A cut that keeps an instruction keeps the first one. -/
theorem empty_of_cut {trace : Trace} {count : Nat} (positive : count ≠ 0)
    (empty : (trace.cut count).tiling.instructions = []) : trace.tiling.instructions = [] := by
  cases last : trace.tiling.keys[count]? with
  | none =>
    rw [cut, last] at empty
    exact empty
  | some bound =>
    obtain ⟨within, here⟩ := List.getElem?_eq_some_iff.mp last
    have before : trace.tiling.keys[0] < bound := by
      rw [← here]
      exact Nat.compare_eq_lt.mp (List.pairwise_iff_getElem.mp Std.TreeMap.ordered_keys _ _ _ _
        (Nat.pos_of_ne_zero positive))
    obtain ⟨instruction, look⟩ := Option.isSome_iff_exists.mp
      (Std.TreeMap.mem_iff_isSome_getElem?.mp (Std.TreeMap.mem_keys.mp
        (List.getElem_mem (Nat.zero_lt_of_lt within))))
    have listed : instruction ∈ (trace.cut count).tiling.instructions := by
      refine Tiling.mem_instructions.mpr ⟨trace.tiling.keys[0], ?_⟩
      rw [getElem?_cut_of_some last, look]
      simp [before]
    rw [empty] at listed
    exact absurd listed List.not_mem_nil

/-! ### Traces that a survey takes in -/

/-- A trace of an entry, whole or cut to a positive number of instructions. -/
inductive Taken (scope : Scope) : Trace → Prop
  | whole (entry : Entry) : Taken scope (run scope entry)
  | part (entry : Entry) {count : Nat} (positive : count ≠ 0) :
      Taken scope ((run scope entry).cut count)

theorem Taken.sound {scope : Scope} {trace : Trace} (taken : trace.Taken scope) :
    trace.Sound scope := by
  cases taken with
  | whole entry => exact sound_run scope entry
  | part entry positive => exact (sound_run scope entry).cut _

/-- A trace that found no instruction was truncated at its entry. -/
theorem Taken.truncatedAt_of_empty {scope : Scope} {trace : Trace} (taken : trace.Taken scope)
    (limit : scope.limit ≠ 0) (empty : trace.tiling.instructions = []) :
    trace.truncatedAt = some trace.entry.offset := by
  cases taken with
  | whole entry => rw [truncatedAt_run_of_empty limit empty, entry_run]
  | part entry positive =>
    have whole := empty_of_cut positive empty
    rw [cut_of_empty whole, truncatedAt_run_of_empty limit whole, entry_run]

end Trace

end Cartridge
