/-
This file proves that tracing an entry comes to an end. The loop of a trace is described once
more without a bound on its walks: it takes in a walk, and goes on with the next pending target
until none is left or the limit on instructions is reached. From every entry of the range the
loop ends, with the trace that the bounded recursion computes, and walks from no offset
twice. The pending targets grow while the loop runs, but each of them was taken up before, and
an offset of the range is taken up only once.
-/

import Cartridge.Proofs.Branches
import Cartridge.Proofs.Passage

namespace Cartridge

/-! ### The loop of a trace -/

namespace Trace

/-- The frontier with which a trace goes on once it has taken in a walk. -/
def advance (scope : Scope) (trace : Trace) (frontier : Frontier) (walk : Walk) : Frontier :=
  (frontier.add (trace.continuations scope walk)).prune (trace.absorb scope walk).tiling

/-- From a walk that is due, a trace takes in some walks and ends. -/
inductive Explores (scope : Scope) : Trace → Frontier → Walk → List Walk → Trace → Prop
  /-- No target is left. -/
  | done {trace : Trace} {frontier : Frontier} {walk : Walk}
      (none : (trace.advance scope frontier walk).pending = []) :
      Explores scope trace frontier walk [walk] (trace.absorb scope walk)
  /-- The limit on instructions is reached. -/
  | full {trace : Trace} {frontier : Frontier} {walk : Walk}
      (limit : scope.limit ≤ (trace.absorb scope walk).tiling.size) :
      Explores scope trace frontier walk [walk] (trace.absorb scope walk)
  /-- The walk from the next target is due. -/
  | more {trace last : Trace} {frontier : Frontier} {walk : Walk} {walks : List Walk}
      {place : Nat × Processor} {rest : List (Nat × Processor)}
      (next : (trace.advance scope frontier walk).pending = place :: rest)
      (below : (trace.absorb scope walk).tiling.size < scope.limit)
      (goes : Explores scope (trace.absorb scope walk)
        { trace.advance scope frontier walk with pending := rest }
        (scope.walk place.1 place.2) walks last) :
      Explores scope trace frontier walk (walk :: walks) last

/-- The trace of an entry takes in some walks and ends. -/
def Ends (scope : Scope) (entry : Entry) (walks : List Walk) (last : Trace) : Prop :=
  Explores scope (start entry (scope.walk entry.offset entry.processor))
    (Frontier.start entry.offset) (scope.walk entry.offset entry.processor) walks last

theorem room_advance {scope : Scope} {count : Nat} {frontier : Frontier} {place : Nat × Processor}
    (room : Frontier.Room scope.range (count + 1) frontier.walked (place :: frontier.pending))
    (trace : Trace) (walk : Walk) :
    Frontier.Room scope.range count (trace.advance scope frontier walk).walked
      (trace.advance scope frontier walk).pending :=
  (room.add fun _ => contains_of_mem_continuations).prune _

/-- The bounded recursion follows the loop to its end. -/
theorem explores_explore {scope : Scope} {count : Nat} {trace : Trace} {frontier : Frontier}
    (place : Nat × Processor)
    (room : Frontier.Room scope.range count frontier.walked (place :: frontier.pending)) :
    Explores scope trace frontier (scope.walk place.1 place.2)
      (walksFrom scope count trace frontier (scope.walk place.1 place.2))
      (explore scope count trace frontier (scope.walk place.1 place.2)) := by
  induction count generalizing trace frontier place with
  | zero => exact absurd rfl room.count_ne_zero
  | succ count inductionHypothesis =>
    have next := room_advance room trace (scope.walk place.1 place.2)
    rw [walksFrom, explore]
    cases pending : (trace.advance scope frontier (scope.walk place.1 place.2)).pending with
    | nil =>
      have none := pending
      rw [advance] at pending
      simp only [pending]
      exact .done none
    | cons target rest =>
      rw [pending] at next
      by_cases full :
          scope.limit ≤ (trace.absorb scope (scope.walk place.1 place.2)).tiling.size
      · rw [advance] at pending
        simp only [pending, if_pos full]
        exact .full full
      · have more := pending
        rw [advance] at pending
        simp only [pending, if_neg full]
        exact .more more (Nat.lt_of_not_le full) (inductionHypothesis target next)

/-- The trace of an entry of the range ends. -/
theorem ends_run {scope : Scope} {entry : Entry}
    (inside : scope.range.contains entry.offset = true) :
    Ends scope entry (walksOf scope entry) (run scope entry) :=
  explores_explore (entry.offset, entry.processor) (.start inside entry.processor)

end Trace

/-! ### Walks from different offsets -/

namespace Frontier

/-- The targets that wait lie at different offsets, all of which were taken up. -/
structure Distinct (walked : Std.TreeSet Nat) (waiting : List (Nat × Processor)) : Prop where
  once : (waiting.map Prod.fst).Nodup
  taken : ∀ target ∈ waiting, target.1 ∈ walked

theorem Distinct.takeUp {walked : Std.TreeSet Nat} {fresh : List (Nat × Processor)}
    (distinct : Distinct walked fresh) (targets : List (Nat × Processor)) :
    Distinct (takeUp walked fresh targets).1 (takeUp walked fresh targets).2 := by
  induction targets generalizing walked fresh with
  | nil =>
    refine ⟨?_, fun target member => distinct.taken target (List.mem_reverse.mp member)⟩
    rw [Frontier.takeUp, List.map_reverse]
    exact List.nodup_reverse.mpr distinct.once
  | cons first rest inductionHypothesis =>
    rw [Frontier.takeUp]
    split
    · exact inductionHypothesis distinct
    · rename_i new
      rw [Std.TreeSet.contains_iff_mem] at new
      refine inductionHypothesis ⟨?_, fun target member => Std.TreeSet.mem_insert.mpr ?_⟩
      · refine List.nodup_cons.mpr ⟨fun again => ?_, distinct.once⟩
        obtain ⟨target, member, same⟩ := List.mem_map.mp again
        exact new (same ▸ distinct.taken target member)
      · rcases List.mem_cons.mp member with rfl | old
        · exact Or.inl (Nat.compare_eq_eq.mpr rfl)
        · exact Or.inr (distinct.taken target old)

/-- Only offsets that were not taken up before are taken up. -/
theorem not_mem_walked_of_mem_takeUp {walked : Std.TreeSet Nat}
    {fresh targets : List (Nat × Processor)} {target : Nat × Processor}
    (member : target ∈ (takeUp walked fresh targets).2) :
    target ∈ fresh ∨ target.1 ∉ walked := by
  induction targets generalizing walked fresh with
  | nil => exact Or.inl (List.mem_reverse.mp member)
  | cons first rest inductionHypothesis =>
    rw [takeUp] at member
    split at member
    · exact inductionHypothesis member
    · rename_i new
      rw [Std.TreeSet.contains_iff_mem] at new
      rcases inductionHypothesis member with taken | other
      · rcases List.mem_cons.mp taken with rfl | old
        · exact Or.inr new
        · exact Or.inl old
      · exact Or.inr fun known => other (Std.TreeSet.mem_insert.mpr (Or.inr known))

theorem Distinct.add {frontier : Frontier} (distinct : Distinct frontier.walked frontier.pending)
    (targets : List (Nat × Processor)) :
    Distinct (frontier.add targets).walked (frontier.add targets).pending := by
  have nothing : Distinct frontier.walked [] :=
    ⟨List.nodup_nil, fun _ none => absurd none List.not_mem_nil⟩
  have taken := nothing.takeUp targets
  constructor
  · rw [Frontier.add, List.map_append]
    refine List.Nodup.append distinct.once taken.once fun offset old new => ?_
    obtain ⟨first, before, rfl⟩ := List.mem_map.mp old
    obtain ⟨second, fresh, same⟩ := List.mem_map.mp new
    have unknown := (not_mem_walked_of_mem_takeUp fresh).resolve_left List.not_mem_nil
    exact unknown (same ▸ distinct.taken first before)
  · intro target member
    rcases List.mem_append.mp member with old | new
    · exact mem_walked_takeUp.mpr (Or.inl (distinct.taken target old))
    · exact taken.taken target new

theorem Distinct.prune {frontier : Frontier}
    (distinct : Distinct frontier.walked frontier.pending) (tiling : Tiling) :
    Distinct (frontier.prune tiling).walked (frontier.prune tiling).pending := by
  refine ⟨?_, fun target member => distinct.taken target (mem_pending_of_prune member)⟩
  exact distinct.once.sublist ((List.dropWhile_sublist _).map _)

end Frontier

namespace Trace

theorem walked_subset_advance {scope : Scope} {trace : Trace} {frontier : Frontier} {walk : Walk}
    {offset : Nat} (known : offset ∈ frontier.walked) :
    offset ∈ (trace.advance scope frontier walk).walked :=
  Frontier.mem_walked_takeUp.mpr (Or.inl known)

theorem distinct_advance {frontier : Frontier} {place : Nat × Processor}
    (distinct : Frontier.Distinct frontier.walked (place :: frontier.pending)) (scope : Scope)
    (trace : Trace) (walk : Walk) :
    Frontier.Distinct (trace.advance scope frontier walk).walked
      (trace.advance scope frontier walk).pending := by
  have waiting : Frontier.Distinct frontier.walked frontier.pending :=
    ⟨(List.nodup_cons.mp distinct.once).2, fun target member =>
      distinct.taken target (List.mem_cons_of_mem _ member)⟩
  exact (waiting.add _).prune _

/-- A target that waits behind a walk waited before, or it is taken up now. -/
theorem mem_pending_advance {scope : Scope} {trace : Trace} {frontier : Frontier} {walk : Walk}
    {target : Nat × Processor} (member : target ∈ (trace.advance scope frontier walk).pending) :
    target ∈ frontier.pending ∨
      target.1 ∉ frontier.walked ∧ scope.range.contains target.1 = true := by
  rcases List.mem_append.mp (Frontier.mem_pending_of_prune member) with old | taken
  · exact Or.inl old
  · have new := (Frontier.not_mem_walked_of_mem_takeUp taken).resolve_left List.not_mem_nil
    have added := (Frontier.mem_takeUp taken).resolve_left List.not_mem_nil
    exact Or.inr ⟨new, contains_of_mem_continuations added⟩

/-- The walks of a trace start at different offsets: at those that wait, or at offsets of the
range that were not taken up before. -/
theorem starts_of_explores {scope : Scope} {trace last : Trace} {frontier : Frontier}
    {walk : Walk} {walks : List Walk} (explores : Explores scope trace frontier walk walks last)
    {place : Nat × Processor} (due : walk = scope.walk place.1 place.2)
    (distinct : Frontier.Distinct frontier.walked (place :: frontier.pending)) :
    (walks.map Walk.start).Nodup ∧ ∀ offset ∈ walks.map Walk.start,
      offset ∈ (place :: frontier.pending).map Prod.fst ∨
        offset ∉ frontier.walked ∧ scope.range.contains offset = true := by
  have alone : ∀ {frontier : Frontier} {place : Nat × Processor},
      ([scope.walk place.1 place.2].map Walk.start).Nodup ∧
        ∀ offset ∈ [scope.walk place.1 place.2].map Walk.start,
          offset ∈ (place :: frontier.pending).map Prod.fst ∨
            offset ∉ frontier.walked ∧ scope.range.contains offset = true :=
    ⟨List.nodup_singleton _, fun offset here =>
      Or.inl (List.mem_singleton.mp here ▸ List.mem_cons_self)⟩
  induction explores generalizing place with
  | done none => exact due ▸ alone
  | full limit => exact due ▸ alone
  | @more trace last frontier walk walks next rest more below goes inductionHypothesis =>
    subst due
    have fresh := (List.nodup_cons.mp distinct.once).1
    have ahead := distinct_advance distinct scope trace (scope.walk place.1 place.2)
    rw [more] at ahead
    obtain ⟨different, starts⟩ := inductionHypothesis rfl ahead
    have later : ∀ offset ∈ walks.map Walk.start, offset ∈ frontier.pending.map Prod.fst ∨
        offset ∉ frontier.walked ∧ scope.range.contains offset = true := by
      intro offset member
      rcases starts offset member with here | ⟨new, inside⟩
      · obtain ⟨target, listed, rfl⟩ := List.mem_map.mp here
        exact (mem_pending_advance (more ▸ listed)).imp_left List.mem_map_of_mem
      · exact Or.inr ⟨fun known => new (walked_subset_advance known), inside⟩
    constructor
    · refine List.nodup_cons.mpr ⟨fun again => ?_, different⟩
      rcases later place.1 again with waits | ⟨new, -⟩
      · exact fresh waits
      · exact new (distinct.taken place List.mem_cons_self)
    · intro offset member
      rcases List.mem_cons.mp member with rfl | behind
      · exact Or.inl List.mem_cons_self
      · exact (later offset behind).imp_left (List.mem_cons_of_mem _)

/-- From an entry of the range, a trace walks from no offset twice, and from offsets of the
range only. -/
theorem starts_of_ends {scope : Scope} {entry : Entry} {walks : List Walk} {last : Trace}
    (inside : scope.range.contains entry.offset = true) (ends : Ends scope entry walks last) :
    (walks.map Walk.start).Nodup ∧
      ∀ walk ∈ walks, scope.range.contains walk.start = true := by
  have distinct : Frontier.Distinct (Frontier.start entry.offset).walked
      ((entry.offset, entry.processor) :: (Frontier.start entry.offset).pending) := by
    refine ⟨List.nodup_singleton _, fun target member => ?_⟩
    rw [List.mem_singleton.mp member]
    exact Frontier.mem_walked_start.mpr rfl
  obtain ⟨different, starts⟩ := starts_of_explores ends rfl distinct
  refine ⟨different, fun walk member => ?_⟩
  rcases starts walk.start (List.mem_map_of_mem member) with here | ⟨-, within⟩
  · rw [List.mem_singleton.mp here]
    exact inside
  · exact within

end Trace

end Cartridge
