/-
This file traces one routine: the walk from its entry, and then a walk from every branch
target that it reaches and that does not begin an instruction yet. A branch that leaves
the range or goes back before the entry counts as a jump. Only a trace whose first walk
ended on a return or a jump follows transfers at all; any other may be decoding data.

A trace walks from each offset of the range at most once, so the number of walks is
bounded by the size of the range.
-/

import Cartridge.Ascending
import Cartridge.Routine
import Cartridge.Tiling
import Std.Data.TreeSet

namespace Cartridge

/-- An entry that waits to be traced. -/
structure Entry where
  offset : Nat
  processor : Processor
  seed : Seed
deriving DecidableEq

/-- Where entries are traced and how far. -/
structure Scope where
  board : Board
  /-- The offsets to keep to. -/
  range : Span
  /-- The most instructions of a walk. -/
  limit : Nat

/-- Walks from an offset inside the scope. -/
def Scope.walk (scope : Scope) (offset : Nat) (processor : Processor) : Walk :=
  scope.board.walk scope.limit (some scope.range.stop) offset processor

/-- A walk as it is reported. -/
structure WalkSummary where
  start : Nat
  count : Nat
  ending : Ending
deriving DecidableEq

/-- The summary of a walk. -/
def Walk.summary (walk : Walk) : WalkSummary :=
  ⟨walk.start, walk.steps.length, walk.ending⟩

/-- A routine while it is traced. -/
structure Trace where
  entry : Entry
  /-- How the walk from the entry ended. -/
  ending : Ending
  truncatedAt : Option Nat
  tiling : Tiling
  calls : List Target
  jumps : List Target
  /-- The offsets of branch targets inside the routine. -/
  labels : List Nat
  unmapped : List Address
  unresolved : List Nat
  /-- The number of instructions decoded, those that found no place included. -/
  decoded : Nat
  walks : List WalkSummary

/-- The branch targets still to be walked from, and those already taken up. -/
structure Frontier where
  walked : Std.TreeSet Nat
  pending : List (Nat × Processor)

/-! ### Sorting out branches -/

namespace Scope

/-- Whether a branch from a routine to an offset leaves the routine. -/
def leaves (scope : Scope) (start offset : Nat) : Bool :=
  decide (offset < start) || !scope.range.contains offset

/-- The branches that leave the routine. -/
def leaving (scope : Scope) (start : Nat) (branches : List Target) : List Target :=
  branches.filter fun target => match target.offset with
    | some offset => scope.leaves start offset
    | none => false

/-- The branches that stay in the routine, with the states at their targets. -/
def staying (scope : Scope) (start : Nat) (branches : List Target) : List (Nat × Processor) :=
  branches.filterMap fun target => match target.offset with
    | some offset => if scope.leaves start offset then none else some (offset, target.processor)
    | none => none

end Scope

/-- The addresses of targets that do not lie in the image. -/
def Target.missing (targets : List Target) : List Address :=
  targets.filterMap fun target => match target.offset with
    | some _ => none
    | none => some target.address

/-! ### Tracing -/

namespace Frontier

/-- The frontier of a trace that walks from its entry. -/
def start (offset : Nat) : Frontier :=
  ⟨Std.TreeSet.empty.insert offset, []⟩

/-- Takes up the targets that were not taken up before; `fresh` holds those of this round,
newest first. -/
def takeUp (walked : Std.TreeSet Nat) (fresh : List (Nat × Processor)) :
    List (Nat × Processor) → Std.TreeSet Nat × List (Nat × Processor)
  | [] => (walked, fresh.reverse)
  | target :: rest =>
    if walked.contains target.1 then takeUp walked fresh rest
    else takeUp (walked.insert target.1) (target :: fresh) rest

/-- Adds targets behind those that are pending. -/
def add (frontier : Frontier) (targets : List (Nat × Processor)) : Frontier :=
  let taken := takeUp frontier.walked [] targets
  ⟨taken.1, frontier.pending ++ taken.2⟩

/-- Drops the pending targets at which an instruction begins already. -/
def prune (frontier : Frontier) (tiling : Tiling) : Frontier :=
  { frontier with pending := frontier.pending.dropWhile fun target => tiling.contains target.1 }

end Frontier

namespace Trace

/-- The trace before its first walk has been taken in. -/
def start (entry : Entry) (first : Walk) : Trace :=
  { entry := entry
    ending := first.ending
    truncatedAt := first.truncatedAt
    tiling := Std.TreeMap.empty
    calls := []
    jumps := []
    labels := []
    unmapped := []
    unresolved := []
    decoded := 0
    walks := [] }

/-- Whether the trace follows transfers. -/
def isConfident (trace : Trace) : Bool :=
  trace.ending.isConfident

/-- Takes in the instructions of a walk. -/
def absorbSteps (trace : Trace) (walk : Walk) : Trace :=
  { trace with
    tiling := walk.instructions.foldl Tiling.place trace.tiling
    unresolved := trace.unresolved ++ walk.unresolved
    decoded := trace.decoded + walk.steps.length
    walks := trace.walks ++ [walk.summary] }

/-- Takes in the transfers of a walk. -/
def absorbTargets (scope : Scope) (trace : Trace) (walk : Walk) : Trace :=
  let wiring := scope.board.wiring
  let calls := walk.calls wiring
  let jumps := walk.jumps wiring
  let branches := walk.branches wiring
  let start := trace.entry.offset
  { trace with
    calls := trace.calls ++ calls
    jumps := trace.jumps ++ (jumps ++ scope.leaving start branches)
    labels := trace.labels ++ (scope.staying start branches).map Prod.fst
    unmapped := trace.unmapped ++ Target.missing (calls ++ jumps ++ branches) }

/-- Takes in a walk. -/
def absorb (scope : Scope) (trace : Trace) (walk : Walk) : Trace :=
  if trace.isConfident then (trace.absorbSteps walk).absorbTargets scope walk
  else trace.absorbSteps walk

/-- The branch targets of a walk that the trace has to walk from. -/
def continuations (scope : Scope) (trace : Trace) (walk : Walk) : List (Nat × Processor) :=
  if trace.isConfident then
    scope.staying trace.entry.offset (walk.branches scope.board.wiring)
  else []

/-- Takes in a walk and goes on with the next pending target. No more than `count` walks are
taken in. -/
def explore (scope : Scope) : (count : Nat) → Trace → Frontier → Walk → Trace
  | 0, trace, _, _ => trace
  | count + 1, trace, frontier, walk =>
    let grown := trace.absorb scope walk
    let wider := (frontier.add (trace.continuations scope walk)).prune grown.tiling
    match wider.pending with
    | [] => grown
    | (offset, processor) :: rest =>
      if scope.limit ≤ grown.tiling.size then grown
      else explore scope count grown { wider with pending := rest } (scope.walk offset processor)

/-- Traces an entry. -/
def run (scope : Scope) (entry : Entry) : Trace :=
  let first := scope.walk entry.offset entry.processor
  explore scope (scope.range.size + 1) (start entry first) (Frontier.start entry.offset) first

/-! ### The result of a trace -/

/-- Keeps the first `count` instructions and the transfers made before the first one that is
dropped. A trace that has no more than `count` stays as it is. -/
def cut (trace : Trace) (count : Nat) : Trace :=
  match trace.tiling.keys[count]? with
  | none => trace
  | some bound =>
    let kept := trace.tiling.filter fun offset _ => offset < bound
    { trace with
      tiling := kept
      calls := trace.calls.filter fun target => target.source < bound
      jumps := trace.jumps.filter fun target => target.source < bound
      labels := trace.labels.filter (· < bound)
      unresolved := trace.unresolved.filter (· < bound)
      decoded := kept.size
      truncatedAt := none
      ending := .limited }

/-- The routine that a trace found, unless it found no instruction. -/
def routine? (trace : Trace) : Option Routine :=
  let instructions := trace.tiling.instructions
  instructions.head?.map fun first =>
    { start := trace.entry.offset
      address := first.address
      instructions := instructions
      calls := ascending Address.toNat (trace.calls.map Target.address)
      jumps := ascending Address.toNat (trace.jumps.map Target.address)
      unmapped := ascending Address.toNat trace.unmapped
      unresolved := ascending id trace.unresolved
      seed := trace.entry.seed
      ending := trace.ending
      entry := trace.entry.processor }

end Trace

end Cartridge
