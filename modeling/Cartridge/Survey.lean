/-
This file surveys an image: it traces entries wave by wave and gathers the routines that
they lead to. All entries that are queued when a wave begins are traced before any of
them is merged, and they are merged in ascending order of their offsets. Merging queues
the targets of calls and jumps. An offset is accepted as an entry at most once, so a
survey comes to an end.

Entries come from the caller, from the interrupt pointers, from windows that look like
code and that no routine covers yet, and, if there is nothing else, from the start of the
range. An instruction budget stops the survey: the trace that exceeds it is cut, and the
entries that remain are listed as unanalyzed.
-/

import Cartridge.Event
import Cartridge.Profile
import Cartridge.Region
import Cartridge.Trace

namespace Cartridge

/-- A survey under way. -/
structure Survey where
  /-- The entries that wait for the next wave. -/
  queue : List Entry := []
  /-- The offsets ever accepted as entries. -/
  seen : Std.TreeSet Nat := Std.TreeSet.empty
  /-- The routines found, with their branch targets, in the order of merging. -/
  routines : Array (Routine × List Nat) := #[]
  /-- The end of the first instruction merged at each offset. -/
  covered : Std.TreeMap Nat Nat := Std.TreeMap.empty
  issues : Array Issue := #[]
  unanalyzed : Array Nat := #[]
  exhausted : Bool := false
  /-- The number of instructions counted against the budget. -/
  decoded : Nat := 0
  waves : Nat := 0
  events : Array Event := #[]

namespace Survey

/-! ### Entries -/

/-- Accepts an entry if it lies in the range and its offset was never accepted before. -/
def enqueue (range : Span) (survey : Survey) (entry : Entry) : Survey :=
  if range.contains entry.offset && !survey.seen.contains entry.offset then
    { survey with
      queue := entry :: survey.queue
      seen := survey.seen.insert entry.offset }
  else survey

/-- Accepts the targets of transfers that lie in the image. -/
def enqueueTargets (range : Span) (seed : Seed) (survey : Survey) (targets : List Target) :
    Survey :=
  targets.foldl
    (fun survey target => match target.offset with
      | some offset => survey.enqueue range ⟨offset, target.processor, seed⟩
      | none => survey)
    survey

/-! ### Merging -/

/-- Records a problem. -/
def report (survey : Survey) (issue : Issue) : Survey :=
  { survey with issues := survey.issues.push issue }

/-- Records that an instruction was truncated at an offset, if there is one. -/
def reportTruncated (survey : Survey) : Option Nat → Survey
  | some offset => survey.report (.truncated offset)
  | none => survey

/-- Marks the bytes of an instruction as covered; the first mark at an offset stays. -/
def cover (covered : Std.TreeMap Nat Nat) (instruction : Instruction) : Std.TreeMap Nat Nat :=
  covered.insertIfNew instruction.offset instruction.stop

/-- Records a routine. -/
def record (survey : Survey) (routine : Routine) (labels : List Nat) : Survey :=
  { survey with
    routines := survey.routines.push (routine, labels)
    covered := routine.instructions.foldl cover survey.covered
    events := survey.events.push (.routine routine) }

/-- Records the problems of a trace. -/
def reportTrace (survey : Survey) (trace : Trace) : Survey :=
  let truncated := if trace.ending = .truncated then survey.reportTruncated trace.truncatedAt
    else survey
  (ascending id trace.unresolved).foldl (fun survey offset => survey.report (.unresolved offset))
    truncated

/-- Merges a trace. A trace without instructions leaves only its problem; a trace from a
window that does not end on a return or a jump is dropped. -/
def merge (range : Span) (survey : Survey) (trace : Trace) : Survey :=
  match trace.routine? with
  | none => survey.reportTruncated trace.truncatedAt
  | some routine =>
    if trace.entry.seed = .region ∧ !trace.isConfident then
      { survey with events := survey.events.push (.dropped trace.entry.offset trace.ending) }
    else
      let reported := survey.reportTrace trace
      let called := reported.enqueueTargets range .call trace.calls
      let jumped := called.enqueueTargets range .jump trace.jumps
      jumped.record routine trace.labels

/-- Lists entries as unanalyzed. -/
def abandon (survey : Survey) (offsets : List Nat) : Survey :=
  { survey with unanalyzed := survey.unanalyzed ++ offsets }

/-- Merges the trace that exceeds a budget: cut to what is left of the budget, or not at all
if nothing is left. -/
def mergeCut (range : Span) (budget : Nat) (survey : Survey) (trace : Trace) : Survey :=
  let stopped := { survey with exhausted := true }
  let remaining := budget - survey.decoded
  if remaining = 0 then stopped.abandon [trace.entry.offset]
  else { stopped with decoded := budget }.merge range (trace.cut remaining)

/-- Whether a trace exceeds the budget. -/
def exceeds (budget : Option Nat) (survey : Survey) (trace : Trace) : Option Nat :=
  budget.filter fun budget => budget < survey.decoded + trace.decoded

/-- Merges the traces of a wave in order until one of them exceeds the budget. -/
def mergeAll (range : Span) (budget : Option Nat) (survey : Survey) : List Trace → Survey
  | [] => survey
  | trace :: rest =>
    match survey.exceeds budget trace with
    | some budget =>
      (survey.mergeCut range budget trace).abandon (rest.map fun trace => trace.entry.offset)
    | none =>
      mergeAll range budget
        ({ survey with decoded := survey.decoded + trace.decoded }.merge range trace) rest

/-! ### Waves -/

/-- The queued entries in ascending order of their offsets. -/
def nextWave (survey : Survey) : List Entry :=
  survey.queue.mergeSort fun first second => first.offset ≤ second.offset

/-- The reports of the walks of a trace. -/
def walkEvents (trace : Trace) : List Event :=
  trace.walks.map fun walk => .walk walk.start walk.count walk.ending

/-- Handles all queued entries: abandons them if the budget has run out, else traces and
merges them. -/
def handleWave (scope : Scope) (budget : Option Nat) (survey : Survey) : Survey :=
  let wave := survey.nextWave
  if survey.exhausted then
    { survey with queue := [] }.abandon (wave.map Entry.offset)
  else
    let number := survey.waves + 1
    let traces := wave.map (Trace.run scope)
    let begun :=
      { survey with
        queue := []
        waves := number
        events := survey.events.push (.wave number wave.length) ++ traces.flatMap walkEvents }
    begun.mergeAll scope.range budget traces

/-- Handles up to `count` waves. -/
def handleWaves (scope : Scope) (budget : Option Nat) : (count : Nat) → Survey → Survey
  | 0, survey => survey
  | count + 1, survey =>
    if survey.queue.isEmpty then survey
    else handleWaves scope budget count (survey.handleWave scope budget)

/-- Handles waves until no entry is queued. Each wave but the last accepts an entry, and no
offset of the range is accepted twice, so there are at most as many waves as offsets, and
one more that abandons what a budget left over. -/
def drain (scope : Scope) (budget : Option Nat) (survey : Survey) : Survey :=
  handleWaves scope budget (scope.range.size + 2) survey

/-! ### Coverage -/

/-- The recorded end of the last instruction that begins before an offset. -/
def nearestEnd? (survey : Survey) (offset : Nat) : Option Nat :=
  (survey.covered.getEntryLT? offset).map Prod.snd

/-- Whether a window is covered: the last instruction that begins before it reaches into it, or
an instruction begins in it. -/
def isCovered (survey : Survey) (window : Span) : Bool :=
  (survey.nearestEnd? window.start).any (window.start < ·) || window.hasKey survey.covered

/-! ### Seeds -/

/-- The state in which the handler of an interrupt is entered. -/
def handlerState (interrupt : Interrupt) : Processor :=
  if interrupt = .reset then Processor.afterReset
  else if interrupt.isEmulation then Processor.interrupted
  else {}

/-- Accepts the entry points of the caller. -/
def seedEntryPoints (scope : Scope) (addresses : List Address) (survey : Survey) : Survey :=
  addresses.foldl
    (fun survey address => match scope.board.wiring.offset? address with
      | some offset => survey.enqueue scope.range ⟨offset, {}, .entryPoint⟩
      | none => survey)
    survey

/-- Accepts the handlers of interrupts. -/
def seedHandlers (scope : Scope) (handlers : List Handler) (survey : Survey) : Survey :=
  handlers.foldl
    (fun survey handler => match handler.offset with
      | some offset =>
        survey.enqueue scope.range
          ⟨offset, handlerState handler.interrupt, .vector handler.interrupt⟩
      | none => survey)
    survey

/-- Tries a window that looks like code, unless the budget has run out or the window is
covered. -/
def tryRegion (scope : Scope) (budget : Option Nat) (survey : Survey) (window : Span) : Survey :=
  if survey.exhausted || survey.isCovered window then survey
  else (survey.enqueue scope.range ⟨window.start, {}, .region⟩).drain scope budget

/-- Tries the start of the range if no entry was ever accepted. -/
def tryFallback (scope : Scope) (budget : Option Nat) (survey : Survey) : Survey :=
  if survey.seen.isEmpty then
    (survey.enqueue scope.range ⟨scope.range.start, Processor.interrupted, .fallback⟩).drain
      scope budget
  else survey

/-- Surveys an image from the entry points, then from the windows in turn, and from the start
of the range if all of these give no entry. -/
def run (scope : Scope) (budget : Option Nat) (entryPoints : List Address)
    (handlers : List Handler) (windows : List Span) (begun : Survey) : Survey :=
  let seeded := (begun.seedEntryPoints scope entryPoints).seedHandlers scope handlers
  let drained := seeded.drain scope budget
  (windows.foldl (tryRegion scope budget) drained).tryFallback scope budget

end Survey

end Cartridge
