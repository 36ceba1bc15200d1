/-
This file analyzes an image. The layout and the range are settled first; then the image is
surveyed along the flow of control or listed from front to back; and what was found is put
together: the routines in ascending order, an index of their instructions, the cross
references of the routines that can be trusted, the names of routines and of branch
targets, the problems, and the reports made on the way.
-/

import Cartridge.Options
import Cartridge.Survey
import Cartridge.Sweep

namespace Cartridge

/-- The kind of transfer behind a cross reference. -/
inductive ReferenceKind where
  | call
  | jump
deriving DecidableEq

/-- The name of a kind of transfer. -/
def ReferenceKind.keyword : ReferenceKind → String
  | .call => "call"
  | .jump => "jump"

/-- A transfer from an instruction to an offset of the image. -/
structure Reference where
  source : Nat
  target : Nat
  kind : ReferenceKind
  sourceAddress : Address
  targetAddress : Address
deriving DecidableEq

/-- What an analysis found. -/
structure Analysis where
  detection : Detection
  header : Option Header
  handlers : List Handler
  banks : List Bank
  strategy : Strategy
  /-- The routines in ascending order. -/
  routines : List Routine
  /-- The instructions by their offsets. -/
  index : Std.TreeMap Nat Instruction
  /-- The cross references in ascending order. -/
  references : List Reference
  /-- The names of routines by their starts. -/
  symbols : Std.TreeMap Nat String
  /-- The names of branch targets by their offsets. -/
  labels : Std.TreeMap Nat String
  regions : List Region
  issues : List Issue
  /-- The entries left over by the instruction budget, in ascending order. -/
  unanalyzed : List Nat
  exhausted : Bool
  decoded : Nat
  events : List Event

namespace Reference

/-- The rank of a kind of transfer. -/
def kindRank : ReferenceKind → Nat
  | .call => 0
  | .jump => 1

/-- The order of references: by source, then by target, kind and addresses. -/
def order (first second : Reference) : Ordering :=
  (compare first.source second.source).then <|
    (compare first.target second.target).then <|
      (compare (kindRank first.kind) (kindRank second.kind)).then <|
        (compare first.sourceAddress.toNat second.sourceAddress.toNat).then
          (compare first.targetAddress.toNat second.targetAddress.toNat)

/-- Whether a reference comes before another or is the same. -/
def precedes (first second : Reference) : Bool :=
  (order first second).isLE

/-- The reference that an instruction makes, if it calls or jumps into the image. -/
def ofInstruction? (wiring : Wiring) (instruction : Instruction) : Option Reference :=
  match instruction.flow with
  | .call (some address) =>
    (wiring.offset? address).map fun target =>
      ⟨instruction.offset, target, .call, instruction.address, address⟩
  | .jump (some address) =>
    (wiring.offset? address).map fun target =>
      ⟨instruction.offset, target, .jump, instruction.address, address⟩
  | _ => none

/-- The references of the routines that can be trusted. -/
def ofRoutines (wiring : Wiring) (routines : List Routine) : List Reference :=
  let trusted := routines.filter fun routine => routine.ending.isConfident
  let made := trusted.flatMap fun routine =>
    routine.instructions.filterMap (ofInstruction? wiring)
  (made.mergeSort precedes).eraseReps

end Reference

namespace Analysis

/-! ### Putting together -/

/-- Adds instructions to an index; the first one at an offset stays. -/
def indexInstructions (index : Std.TreeMap Nat Instruction) (instructions : List Instruction) :
    Std.TreeMap Nat Instruction :=
  instructions.foldl
    (fun index instruction => index.insertIfNew instruction.offset instruction) index

/-- The names of routines. -/
def symbolsOf (routines : List Routine) : Std.TreeMap Nat String :=
  routines.foldl (fun symbols routine => symbols.insert routine.start routine.name)
    Std.TreeMap.empty

/-- The names of branch targets at which no routine starts. -/
def labelsOf (layout : Layout) (symbols : Std.TreeMap Nat String) (offsets : List Nat) :
    Std.TreeMap Nat String :=
  offsets.foldl
    (fun labels offset =>
      if symbols.contains offset then labels
      else match layout.address? offset with
        | some address => labels.insert offset address.labelName
        | none => labels)
    Std.TreeMap.empty

/-- The routines of a survey in ascending order, with their branch targets. -/
def inOrder (survey : Survey) : List (Routine × List Nat) :=
  survey.routines.toList.mergeSort fun first second => first.1.start ≤ second.1.start

/-- Puts together what a survey found, or a listing. -/
def assemble (profile : Profile) (board : Board) (strategy : Strategy) (regions : List Region)
    (survey : Survey) (listing : List Instruction) : Analysis :=
  let found := inOrder survey
  let routines := found.map Prod.fst
  let symbols := symbolsOf routines
  let unanalyzed := ascending id survey.unanalyzed.toList
  let index := indexInstructions Std.TreeMap.empty
    (routines.flatMap Routine.instructions ++ listing)
  let issues := survey.issues.toList ++
    (if survey.exhausted then [.exhausted unanalyzed.length] else [])
  { detection := profile.detection
    header := profile.header
    handlers := profile.handlers
    banks := profile.banks
    strategy := strategy
    routines := routines
    index := index
    references := Reference.ofRoutines board.wiring routines
    symbols := symbols
    labels := labelsOf board.layout symbols (found.flatMap Prod.snd)
    regions := regions
    issues := issues
    unanalyzed := unanalyzed
    exhausted := survey.exhausted
    decoded := survey.decoded
    events := survey.events.toList ++
      (if survey.exhausted then [.exhausted unanalyzed.length] else []) ++
      [.finished routines.length index.size issues.length] }

/-! ### Analyzing -/

/-- The offsets that an analysis keeps to: the range of the options, cut off at the end of
the part of the image that has addresses. -/
def effectiveRange (options : Options) (wiring : Wiring) : Span :=
  (options.range.getD ⟨0, wiring.length⟩).clamp wiring.mappedSize

/-- The problems known before any code is decoded. -/
def initialIssues (options : Options) (profile : Profile) (wiring : Wiring) : List Issue :=
  (if options.layout.isNone && profile.detection.isGuess then
    [.weakHeader profile.detection.points] else []) ++
    (if wiring.mappedSize < wiring.length then
      [.unmapped ⟨wiring.mappedSize, wiring.length⟩] else [])

/-- The reports made before any code is decoded. -/
def initialEvents (profile : Profile) (wiring : Wiring) : List Event :=
  [.header profile.layout profile.headerOffset (profile.header.map Header.title),
    .detected profile.detection] ++
    (if wiring.mappedSize < wiring.length then
      [.unmapped profile.layout wiring.mappedSize (wiring.length - wiring.mappedSize)] else [])

/-- The windows that look like code. -/
def codeWindows (options : Options) (regions : List Region) : List Span :=
  if options.seedRegions then
    (regions.filter fun region =>
      region.kind == .code && options.minRegionConfidence ≤ region.confidence).map Region.span
  else []

/-- The handlers that count as entries. -/
def seededHandlers (options : Options) (profile : Profile) : List Handler :=
  if options.seedVectors then profile.handlers else []

/-- Analyzes an image. -/
def run (options : Options) (image : Image) : Analysis :=
  let profile := Profile.read options.layout image
  let board : Board := ⟨profile.layout, image⟩
  let range := effectiveRange options board.wiring
  let regions := Region.classify options.weights options.minRegionConfidence options.windowSize
    image range
  let begun : Survey :=
    { issues := (initialIssues options profile board.wiring).toArray
      events := (initialEvents profile board.wiring).toArray }
  match options.strategy with
  | .recursive =>
    let survey := begun.run ⟨board, range, options.maxInstructions⟩ options.instructionBudget
      options.entryPoints (seededHandlers options profile) (codeWindows options regions)
    assemble profile board .recursive regions survey []
  | .linear =>
    let listing := board.listing range {}
    assemble profile board .linear regions { begun with decoded := listing.length } listing

/-- The instructions of a span from front to back, with the layout that the caller names or
the detected one. -/
def disassemble (layout : Option Layout) (image : Image) (span : Span) (processor : Processor) :
    List Instruction :=
  let layout := layout.getD (Detection.detect image).layout
  Board.listing ⟨layout, image⟩ span processor

/-! ### Asking -/

/-- The routine that starts at an offset. -/
def routineAt? (analysis : Analysis) (offset : Nat) : Option Routine :=
  analysis.routines.find? fun routine => routine.start == offset

/-- The first routine with a given name. -/
def routineNamed? (analysis : Analysis) (name : String) : Option Routine :=
  analysis.routines.find? fun routine => routine.name == name

/-- The references to an offset. -/
def referencesTo (analysis : Analysis) (offset : Nat) : List Reference :=
  analysis.references.filter fun reference => reference.target == offset

end Analysis

end Cartridge
