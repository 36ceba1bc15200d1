/-
This file writes an analysis as an assembler listing: a heading with the layout, the title
and the problems, and then every routine with its callers, its labels and the names of the
targets of its transfers. Without routines the instructions are listed as they stand.
-/

import Cartridge.Analysis

namespace Cartridge.Listing

/-- A text with blanks behind it up to a width. -/
def padEnd (width : Nat) (text : String) : String :=
  text ++ String.ofList (List.replicate (width - text.length) ' ')

/-- The address to which an instruction transfers control. -/
def flowTarget : Flow → Option Address
  | .call target | .jump target => target
  | .goto target | .branch target => some target
  | .next | .leave | .halt => none

/-- The name at the target of an instruction. -/
def targetName? (analysis : Analysis) (instruction : Instruction) : Option String := do
  let address ← flowTarget instruction.flow
  let offset ← analysis.detection.layout.offset? address
  match analysis.symbols[offset]? with
  | some name => some name
  | none => analysis.labels[offset]?

/-- The line of an instruction. -/
def instructionLine (analysis : Analysis) (instruction : Instruction) : String :=
  let line := "  " ++ instruction.address.text ++ "  " ++ padEnd 12 instruction.byteText ++ " " ++
    instruction.text
  match targetName? analysis instruction with
  | some name => line ++ "  ; " ++ name ++ "\n"
  | none => line ++ "\n"

/-- The lines above everything else. -/
def heading (analysis : Analysis) : String :=
  let layout := "; " ++ analysis.detection.layout.title ++ " (confidence " ++
    pointsText analysis.detection.points ++ ")\n"
  let title := match analysis.header with
    | some header => "; title: " ++ header.title ++ "\n"
    | none => ""
  let counts := "; " ++ toString analysis.routines.length ++ " functions, " ++
    toString analysis.index.size ++ " instructions\n"
  let issues := analysis.issues.map fun issue => "; issue: " ++ issue.message ++ "\n"
  layout ++ title ++ counts ++ String.join issues

/-- The line that names a routine. -/
def routineLine (analysis : Analysis) (routine : Routine) : String :=
  let callers := (analysis.referencesTo routine.start).map fun reference =>
    reference.sourceAddress.text
  let line := routine.name ++ ":  ; " ++ routine.role.title ++ ", " ++ routine.trust.title
  if callers.isEmpty then line ++ "\n" else line ++ ", from " ++ " ".intercalate callers ++ "\n"

/-- The mark between an instruction that ends at `previous` and one that begins later. -/
def gapLine (previous : Option Nat) (instruction : Instruction) : String :=
  match previous with
  | some stop => if stop < instruction.offset then "  ; ...\n" else ""
  | none => ""

/-- The label in front of an instruction, which the first one of a routine does not get. -/
def labelLine (analysis : Analysis) (start : Nat) (instruction : Instruction) : String :=
  if instruction.offset = start then ""
  else match analysis.labels[instruction.offset]? with
    | some label => label ++ ":\n"
    | none => ""

/-- Writes the instructions of a routine behind what is already written. -/
def writeInstructions (analysis : Analysis) (start : Nat) :
    Option Nat → String → List Instruction → String
  | _, written, [] => written
  | previous, written, instruction :: rest =>
    writeInstructions analysis start (some instruction.stop)
      (written ++ gapLine previous instruction ++ labelLine analysis start instruction ++
        instructionLine analysis instruction)
      rest

/-- Writes a routine behind what is already written. -/
def writeRoutine (analysis : Analysis) (written : String) (routine : Routine) : String :=
  writeInstructions analysis routine.start none
    (written ++ "\n" ++ routineLine analysis routine) routine.instructions

/-- The whole listing. -/
def text (analysis : Analysis) : String :=
  if analysis.routines.isEmpty then
    analysis.index.toList.foldl
      (fun written entry => written ++ instructionLine analysis entry.2)
      (heading analysis ++ "\n")
  else analysis.routines.foldl (writeRoutine analysis) (heading analysis)

end Cartridge.Listing
