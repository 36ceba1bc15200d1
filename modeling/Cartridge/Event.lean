/-
This file lists what an analysis reports while it runs, in the order in which it
happens, and writes each report as a log record with a level and a message.
-/

import Cartridge.Detection
import Cartridge.Issue
import Cartridge.Routine

namespace Cartridge

/-- The level of a log record. -/
inductive Level where
  | debug
  | info
  | warning
deriving DecidableEq

/-- The name of a level. -/
def Level.title : Level → String
  | .debug => "DEBUG"
  | .info => "INFO"
  | .warning => "WARN"

/-- Something that an analysis reports. -/
inductive Event where
  /-- A file has the length of an image with the header of a copying device. -/
  | copierHeader (path : String) (size : Nat)
  /-- The header was looked for at an offset; it may have a title. -/
  | header (layout : Layout) (offset : Nat) (title : Option String)
  /-- The layout is known. -/
  | detected (detection : Detection)
  /-- The layout leaves the end of the image without addresses. -/
  | unmapped (layout : Layout) (mapped skipped : Nat)
  /-- A wave of entries is about to be traced. -/
  | wave (number entries : Nat)
  /-- A walk came to its end. -/
  | walk (start count : Nat) (ending : Ending)
  /-- A window that looked like code turned out not to be. -/
  | dropped (offset : Nat) (ending : Ending)
  /-- A routine was found. -/
  | routine (routine : Routine)
  /-- The instruction budget ran out. -/
  | exhausted (remaining : Nat)
  /-- The analysis is complete. -/
  | finished (routines instructions issues : Nat)

namespace Event

/-- A title as it is quoted in a log record. Titles hold printable characters only. -/
def quoted (text : String) : String :=
  let escaped := text.toList.flatMap fun character =>
    if character == '"' || character == '\\' then ['\\', character] else [character]
  "\"" ++ String.ofList escaped ++ "\""

/-- An optional title as it is written in a log record. -/
def titleText : Option String → String
  | some title => "Some(" ++ quoted title ++ ")"
  | none => "None"

/-- The level of the log record. -/
def level : Event → Level
  | .copierHeader _ _ => .warning
  | .header _ _ _ => .debug
  | .detected detection => if detection.isGuess then .warning else .info
  | .unmapped _ _ _ => .warning
  | .wave _ _ => .debug
  | .walk _ _ _ => .debug
  | .dropped _ _ => .debug
  | .routine _ => .debug
  | .exhausted _ => .warning
  | .finished _ _ _ => .info

/-- The message of the log record. -/
def message : Event → String
  | .copierHeader path size =>
    path ++ " is " ++ Hex.count size ++
      " bytes, which suggests a 512-byte copier header; strip it before analysis"
  | .header layout offset title =>
    layout.title ++ " header at " ++ Hex.count offset ++ ": " ++ titleText title
  | .detected detection =>
    if detection.isGuess then
      "no convincing header (confidence " ++ pointsText detection.points ++ "), assuming " ++
        detection.layout.title
    else
      detection.layout.title ++ " detected (confidence " ++ pointsText detection.points ++ ")"
  | .unmapped layout mapped skipped =>
    layout.title ++ " cannot address offsets past " ++ Hex.offset mapped ++ "; " ++
      Hex.count skipped ++ " bytes skipped"
  | .wave number entries => "wave " ++ toString number ++ ": " ++ toString entries ++ " entries"
  | .walk start count ending =>
    "walk from " ++ Hex.offset start ++ ": " ++ toString count ++ " instructions, " ++ ending.title
  | .dropped offset ending =>
    "dropping region seed at " ++ Hex.offset offset ++ ": " ++ ending.title
  | .routine found =>
    found.name ++ " at " ++ Hex.offset found.start ++ ": " ++
      toString found.instructions.length ++ " instructions, " ++ found.ending.title
  | .exhausted remaining =>
    "instruction budget exhausted, " ++ toString remaining ++ " entries left unanalyzed"
  | .finished routines instructions issues =>
    "analysis complete: " ++ toString routines ++ " functions, " ++ toString instructions ++
      " instructions, " ++ toString issues ++ " issues"

end Event

end Cartridge
