/-
This file lists the formats in which an analysis can be reported, and their names: the
ones a reader may type, the one shown back, and the ones used in documents and among
named choices.
-/

import Cartridge.Text.Choice

namespace Cartridge

/-- A format of reports. -/
inductive ReportFormat where
  /-- A listing for an assembler programmer. -/
  | text
  /-- One JSON document. -/
  | json
  /-- One JSON document to a line for each routine. -/
  | jsonLines
deriving DecidableEq

namespace ReportFormat

/-- All formats. -/
def all : List ReportFormat :=
  [.text, .json, .jsonLines]

/-- The name shown to readers. -/
def title : ReportFormat → String
  | .text => "text"
  | .json => "json"
  | .jsonLines => "jsonl"

/-- The name used in documents. -/
def keyword : ReportFormat → String
  | .text => "text"
  | .json => "json"
  | .jsonLines => "json_lines"

/-- The name as one of several choices. -/
def choiceName : ReportFormat → String
  | .text => "text"
  | .json => "json"
  | .jsonLines => "json-lines"

/-- The names that a reader may type, in any case. Lower-casing a letter outside ASCII never
gives a letter of these names, so folding ASCII letters is enough. -/
def read? (text : String) : Option ReportFormat :=
  match Choice.foldCase text with
  | "text" => some .text
  | "asm" => some .text
  | "json" => some .json
  | "jsonl" => some .jsonLines
  | "jsonlines" => some .jsonLines
  | _ => none

end ReportFormat

end Cartridge
