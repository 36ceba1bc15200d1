/-
This file lists what can go wrong on the way into the library: a file that cannot be read,
a text that is no address, options that are wrong, and a report format that does not
exist. An analysis itself never fails.
-/

import Cartridge.Event
import Cartridge.Options.Reader
import Cartridge.Report.Format

namespace Cartridge

/-- Why a request cannot be served. -/
inductive Error where
  | file
  | address (text : String)
  | options (error : OptionsError)
  | format (text : String)

namespace Error

/-- The wording of an error. -/
def message : Error → String
  | .file => "I/O error"
  | .address text => "Invalid CPU address: " ++ text
  | .options error => "Invalid configuration: " ++ error.message
  | .format text => "Invalid configuration: Unknown output format: " ++ text

end Error

/-- Reads an address. The error quotes the text as it was given. -/
def Address.read (text : String) : Except Error Address :=
  match Address.read? text.toList with
  | some address => .ok address
  | none => .error (.address text)

/-- Reads the name of a report format. -/
def ReportFormat.read (text : String) : Except Error ReportFormat :=
  match ReportFormat.read? text with
  | some format => .ok format
  | none => .error (.format text)

/-- Reads options; without a text these are the defaults, which are not checked. -/
def Options.readOr : Option String → Except Error Options
  | none => .ok {}
  | some text => match Options.read text with
    | .ok options => .ok options
    | .error error => .error (.options error)

/-- Takes the content of a file as an image, and warns if its length suggests that it starts
with the header of a copying device. -/
def Image.load (path : String) : Option (Array UInt8) → Except Error (Image × List Event)
  | none => .error .file
  | some bytes =>
    let warnings := if Image.hasCopierSize bytes.size then [.copierHeader path bytes.size] else []
    .ok (⟨bytes⟩, warnings)

end Cartridge
