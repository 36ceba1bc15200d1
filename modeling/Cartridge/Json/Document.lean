/-
This file defines JSON documents as they are written and writes them in two ways: on one
line without blanks, or with one item to a line and two blanks for each level. Fields
keep their order.
-/

import Cartridge.Text.Hex

namespace Cartridge.Json

/-- A JSON document. -/
inductive Document where
  | boolean (value : Bool)
  | natural (value : Nat)
  /-- A number of hundredths. -/
  | hundredths (value : Nat)
  | string (text : String)
  | list (items : List Document)
  | record (fields : List (String × Document))

namespace Document

/-! ### Parts -/

/-- A character as it stands in a string. -/
def escape (character : Char) : List Char :=
  match character with
  | '"' => ['\\', '"']
  | '\\' => ['\\', '\\']
  | '\n' => ['\\', 'n']
  | '\r' => ['\\', 'r']
  | '\t' => ['\\', 't']
  | _ =>
    if character.toNat = 0x08 then ['\\', 'b']
    else if character.toNat = 0x0C then ['\\', 'f']
    else if character.toNat < 0x20 then
      ['\\', 'u', '0', '0'] ++ (Hex.lower 2 character.toNat).toList
    else [character]

/-- A string between quotes. -/
def quoted (text : String) : String :=
  "\"" ++ String.ofList (text.toList.flatMap escape) ++ "\""

/-- A number of hundredths with as few places as it needs, but at least one. -/
def hundredthsText (value : Nat) : String :=
  let places := if value % 10 = 0 then [Nat.digitChar (value / 10 % 10)]
    else [Nat.digitChar (value / 10 % 10), Nat.digitChar (value % 10)]
  toString (value / 100) ++ "." ++ String.ofList places

/-- The start of a line at a level. -/
def indentation (level : Nat) : String :=
  String.ofList ('\n' :: List.replicate (2 * level) ' ')

/-! ### On one line -/

mutual

/-- Writes a document on one line behind what is already written. -/
def writeCompact (written : String) : Document → String
  | .boolean value => written ++ (if value then "true" else "false")
  | .natural value => written ++ toString value
  | .hundredths value => written ++ hundredthsText value
  | .string text => written ++ quoted text
  | .list items => writeCompactItems (written ++ "[") "" items ++ "]"
  | .record fields => writeCompactFields (written ++ "\x7b") "" fields ++ "\x7d"

/-- Writes the items of a list, each behind a separator. -/
def writeCompactItems (written separator : String) : List Document → String
  | [] => written
  | item :: rest => writeCompactItems (writeCompact (written ++ separator) item) "," rest

/-- Writes the fields of a record, each behind a separator. -/
def writeCompactFields (written separator : String) : List (String × Document) → String
  | [] => written
  | (key, value) :: rest =>
    writeCompactFields (writeCompact (written ++ separator ++ quoted key ++ ":") value) "," rest

end

/-- The document on one line. -/
def compact (document : Document) : String :=
  writeCompact "" document

/-! ### On many lines -/

mutual

/-- Writes a document at a level behind what is already written. -/
def writePretty (level : Nat) (written : String) : Document → String
  | .boolean value => written ++ (if value then "true" else "false")
  | .natural value => written ++ toString value
  | .hundredths value => written ++ hundredthsText value
  | .string text => written ++ quoted text
  | .list [] => written ++ "[]"
  | .list (first :: rest) =>
    writePrettyItems (level + 1) (written ++ "[") "" (first :: rest) ++ indentation level ++ "]"
  | .record [] => written ++ "\x7b\x7d"
  | .record (first :: rest) =>
    writePrettyFields (level + 1) (written ++ "\x7b") "" (first :: rest) ++ indentation level ++
      "\x7d"

/-- Writes the items of a list, each behind a separator and on a line of its own. -/
def writePrettyItems (level : Nat) (written separator : String) : List Document → String
  | [] => written
  | item :: rest =>
    writePrettyItems level (writePretty level (written ++ separator ++ indentation level) item) ","
      rest

/-- Writes the fields of a record, each behind a separator and on a line of its own. -/
def writePrettyFields (level : Nat) (written separator : String) :
    List (String × Document) → String
  | [] => written
  | (key, value) :: rest =>
    writePrettyFields level
      (writePretty level (written ++ separator ++ indentation level ++ quoted key ++ ": ") value)
      "," rest

end

/-- The document on many lines. -/
def pretty (document : Document) : String :=
  writePretty 0 "" document

end Document

end Cartridge.Json
