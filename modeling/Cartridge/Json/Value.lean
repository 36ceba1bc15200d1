/-
This file defines JSON values as they are read and builds them from tokens. The
builder is a machine that takes one token at a time and keeps the unfinished lists and
records on a stack of its own, so a text may nest as deeply as it likes. Records keep
their fields in order and keep repeated ones; what they mean is for the reader of the
record to say.
-/

import Cartridge.Json.Token

namespace Cartridge.Json

/-- A JSON value. -/
inductive Value where
  | null
  | boolean (value : Bool)
  | number (numeral : Numeral)
  /-- A string; it has no text if it holds half a surrogate pair. -/
  | string (text : Option String)
  | list (items : List Value)
  | record (fields : List (Option String × Value))

/-! ### Building -/

/-- An unfinished list or record, its parts newest first. -/
inductive Frame where
  | list (items : List Value)
  | record (fields : List (Option String × Value))
  /-- A record whose next value belongs to a key. -/
  | keyed (fields : List (Option String × Value)) (key : Option String)

/-- What may come next. -/
inductive Expectation where
  /-- A value, or the end of the list if it is still empty. -/
  | value (mayClose : Bool)
  /-- A key, or the end of the record if it is still empty. -/
  | key (mayClose : Bool)
  /-- A colon. -/
  | colon
  /-- A comma or the end of a list or record. -/
  | separator
  /-- Nothing more: the value is complete. -/
  | nothing (value : Value)

/-- The state of the builder. -/
structure Builder where
  stack : List Frame
  expectation : Expectation

namespace Builder

/-- The state before the first token. -/
def start : Builder :=
  ⟨[], .value false⟩

/-- Puts a complete value where it belongs. -/
def complete (value : Value) : List Frame → Option Builder
  | [] => some ⟨[], .nothing value⟩
  | .list items :: outer => some ⟨.list (value :: items) :: outer, .separator⟩
  | .keyed fields key :: outer => some ⟨.record ((key, value) :: fields) :: outer, .separator⟩
  | .record _ :: _ => none

/-- Closes the innermost list. -/
def closeList : List Frame → Option Builder
  | .list items :: outer => complete (.list items.reverse) outer
  | _ => none

/-- Closes the innermost record. -/
def closeRecord : List Frame → Option Builder
  | .record fields :: outer => complete (.record fields.reverse) outer
  | _ => none

/-- Takes the first token of a value. -/
def takeValue (stack : List Frame) : Token → Option Builder
  | .openList => some ⟨.list [] :: stack, .value true⟩
  | .openRecord => some ⟨.record [] :: stack, .key true⟩
  | .null => complete .null stack
  | .boolean value => complete (.boolean value) stack
  | .number numeral => complete (.number numeral) stack
  | .string text => complete (.string text) stack
  | _ => none

/-- Takes one token. -/
def take (builder : Builder) (token : Token) : Option Builder :=
  match builder.expectation with
  | .value mayClose => match token with
    | .closeList => if mayClose then closeList builder.stack else none
    | _ => takeValue builder.stack token
  | .key mayClose => match token, builder.stack with
    | .closeRecord, stack => if mayClose then closeRecord stack else none
    | .string key, .record fields :: outer => some ⟨.keyed fields key :: outer, .colon⟩
    | _, _ => none
  | .colon => match token with
    | .colon => some ⟨builder.stack, .value false⟩
    | _ => none
  | .separator => match token, builder.stack with
    | .comma, .list _ :: _ => some ⟨builder.stack, .value false⟩
    | .comma, .record _ :: _ => some ⟨builder.stack, .key false⟩
    | .closeList, stack => closeList stack
    | .closeRecord, stack => closeRecord stack
    | _, _ => none
  | .nothing _ => none

end Builder

/-- The value that tokens spell. -/
def Value.ofTokens? (tokens : List Token) : Option Value := do
  let builder ← tokens.foldlM Builder.take Builder.start
  match builder.expectation with
  | .nothing value => some value
  | _ => none

/-- The value that a text spells. -/
def Value.read? (text : String) : Option Value := do
  let tokens ← tokens? text.toList
  Value.ofTokens? tokens

/-! ### Taking values apart -/

namespace Value

/-- Whether a value nests at most `depth` lists and records, its strings all have a text and
its numbers are all in range. -/
def isSound : (depth : Nat) → Value → Bool
  | _, .null | _, .boolean _ => true
  | _, .number numeral => numeral.float?.isSome
  | _, .string text => text.isSome
  | 0, .list _ | 0, .record _ => false
  | depth + 1, .list items => items.all (isSound depth)
  | depth + 1, .record fields =>
    fields.all fun field => field.1.isSome && isSound depth field.2

/-- A natural number up to a limit. -/
def natural? (limit : Nat) : Value → Option Nat
  | .number numeral => numeral.natural?.filter (· ≤ limit)
  | _ => none

/-- A floating-point number. -/
def float? : Value → Option Float
  | .number numeral => numeral.float?
  | _ => none

/-- A truth value. -/
def boolean? : Value → Option Bool
  | .boolean value => some value
  | _ => none

/-- The text of a string. -/
def text? : Value → Option String
  | .string text => text
  | _ => none

/-- A value that may be null. -/
def orNull? {Result : Type} (read? : Value → Option Result) : Value → Option (Option Result)
  | .null => some none
  | value => (read? value).map some

/-- A name that stands alone, or as the only key of a record, with null. -/
def name? : Value → Option String
  | .string text => text
  | .record [(key, .null)] => key
  | _ => none

/-- One of several named things. -/
def choice? {Item : Type} (nameOf : Item → String) (items : List Item) (value : Value) :
    Option Item := do
  let name ← value.name?
  items.find? fun item => nameOf item == name

/-- The named fields of a value. A list gives the values of the first of `names` in order and
may not be longer than they are; a record may repeat none of `names`. -/
def fields? (names : List String) : Value → Option (List (String × Value))
  | .list items => if items.length ≤ names.length then some (names.zip items) else none
  | .record fields => do
    let named ← fields.mapM fun field => field.1.map fun key => (key, field.2)
    if names.all fun name => (named.filter fun field => field.1 == name).length ≤ 1 then
      some named
    else none
  | _ => none

/-- The value of a field, or a default if it is missing. -/
def fieldOr? {Result : Type} (fields : List (String × Value)) (name : String) (default : Result)
    (read? : Value → Option Result) : Option Result :=
  match fields.lookup name with
  | some value => read? value
  | none => some default

/-- The value of a field that must be there. -/
def field? {Result : Type} (fields : List (String × Value)) (name : String)
    (read? : Value → Option Result) : Option Result := do
  let value ← fields.lookup name
  read? value

end Value

end Cartridge.Json
