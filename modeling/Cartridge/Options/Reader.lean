/-
This file reads options from JSON text. Fields that are missing take their defaults and
unknown fields are ignored; no known field may be repeated. Records may also be given as
lists of their fields in order. An entry point is the text of an address, a number, or
a record of bank and place.
-/

import Cartridge.Json.Value
import Cartridge.Options

namespace Cartridge

open Json (Value Numeral)

/-- How deep an entry point may nest inside the options, which already hold a record and a
list around it. -/
def entryPointDepth : Nat := 125

/-- Reads an address that is given as a bank and a place. -/
def Address.ofParts? (value : Value) : Option Address := do
  let names := ["bank", "addr"]
  let fields ← value.fields? names
  let bank ← Value.field? fields "bank" (Value.natural? 0xFF)
  let low ← Value.field? fields "addr" (Value.natural? 0xFFFF)
  return ⟨UInt8.ofNat bank, UInt16.ofNat low⟩

/-- Reads an entry point. -/
def Address.ofValue? (value : Value) : Option Address :=
  if value.isSound entryPointDepth then
    match value with
    | .string text => text.bind fun text => Address.read? text.toList
    | .number _ => (value.natural? 0xFFFFFFFF).map Address.ofNat
    | _ => Address.ofParts? value
  else none

/-- Reads a list of entry points. -/
def Address.listOfValue? : Value → Option (List Address)
  | .list items => items.mapM Address.ofValue?
  | _ => none

/-- Reads a span, which has two fields and no other. -/
def Span.ofValue? (value : Value) : Option Span := do
  let names := ["start", "end"]
  let fields ← value.fields? names
  if fields.all fun field => names.contains field.1 then
    let start ← Value.field? fields "start" (Value.natural? Numeral.wordLimit)
    let stop ← Value.field? fields "end" (Value.natural? Numeral.wordLimit)
    return ⟨start, stop⟩
  else none

/-- Reads weights. -/
def Weights.ofValue? (value : Value) : Option Weights := do
  let fields ← value.fields? ["entropy", "density", "padding"]
  let defaults : Weights := {}
  let entropy ← Value.fieldOr? fields "entropy" defaults.entropy Value.float?
  let density ← Value.fieldOr? fields "density" defaults.density Value.float?
  let padding ← Value.fieldOr? fields "padding" defaults.padding Value.float?
  return ⟨entropy, density, padding⟩

namespace Options

/-- The names of the fields, in order. -/
def fieldNames : List String :=
  ["window_size", "max_instructions", "seed_vectors", "seed_regions", "min_region_confidence",
    "instruction_budget", "entry_points", "range", "mapping", "strategy", "parallel", "weights"]

/-- Reads options from a value. -/
def ofValue? (value : Value) : Option Options := do
  let fields ← value.fields? fieldNames
  let word? := Value.natural? Numeral.wordLimit
  let defaults : Options := {}
  let windowSize ← Value.fieldOr? fields "window_size" defaults.windowSize word?
  let maxInstructions ← Value.fieldOr? fields "max_instructions" defaults.maxInstructions word?
  let seedVectors ← Value.fieldOr? fields "seed_vectors" defaults.seedVectors Value.boolean?
  let seedRegions ← Value.fieldOr? fields "seed_regions" defaults.seedRegions Value.boolean?
  let minRegionConfidence ←
    Value.fieldOr? fields "min_region_confidence" defaults.minRegionConfidence Value.float?
  let instructionBudget ← Value.fieldOr? fields "instruction_budget" defaults.instructionBudget
    (Value.orNull? word?)
  let entryPoints ←
    Value.fieldOr? fields "entry_points" defaults.entryPoints Address.listOfValue?
  let range ← Value.fieldOr? fields "range" defaults.range (Value.orNull? Span.ofValue?)
  let layout ← Value.fieldOr? fields "mapping" defaults.layout
    (Value.orNull? (Value.choice? Layout.keyword Layout.all))
  let strategy ← Value.fieldOr? fields "strategy" defaults.strategy
    (Value.choice? Strategy.keyword Strategy.all)
  let parallel ← Value.fieldOr? fields "parallel" defaults.parallel Value.boolean?
  let weights ← Value.fieldOr? fields "weights" defaults.weights Weights.ofValue?
  return ⟨windowSize, maxInstructions, seedVectors, seedRegions, minRegionConfidence,
    instructionBudget, entryPoints, range, layout, strategy, parallel, weights⟩

/-- Reads options from JSON text and checks them. -/
def read (text : String) : Except OptionsError Options :=
  match (Value.read? text).bind ofValue? with
  | none => .error .unreadable
  | some options => match options.fault? with
    | some fault => .error fault
    | none => .ok options

end Options

end Cartridge
