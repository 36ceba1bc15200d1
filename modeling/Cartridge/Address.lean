/-
This file defines the 24-bit address that the processor puts on the bus: a bank and
a 16-bit place in it. It gives the arithmetic that stays inside a bank, the written
form `$BB:AAAA`, the names of routines and branch targets made from an address, and
the reader, which accepts the written form with or without its dollar and colon and
a bank-zero form of four digits.
-/

import Cartridge.Text.Hex
import Cartridge.Text.Blank

namespace Cartridge

/-- A 24-bit bus address, split into a bank and a place in the bank. -/
structure Address where
  /-- The upper eight bits. -/
  bank : UInt8
  /-- The lower sixteen bits. -/
  low : UInt16
deriving DecidableEq

namespace Address

/-! ### Arithmetic -/

/-- Splits a number; its bits above the twenty-fourth are dropped. -/
def ofNat (value : Nat) : Address :=
  ⟨UInt8.ofNat (value / 0x10000), UInt16.ofNat value⟩

/-- The 24-bit value of an address. -/
def toNat (address : Address) : Nat :=
  address.bank.toNat * 0x10000 + address.low.toNat

/-- The address moved by `delta` inside its bank; the place wraps at either end. -/
def advance (address : Address) (delta : Int) : Address :=
  { address with low := UInt16.ofNat ((address.low.toNat + delta) % 0x10000).toNat }

theorem ofNat_toNat (address : Address) : ofNat address.toNat = address := by
  have bankBound := address.bank.toNat_lt
  have lowBound := address.low.toNat_lt
  obtain ⟨bank, low⟩ := address
  simp only [ofNat, toNat, Address.mk.injEq] at *
  constructor
  · apply UInt8.toNat_inj.mp
    rw [UInt8.toNat_ofNat']
    omega
  · apply UInt16.toNat_inj.mp
    rw [UInt16.toNat_ofNat']
    omega

theorem toNat_injective {first second : Address} (same : first.toNat = second.toNat) :
    first = second := by
  rw [← ofNat_toNat first, ← ofNat_toNat second, same]

@[simp]
theorem bank_advance (address : Address) (delta : Int) :
    (address.advance delta).bank = address.bank := rfl

/-! ### Writing -/

/-- The written form: a dollar, two digits of bank, a colon and four digits of place. -/
def text (address : Address) : String :=
  "$" ++ Hex.fixed 2 address.bank.toNat ++ ":" ++ Hex.fixed 4 address.low.toNat

/-- The name of the routine that starts at an address. -/
def routineName (address : Address) : String :=
  "sub_" ++ Hex.fixed 2 address.bank.toNat ++ "_" ++ Hex.fixed 4 address.low.toNat

/-- The name of the branch target at an address. -/
def labelName (address : Address) : String :=
  "loc_" ++ Hex.fixed 2 address.bank.toNat ++ "_" ++ Hex.fixed 4 address.low.toNat

/-- The digits of an address, with the same texts around them, tell the address. -/
theorem eq_of_written_eq {opening separator : String} {first second : Address}
    (same : opening ++ Hex.fixed 2 first.bank.toNat ++ separator ++ Hex.fixed 4 first.low.toNat =
      opening ++ Hex.fixed 2 second.bank.toNat ++ separator ++ Hex.fixed 4 second.low.toNat) :
    first = second := by
  have characters := congrArg String.toList same
  simp only [String.toList_append, Hex.fixed, String.toList_ofList, List.append_assoc,
    List.append_cancel_left_eq] at characters
  obtain ⟨bankDigits, rest⟩ := List.append_inj characters (by simp)
  have lowDigits := List.append_cancel_left rest
  have bank := Hex.eq_of_fixedDigits_eq first.bank.toNat_lt second.bank.toNat_lt bankDigits
  have low := Hex.eq_of_fixedDigits_eq first.low.toNat_lt second.low.toNat_lt lowDigits
  apply toNat_injective
  rw [toNat, toNat, bank, low]

theorem routineName_injective {first second : Address}
    (same : first.routineName = second.routineName) : first = second :=
  eq_of_written_eq same

theorem labelName_injective {first second : Address}
    (same : first.labelName = second.labelName) : first = second :=
  eq_of_written_eq same

/-- No routine has the name of a branch target. -/
theorem routineName_ne_labelName (first second : Address) :
    first.routineName ≠ second.labelName := by
  intro same
  have characters := congrArg String.toList same
  simp [routineName, labelName] at characters

/-! ### Reading -/

/-- The number of bytes a text takes in UTF-8. -/
def byteLength : List Char → Nat
  | [] => 0
  | character :: rest => character.utf8Size + byteLength rest

/-- The text without one dollar at its start. -/
def dropDollar : List Char → List Char
  | '$' :: rest => rest
  | text => text

/-- Reads a bank and a place that a colon separates. -/
def readSplit? (bank low : List Char) : Option Address := do
  let bank ← Hex.numeral? 0xFF bank
  let low ← Hex.numeral? 0xFFFF low
  return ⟨UInt8.ofNat bank, UInt16.ofNat low⟩

/-- Reads an address written without a colon: six bytes give the bank too, four leave
it at zero, and no other length is an address. -/
def readPlain? (text : List Char) : Option Address :=
  if byteLength text = 6 then (Hex.numeral? 0xFFFFFFFF text).map ofNat
  else if byteLength text = 4 then
    (Hex.numeral? 0xFFFF text).map fun low => ⟨0, UInt16.ofNat low⟩
  else none

/-- Reads an address between blanks. -/
def read? (text : List Char) : Option Address :=
  let body := dropDollar (Blank.trim text)
  match body.dropWhile (· != ':') with
  | [] => readPlain? body
  | _ :: low => readSplit? (body.takeWhile (· != ':')) low

end Address

end Cartridge
