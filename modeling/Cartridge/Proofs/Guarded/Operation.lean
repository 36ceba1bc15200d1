/-
This file defines computations whose partial operations may fail: arithmetic of a fixed width,
division, and access to a place, a slice or a range that may not exist. Every operation fails
exactly where it has no result, and has one equation that says when it does not fail. A loop
of such computations does not fail either if none of its steps does, from the beginning on.
-/

import Cartridge.Span
import Mathlib.Algebra.Order.Ring.Int

namespace Cartridge

/-- Why a partial operation has no result. -/
inductive Fault where
  /-- A sum, a product or a power does not fit its width. -/
  | overflow
  /-- A difference of numbers without a sign is negative. -/
  | underflow
  /-- A divisor or a step is zero. -/
  | zero
  /-- A place or the end of a slice lies out of bounds, or two slices differ in length. -/
  | outOfBounds
  /-- A range ends before it begins. -/
  | reversed
deriving DecidableEq

/-- A computation whose partial operations may fail. -/
abbrev Guarded := Except Fault

namespace Guarded

/-! ### Arithmetic -/

/-- The sum of two numbers, if it fits in some bits. -/
def add (bits left right : Nat) : Guarded Nat :=
  if left + right < 2 ^ bits then .ok (left + right) else .error .overflow

/-- The product of two numbers, if it fits in some bits. -/
def mul (bits left right : Nat) : Guarded Nat :=
  if left * right < 2 ^ bits then .ok (left * right) else .error .overflow

/-- The difference of two numbers, if it is not negative. -/
def sub (left right : Nat) : Guarded Nat :=
  if right ≤ left then .ok (left - right) else .error .underflow

/-- The quotient of two numbers, if the divisor is not zero. -/
def div (left right : Nat) : Guarded Nat :=
  if right = 0 then .error .zero else .ok (left / right)

/-- The remainder of two numbers, if the divisor is not zero. -/
def mod (left right : Nat) : Guarded Nat :=
  if right = 0 then .error .zero else .ok (left % right)

/-- The quotient of two numbers, rounded up, if the divisor is not zero. -/
def divCeil (left right : Nat) : Guarded Nat :=
  if right = 0 then .error .zero else .ok ((left + right - 1) / right)

/-- The sum of two numbers with signs, if it fits in some bits with a sign. -/
def addSigned (bits : Nat) (left right : Int) : Guarded Int :=
  if -2 ^ (bits - 1) ≤ left + right ∧ left + right < 2 ^ (bits - 1) then .ok (left + right)
  else .error .overflow

theorem add_eq {bits left right : Nat} (fits : left + right < 2 ^ bits) :
    add bits left right = .ok (left + right) :=
  if_pos fits

theorem mul_eq {bits left right : Nat} (fits : left * right < 2 ^ bits) :
    mul bits left right = .ok (left * right) :=
  if_pos fits

theorem sub_eq {left right : Nat} (order : right ≤ left) : sub left right = .ok (left - right) :=
  if_pos order

theorem div_eq {right : Nat} (positive : right ≠ 0) (left : Nat) :
    div left right = .ok (left / right) :=
  if_neg positive

theorem mod_eq {right : Nat} (positive : right ≠ 0) (left : Nat) :
    mod left right = .ok (left % right) :=
  if_neg positive

theorem divCeil_eq {right : Nat} (positive : right ≠ 0) (left : Nat) :
    divCeil left right = .ok ((left + right - 1) / right) :=
  if_neg positive

theorem addSigned_eq {bits : Nat} {left right : Int} (low : -2 ^ (bits - 1) ≤ left + right)
    (high : left + right < 2 ^ (bits - 1)) : addSigned bits left right = .ok (left + right) :=
  if_pos ⟨low, high⟩

/-! ### Places, slices and ranges -/

/-- A place among some items, if there is one. -/
def index (length place : Nat) : Guarded Unit :=
  if place < length then .ok () else .error .outOfBounds

/-- The item at a place, if there is one. -/
def get {Item : Type} (items : Array Item) (place : Nat) : Guarded Item :=
  match items[place]? with
  | some item => .ok item
  | none => .error .outOfBounds

/-- The items from one place up to another, if both places exist in this order. -/
def slice {Item : Type} (items : Array Item) (start stop : Nat) : Guarded (Array Item) :=
  if start ≤ stop ∧ stop ≤ items.size then .ok (items.extract start stop)
  else .error .outOfBounds

/-- Two lengths that have to agree, as when one slice is copied into another. -/
def agree (left right : Nat) : Guarded Unit :=
  if left = right then .ok () else .error .outOfBounds

/-- A range to look something up in, if it does not end before it begins. -/
def interval (start stop : Nat) : Guarded Span :=
  if start ≤ stop then .ok ⟨start, stop⟩ else .error .reversed

/-- The numbers from one up to another in steps, if the step is not zero. -/
def steps (start stop step : Nat) : Guarded (List Nat) :=
  if step = 0 then .error .zero
  else .ok (List.range' start ((stop - start + step - 1) / step) step)

theorem index_eq {length place : Nat} (inside : place < length) : index length place = .ok () :=
  if_pos inside

theorem get_eq {Item : Type} {items : Array Item} {place : Nat} {item : Item}
    (here : items[place]? = some item) : get items place = .ok item := by
  rw [get, here]

theorem exists_get_eq {Item : Type} {items : Array Item} {place : Nat}
    (inside : place < items.size) : ∃ item, get items place = .ok item :=
  ⟨items[place], get_eq (Array.getElem?_eq_getElem inside)⟩

theorem slice_eq {Item : Type} {items : Array Item} {start stop : Nat} (order : start ≤ stop)
    (inside : stop ≤ items.size) : slice items start stop = .ok (items.extract start stop) :=
  if_pos ⟨order, inside⟩

theorem agree_eq {left right : Nat} (same : left = right) : agree left right = .ok () :=
  if_pos same

theorem interval_eq {start stop : Nat} (order : start ≤ stop) :
    interval start stop = .ok ⟨start, stop⟩ :=
  if_pos order

theorem steps_eq {step : Nat} (positive : step ≠ 0) (start stop : Nat) :
    steps start stop step = .ok (List.range' start ((stop - start + step - 1) / step) step) :=
  if_neg positive

/-! ### Sequences and loops -/

section Loops

variable {Item Value Result : Type}

/-- Behind a computation that does not fail, what follows goes on with its value. -/
theorem bind_eq {first : Guarded Value} {value : Value} (same : first = .ok value)
    (next : Value → Guarded Result) : (first >>= next) = next value := by
  rw [same]
  rfl

theorem discard_eq {guarded : Guarded Value} (same : ∃ value, guarded = .ok value) :
    discard guarded = .ok () := by
  obtain ⟨value, rfl⟩ := same
  rfl

/-- Goes through items in turn and keeps what is made of some of them. -/
def gather (make : Item → Guarded (Option Result)) : List Item → Guarded (List Result)
  | [] => return []
  | item :: rest => do
    let made ← make item
    let later ← gather make rest
    return made.toList ++ later

/-- Goes through items in turn and keeps what is made of each. -/
def gatherAll (make : Item → Guarded Result) (items : List Item) : Guarded (List Result) :=
  gather (fun item => do
    let made ← make item
    return some made) items

/-- Goes through items in turn for the sake of the guards alone. -/
def check (guard : Item → Guarded Unit) : List Item → Guarded Unit
  | [] => return ()
  | item :: rest => do
    guard item
    check guard rest

/-- Goes through items in turn with a value that every item changes. -/
def fold (step : Value → Item → Guarded Value) : Value → List Item → Guarded Value
  | value, [] => return value
  | value, item :: rest => do
    let next ← step value item
    fold step next rest

theorem gather_eq {make : Item → Guarded (Option Result)} (total : Item → Option Result)
    {items : List Item} (each : ∀ item ∈ items, make item = .ok (total item)) :
    gather make items = .ok (items.filterMap total) := by
  induction items with
  | nil => rfl
  | cons item rest inductionHypothesis =>
    have later := inductionHypothesis fun other member => each other (List.mem_cons_of_mem _ member)
    rw [gather, bind_eq (each item List.mem_cons_self), bind_eq later, List.filterMap_cons]
    cases total item <;> rfl

theorem gatherAll_eq {make : Item → Guarded Result} (total : Item → Result) {items : List Item}
    (each : ∀ item ∈ items, make item = .ok (total item)) :
    gatherAll make items = .ok (items.map total) := by
  rw [gatherAll, gather_eq (fun item => some (total item)) fun item member => ?_,
    List.filterMap_eq_map']
  rw [bind_eq (each item member)]
  rfl

theorem check_eq {guard : Item → Guarded Unit} {items : List Item}
    (each : ∀ item ∈ items, guard item = .ok ()) : check guard items = .ok () := by
  induction items with
  | nil => rfl
  | cons item rest inductionHypothesis =>
    rw [check, bind_eq (each item List.mem_cons_self)]
    exact inductionHypothesis fun other member => each other (List.mem_cons_of_mem _ member)

/-- A loop does not fail if a property of its value, and of how many items are left, keeps
every step from failing, and every step keeps the property. -/
theorem fold_eq {step : Value → Item → Guarded Value} {total : Value → Item → Value}
    (Holds : Nat → Value → Prop) {items : List Item}
    (each : ∀ left value, Holds (left + 1) value → ∀ item ∈ items,
      step value item = .ok (total value item) ∧ Holds left (total value item))
    {value : Value} (holds : Holds items.length value) :
    fold step value items = .ok (items.foldl total value) ∧ Holds 0 (items.foldl total value) := by
  induction items generalizing value with
  | nil => exact ⟨rfl, holds⟩
  | cons item rest inductionHypothesis =>
    obtain ⟨same, kept⟩ := each rest.length value holds item List.mem_cons_self
    rw [fold, bind_eq same, List.foldl_cons]
    exact inductionHypothesis (fun left other known later member =>
      each left other known later (List.mem_cons_of_mem _ member)) kept

end Loops

end Guarded

end Cartridge
