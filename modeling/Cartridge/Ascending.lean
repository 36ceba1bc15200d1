/-
This file brings items into ascending order and keeps each of them once. Addresses,
offsets and cross references are reported this way, whatever the order in which they
were found.
-/

namespace Cartridge

/-- The items in ascending order of their keys, each once. Items with the same key have to be
the same item. -/
def ascending {Item : Type} [BEq Item] (key : Item → Nat) (items : List Item) : List Item :=
  (items.mergeSort fun first second => key first ≤ key second).eraseReps

theorem ascending_nil {Item : Type} [BEq Item] (key : Item → Nat) :
    ascending key ([] : List Item) = [] := by
  rw [ascending, List.mergeSort_nil]
  rfl

end Cartridge
