/-
This file looks items up by halving a list whose keys ascend. Halving compares the key in the
middle only and drops one part unseen, so it may miss items of a list in another order; where
the keys ascend strictly, no item of the part that is dropped has the key looked for, and the
result is that of asking every item.
-/

namespace Cartridge

variable {Item : Type}

/-- The item with a given key, found by halving the list until one item is left. -/
def bisect? (key : Item → Nat) (target : Nat) (items : List Item) : Option Item :=
  if short : items.length ≤ 1 then items.head?.filter fun item => key item == target
  else
    have within : items.length / 2 < items.length := by omega
    if target < key items[items.length / 2] then
      bisect? key target (items.take (items.length - items.length / 2))
    else bisect? key target (items.drop (items.length / 2))
termination_by items.length
decreasing_by
  · rw [List.length_take]
    omega
  · rw [List.length_drop]
    omega

section Parts

variable {key : Item → Nat} {target : Nat} {items : List Item} {count : Nat}

/-- An item whose key the first part does not have is looked for in the rest. -/
theorem find?_eq_find?_drop
    (missing : ∀ index (before : index < items.length), index < count → key items[index] ≠ target) :
    items.find? (fun item => key item == target) =
      (items.drop count).find? fun item => key item == target := by
  have nothing : (items.take count).find? (fun item => key item == target) = none := by
    refine List.find?_eq_none.mpr fun item member => ?_
    obtain ⟨index, before, rfl⟩ := List.mem_take_iff_getElem.mp member
    rw [beq_iff_eq]
    exact missing index (by omega) (by omega)
  calc items.find? (fun item => key item == target)
      = (items.take count ++ items.drop count).find? fun item => key item == target := by
        rw [List.take_append_drop]
    _ = (items.drop count).find? fun item => key item == target := by
        rw [List.find?_append, nothing, Option.none_or]

/-- An item whose key the rest does not have is looked for in the first part. -/
theorem find?_eq_find?_take
    (missing : ∀ index (before : index < items.length), count ≤ index → key items[index] ≠ target) :
    items.find? (fun item => key item == target) =
      (items.take count).find? fun item => key item == target := by
  have nothing : (items.drop count).find? (fun item => key item == target) = none := by
    refine List.find?_eq_none.mpr fun item member => ?_
    obtain ⟨index, before, rfl⟩ := List.mem_drop_iff_getElem.mp member
    rw [beq_iff_eq]
    exact missing (count + index) (by omega) (Nat.le_add_right _ _)
  calc items.find? (fun item => key item == target)
      = (items.take count ++ items.drop count).find? fun item => key item == target := by
        rw [List.take_append_drop]
    _ = (items.take count).find? fun item => key item == target := by
        rw [List.find?_append, nothing, Option.or_none]

end Parts

/-- In a list whose keys ascend strictly, halving finds what asking every item finds. -/
theorem bisect?_eq_find? {key : Item → Nat} {items : List Item}
    (sorted : items.Pairwise fun first second => key first < key second) (target : Nat) :
    bisect? key target items = items.find? fun item => key item == target := by
  fun_induction bisect? key target items with
  | case1 items short =>
    match items, short with
    | [], _ => rfl
    | [only], _ => simp [Option.filter, List.find?_singleton]
  | case2 items long within below inductionHypothesis =>
    rw [inductionHypothesis (sorted.sublist (List.take_sublist _ _))]
    refine (find?_eq_find?_take fun index before behind => ?_).symm
    have notBefore : key items[items.length / 2] ≤ key items[index] := by
      rcases Nat.eq_or_lt_of_le (show items.length / 2 ≤ index by omega) with same | later
      · simp only [same, Nat.le_refl]
      · exact Nat.le_of_lt (List.pairwise_iff_getElem.mp sorted _ _ within before later)
    omega
  | case3 items long within notBelow inductionHypothesis =>
    rw [inductionHypothesis (sorted.sublist (List.drop_sublist _ _))]
    refine (find?_eq_find?_drop fun index before ahead => ?_).symm
    have order := List.pairwise_iff_getElem.mp sorted index (items.length / 2) before within ahead
    omega

end Cartridge
