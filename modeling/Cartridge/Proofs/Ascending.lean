/-
This file proves that bringing items into ascending order loses none of them: the result has
the same items, and none of them twice if none came twice. Sorting orders the keys, strictly
if no two items share one; so does merging equal neighbours of sorted items, if no two
different items have the same key. Of items whose keys ascend strictly, those before the item
at a place are the first ones; and there is only one such order of them.
-/

import Cartridge.Ascending
import Mathlib.Data.List.Nodup

namespace Cartridge

/-! ### Runs of equal items -/

section Runs

variable {Item : Type} [BEq Item]

theorem eraseRepsBy_loop_eq (first : Item) (rest done : List Item) :
    List.eraseRepsBy.loop (· == ·) first rest done =
      done.reverse ++ List.eraseRepsBy.loop (· == ·) first rest [] := by
  induction rest generalizing first done with
  | nil => simp [List.eraseRepsBy.loop]
  | cons second rest inductionHypothesis =>
    rw [List.eraseRepsBy.loop, List.eraseRepsBy.loop]
    cases first == second with
    | true => exact inductionHypothesis first done
    | false =>
      show List.eraseRepsBy.loop (· == ·) second rest (first :: done) =
        done.reverse ++ List.eraseRepsBy.loop (· == ·) second rest [first]
      rw [inductionHypothesis, inductionHypothesis second [first]]
      simp

/-- Of two equal neighbours the first one stays. -/
theorem eraseReps_cons_cons (first second : Item) (rest : List Item) :
    (first :: second :: rest).eraseReps =
      if first == second then (first :: rest).eraseReps
      else first :: (second :: rest).eraseReps := by
  rw [List.eraseReps, List.eraseRepsBy, List.eraseRepsBy.loop]
  cases first == second with
  | true => rfl
  | false => exact eraseRepsBy_loop_eq second rest [first]

theorem eraseReps_sublist (items : List Item) : items.eraseReps.Sublist items := by
  match items with
  | [] => exact List.Sublist.refl _
  | [last] => exact List.Sublist.refl _
  | first :: second :: rest =>
    rw [eraseReps_cons_cons]
    split
    · exact (eraseReps_sublist (first :: rest)).trans
        (List.Sublist.cons_cons first (List.sublist_cons_self second rest))
    · exact (eraseReps_sublist (second :: rest)).cons_cons first
termination_by items.length

theorem mem_eraseReps [LawfulBEq Item] {item : Item} (items : List Item) :
    item ∈ items.eraseReps ↔ item ∈ items := by
  match items with
  | [] => exact Iff.rfl
  | [last] => exact Iff.rfl
  | first :: second :: rest =>
    rw [eraseReps_cons_cons]
    split
    · rename_i equal
      rw [mem_eraseReps (first :: rest), ← eq_of_beq equal, List.mem_cons, List.mem_cons,
        List.mem_cons, or_self_left]
    · rw [List.mem_cons, mem_eraseReps (second :: rest), ← List.mem_cons]
termination_by items.length

/-- Items in ascending order of a key that tells them apart ascend strictly once equal
neighbours are merged. -/
theorem pairwise_lt_eraseReps [LawfulBEq Item] {key : Item → Nat} (items : List Item)
    (sorted : items.Pairwise fun first second => key first ≤ key second)
    (apart : ∀ first ∈ items, ∀ second ∈ items, key first = key second → first = second) :
    items.eraseReps.Pairwise fun first second => key first < key second := by
  match items with
  | [] => exact List.Pairwise.nil
  | [last] => exact List.pairwise_singleton _ _
  | first :: second :: rest =>
    obtain ⟨least, sortedRest⟩ := List.pairwise_cons.mp sorted
    rw [eraseReps_cons_cons]
    split
    · have kept : (first :: rest).Sublist (first :: second :: rest) :=
        (List.sublist_cons_self second rest).cons_cons first
      refine pairwise_lt_eraseReps (first :: rest) (sorted.sublist kept) ?_
      exact fun one member other memberOther =>
        apart one (kept.subset member) other (kept.subset memberOther)
    · rename_i differ
      refine List.pairwise_cons.mpr ⟨fun later member => ?_, ?_⟩
      · -- no key lies between those of two neighbours, so a repeated one would be theirs
        have behind := (mem_eraseReps _).mp member
        have next := least second List.mem_cons_self
        have after : key second ≤ key later := by
          rcases List.mem_cons.mp behind with rfl | further
          · exact Nat.le_refl _
          · exact (List.pairwise_cons.mp sortedRest).1 later further
        refine Nat.lt_of_le_of_ne (least later behind) fun same => differ ?_
        rw [beq_iff_eq]
        refine apart first List.mem_cons_self second (List.mem_cons_of_mem _ List.mem_cons_self) ?_
        omega
      · exact pairwise_lt_eraseReps (second :: rest) sortedRest fun one member other memberOther =>
          apart one (List.mem_cons_of_mem _ member) other (List.mem_cons_of_mem _ memberOther)
termination_by items.length

end Runs

/-! ### Ascending order -/

/-- Sorting by a key brings the keys into order. -/
theorem pairwise_le_mergeSort {Item : Type} (key : Item → Nat) (items : List Item) :
    (items.mergeSort fun first second => decide (key first ≤ key second)).Pairwise
      fun first second => key first ≤ key second := by
  refine (List.pairwise_mergeSort ?_ ?_ items).imp of_decide_eq_true
  · intro first second third before after
    rw [decide_eq_true_eq] at before after ⊢
    exact Nat.le_trans before after
  · intro first second
    rw [Bool.or_eq_true, decide_eq_true_eq, decide_eq_true_eq]
    exact Nat.le_total _ _

/-- Sorting by a key that no two items share makes the keys ascend strictly. -/
theorem pairwise_lt_mergeSort {Item : Type} {key : Item → Nat} {items : List Item}
    (once : (items.map key).Nodup) :
    (items.mergeSort fun first second => decide (key first ≤ key second)).Pairwise
      fun first second => key first < key second := by
  have apart := ((List.mergeSort_perm items fun first second =>
    decide (key first ≤ key second)).map key).nodup_iff.mpr once
  refine (pairwise_le_mergeSort key items).imp₂ ?_ (List.pairwise_map.mp apart)
  exact fun first second notAfter differ => Nat.lt_of_le_of_ne notAfter differ

theorem mem_ascending {Item : Type} [BEq Item] [LawfulBEq Item] {key : Item → Nat}
    {items : List Item} {item : Item} : item ∈ ascending key items ↔ item ∈ items := by
  rw [ascending, mem_eraseReps, List.mem_mergeSort]

theorem nodup_ascending {Item : Type} [BEq Item] {key : Item → Nat} {items : List Item}
    (once : items.Nodup) : (ascending key items).Nodup :=
  ((List.mergeSort_perm items _).nodup_iff.mpr once).sublist (eraseReps_sublist _)

theorem filter_lt_eq_take {Item : Type} {key : Item → Nat} {items : List Item} {count : Nat}
    {last : Item} (sorted : items.Pairwise fun first second => key first < key second)
    (here : items[count]? = some last) :
    items.filter (fun item => key item < key last) = items.take count := by
  induction items generalizing count with
  | nil => exact nomatch here
  | cons first rest inductionHypothesis =>
    obtain ⟨least, sortedRest⟩ := List.pairwise_cons.mp sorted
    cases count with
    | zero =>
      obtain rfl := Option.some.inj here
      refine List.filter_eq_nil_iff.mpr fun item member => ?_
      rw [decide_eq_true_eq, Nat.not_lt]
      rcases List.mem_cons.mp member with rfl | later
      · exact Nat.le_refl _
      · exact Nat.le_of_lt (least item later)
    | succ count =>
      have before := least last (List.mem_of_getElem? here)
      rw [List.filter_cons_of_pos (by simpa using before), List.take_succ_cons,
        inductionHypothesis sortedRest here]

theorem nodup_of_pairwise_lt {Item : Type} {key : Item → Nat} {items : List Item}
    (sorted : items.Pairwise fun first second => key first < key second) :
    (items.map key).Nodup :=
  List.pairwise_map.mpr (sorted.imp Nat.ne_of_lt)

/-- The same items in strictly ascending order are the same list. -/
theorem eq_of_pairwise_lt {Item : Type} (key : Item → Nat) {first second : List Item}
    (sortedFirst : first.Pairwise fun one other => key one < key other)
    (sortedSecond : second.Pairwise fun one other => key one < key other)
    (same : ∀ item, item ∈ first ↔ item ∈ second) : first = second := by
  refine List.Perm.eq_of_pairwise ?_ sortedFirst sortedSecond
    ((List.perm_ext_iff_of_nodup (nodup_of_pairwise_lt sortedFirst).of_map
      (nodup_of_pairwise_lt sortedSecond).of_map).mpr same)
  exact fun one other _ _ before after => absurd after (Nat.lt_asymm before)

/-- Where no two items share a key, the item with a key is the only one. -/
theorem find?_key_eq_some_iff {Item : Type} {key : Item → Nat} {items : List Item}
    (once : (items.map key).Nodup) {target : Nat} {item : Item} :
    items.find? (fun item => key item == target) = some item ↔
      item ∈ items ∧ key item = target := by
  constructor
  · intro found
    exact ⟨List.mem_of_find?_eq_some found, by simpa using List.find?_some found⟩
  · rintro ⟨listed, rfl⟩
    cases found : items.find? fun other => key other == key item with
    | none => exact absurd (beq_self_eq_true (key item)) (List.find?_eq_none.mp found item listed)
    | some other =>
      have shared : key other = key item := by simpa using List.find?_some found
      rw [List.inj_on_of_nodup_map once (List.mem_of_find?_eq_some found) listed shared]

end Cartridge
