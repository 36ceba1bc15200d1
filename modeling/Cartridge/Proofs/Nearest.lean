/-
This file says which entries the nearest ones of a map are. A map hands out its entries in the
order of their keys, and looking for the nearest entry below a bound, or above it, is searching
this list from its end, or from its front. What a search finds in an ordered list stands before
everything else that it could have found. So an entry is the nearest one exactly if it is in the
map, keeps the bound, and no key between the two is in the map.
-/

import Cartridge.Span
import Std.Data.TreeMap.Lemmas

namespace Cartridge

/-- A search finds an item of an ordered list exactly if the item passes the test and stands
before all others that do. -/
theorem find?_eq_some_iff_of_pairwise {Item : Type} {Before : Item → Item → Prop}
    (asymmetric : ∀ first second, Before first second → ¬Before second first)
    {items : List Item} (ordered : items.Pairwise Before) {test : Item → Bool} {item : Item} :
    items.find? test = some item ↔ item ∈ items ∧ test item = true ∧
      ∀ other ∈ items, test other = true → other = item ∨ Before item other := by
  have first {found : Item} (search : items.find? test = some found) :
      ∀ other ∈ items, test other = true → other = found ∨ Before found other := by
    obtain ⟨-, front, rest, rfl, failing⟩ := List.find?_eq_some_iff_append.mp search
    obtain ⟨-, behind, -⟩ := List.pairwise_append.mp ordered
    intro other member passes
    rcases List.mem_append.mp member with early | late
    · exact absurd passes (by simpa using failing other early)
    · rcases List.mem_cons.mp late with same | further
      · exact Or.inl same
      · exact Or.inr ((List.pairwise_cons.mp behind).1 other further)
  constructor
  · intro search
    exact ⟨List.mem_of_find?_eq_some search, List.find?_some search, first search⟩
  · rintro ⟨member, passes, before⟩
    obtain ⟨found, search⟩ := Option.isSome_iff_exists.mp
      (List.find?_isSome.mpr ⟨item, member, passes⟩)
    rw [search]
    rcases before found (List.mem_of_find?_eq_some search) (List.find?_some search) with
      same | ahead
    · rw [same]
    · rcases first search item member passes with same | behind
      · rw [same]
      · exact absurd behind (asymmetric _ _ ahead)

/-! ### Entries of a map -/

section Entries

variable {Value : Type} {map : Std.TreeMap Nat Value} {bound place : Nat} {value : Value}

theorem pairwise_lt_toList (map : Std.TreeMap Nat Value) :
    map.toList.Pairwise fun first second => first.1 < second.1 :=
  Std.TreeMap.ordered_keys_toList.imp Nat.compare_eq_lt.mp

theorem contains_iff_exists : map.contains place = true ↔ ∃ value, map[place]? = some value := by
  rw [← Std.TreeMap.isSome_getElem?_eq_contains, Option.isSome_iff_exists]

/-- Searching the entries from their end finds the last key that passes the test. -/
theorem find?_reverse_toList_eq_some_iff (test : Nat → Bool) :
    (map.toList.reverse.find? fun entry => test entry.1) = some (place, value) ↔
      map[place]? = some value ∧ test place = true ∧
        ∀ later, place < later → test later = true → map[later]? = none := by
  rw [find?_eq_some_iff_of_pairwise (fun _ _ => Nat.lt_asymm)
    (List.pairwise_reverse.mpr (pairwise_lt_toList map)), List.mem_reverse,
    Std.TreeMap.mem_toList_iff_getElem?_eq_some]
  refine and_congr_right fun look => and_congr_right fun passes => ?_
  constructor
  · intro last later behind passesToo
    refine Option.eq_none_iff_forall_not_mem.mpr fun other found => ?_
    have listed := Std.TreeMap.mem_toList_iff_getElem?_eq_some.mpr found
    rcases last (later, other) (List.mem_reverse.mpr listed) passesToo with same | ahead
    · exact Nat.ne_of_gt behind (congrArg Prod.fst same)
    · exact Nat.lt_asymm behind ahead
  · rintro free ⟨other, held⟩ member passesToo
    have found := Std.TreeMap.mem_toList_iff_getElem?_eq_some.mp (List.mem_reverse.mp member)
    rcases Nat.lt_trichotomy other place with ahead | rfl | behind
    · exact Or.inr ahead
    · rw [look] at found
      exact Or.inl (by rw [Option.some.inj found])
    · exact nomatch (free other behind passesToo).symm.trans found

/-! ### Below a bound -/

section

open Std.DTreeMap.Internal

/-- Searching the entries of a map from their end is searching its tree from the right. -/
theorem findRev?_toListModel (map : Std.TreeMap Nat Value) (test : Nat → Bool) :
    (map.inner.inner.toListModel.findRev? fun entry => test entry.1).map
      (fun entry => (entry.1, entry.2)) =
        map.toList.reverse.find? fun entry => test entry.1 := by
  show _ = (Impl.Const.toList map.inner.inner).reverse.find? _
  rw [Impl.Const.toList_eq_toListModel_map, List.findRev?_eq_find?_reverse, ← List.map_reverse,
    List.find?_map]
  rfl

/-- The nearest entry at or before a bound. -/
theorem getEntryLE?_eq_some_iff :
    map.getEntryLE? bound = some (place, value) ↔ map[place]? = some value ∧ place ≤ bound ∧
      ∀ between, place < between → between ≤ bound → map[between]? = none := by
  have search : map.getEntryLE? bound =
      map.toList.reverse.find? fun entry => (compare entry.1 bound).isLE := by
    rw [← findRev?_toListModel map fun key => (compare key bound).isLE,
      ← Impl.getEntryLE?_eq_findRev? map.inner.wf.ordered]
    exact Impl.Const.getEntryLE?_eq_map
  rw [search, find?_reverse_toList_eq_some_iff fun key => (compare key bound).isLE]
  simp only [Nat.isLE_compare]

/-- The nearest entry before a bound. -/
theorem getEntryLT?_eq_some_iff :
    map.getEntryLT? bound = some (place, value) ↔ map[place]? = some value ∧ place < bound ∧
      ∀ between, place < between → between < bound → map[between]? = none := by
  have search : map.getEntryLT? bound =
      map.toList.reverse.find? fun entry => (compare entry.1 bound).isLT := by
    rw [← findRev?_toListModel map fun key => (compare key bound).isLT,
      ← Impl.getEntryLT?_eq_findRev? map.inner.wf.ordered]
    exact Impl.Const.getEntryLT?_eq_map
  rw [search, find?_reverse_toList_eq_some_iff fun key => (compare key bound).isLT]
  simp only [Ordering.isLT_iff_eq_lt, Nat.compare_eq_lt]

/-! ### Above a bound -/

theorem getEntryGE?_eq_find? (map : Std.TreeMap Nat Value) (bound : Nat) :
    map.getEntryGE? bound = map.toList.find? fun entry => decide (bound ≤ entry.1) := by
  have bounded : (fun entry : Nat × Value => decide (bound ≤ entry.1)) =
      fun entry => (compare entry.1 bound).isGE :=
    funext fun entry => Bool.eq_iff_iff.mpr (decide_eq_true_iff.trans Nat.isGE_compare.symm)
  show Impl.Const.getEntryGE? bound map.inner.inner =
    (Impl.Const.toList map.inner.inner).find? _
  rw [Impl.Const.getEntryGE?_eq_map, Impl.getEntryGE?_eq_find? map.inner.wf.ordered,
    Impl.Const.toList_eq_toListModel_map, List.find?_map, bounded]
  rfl

end

/-- A map has a key in a span exactly if some offset of the span is one. -/
theorem Span.hasKey_iff {span : Span} : span.hasKey map = true ↔
    ∃ offset, span.contains offset = true ∧ map.contains offset = true := by
  rw [hasKey, Option.any_eq_true, getEntryGE?_eq_find?]
  constructor
  · rintro ⟨⟨first, held⟩, search, before⟩
    have listed := List.mem_of_find?_eq_some search
    have look := Std.TreeMap.mem_toList_iff_getElem?_eq_some.mp listed
    have behind : span.start ≤ first := by simpa using List.find?_some search
    exact ⟨first, (span.contains_iff first).mpr ⟨behind, of_decide_eq_true before⟩,
      contains_iff_exists.mpr ⟨held, look⟩⟩
  · rintro ⟨offset, inside, known⟩
    obtain ⟨low, high⟩ := (span.contains_iff offset).mp inside
    obtain ⟨held, look⟩ := contains_iff_exists.mp known
    have listed := Std.TreeMap.mem_toList_iff_getElem?_eq_some.mpr look
    have begins : (map.toList.find? fun entry => decide (span.start ≤ entry.1)).isSome = true :=
      List.find?_isSome.mpr ⟨_, listed, decide_eq_true low⟩
    obtain ⟨first, search⟩ := Option.isSome_iff_exists.mp begins
    refine ⟨first, search, decide_eq_true ?_⟩
    rcases ((find?_eq_some_iff_of_pairwise (fun _ _ => Nat.lt_asymm)
      (pairwise_lt_toList map)).mp search).2.2 _ listed (decide_eq_true low) with same | behind
    · rwa [← same]
    · exact Nat.lt_trans behind high

end Entries

end Cartridge
