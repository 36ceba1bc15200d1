/-
This file compares the checksum of an image with the sum of the mirrored image. The bytes behind
the largest power of two are mirrored up to the next power of two: they are repeated, and the last
repetition stops where the next power of two is reached, be it whole or not.

The checksum counts the whole repetitions only. So it falls short of the mirrored sum by the bytes
of a repetition that is cut off, and the two are the same exactly if the sum of these bytes is a
multiple of `0x10000`. That is so in particular if there are none, because the length of the
repeated part divides the power of two.

The sums may be taken in words of thirty-two bits that wrap, since the checksum keeps sixteen.
-/

import Cartridge.Checksum
import Mathlib.Algebra.Ring.Nat

namespace Cartridge

/-! ### Repeated lists -/

/-- The first elements of a list that is repeated without end, as many as asked for. -/
def cycled {Item : Type} (items : List Item) (count : Nat) : List Item :=
  (List.range count).filterMap fun index => items[index % items.length]?

section Cycled

variable {Item : Type} (items : List Item)

theorem cycled_succ (count : Nat) :
    cycled items (count + 1) = cycled items count ++ items[count % items.length]?.toList := by
  rw [cycled, List.range_succ, List.filterMap_append, ← cycled, List.filterMap_cons]
  cases items[count % items.length]? <;> rfl

theorem cycled_add (count : Nat) :
    cycled items (items.length + count) = cycled items items.length ++ cycled items count := by
  have again : (fun index => items[(items.length + index) % items.length]?) =
      fun index => items[index % items.length]? := by
    funext index
    rw [Nat.add_mod_left]
  rw [cycled, List.range_add, List.filterMap_append, List.filterMap_map]
  exact congrArg _ (congrArg (List.filterMap · _) again)

theorem length_cycled (nonempty : items ≠ []) (count : Nat) :
    (cycled items count).length = count := by
  induction count with
  | zero => rfl
  | succ count inductionHypothesis =>
    have inside := Nat.mod_lt count (List.length_pos_iff.mpr nonempty)
    rw [cycled_succ, List.length_append, inductionHypothesis, List.getElem?_eq_getElem inside]
    rfl

/-- Up to its own length, a repeated list is the list itself. -/
theorem cycled_of_le {count : Nat} (short : count ≤ items.length) :
    cycled items count = items.take count := by
  induction count with
  | zero => rfl
  | succ count inductionHypothesis =>
    rw [cycled_succ, inductionHypothesis (Nat.le_of_succ_le short), Nat.mod_eq_of_lt short,
      List.take_add_one]

end Cycled

/-! ### Sums of bytes -/

/-- The sum of some bytes. -/
def sumOf (bytes : List UInt8) : Nat :=
  (bytes.map UInt8.toNat).sum

theorem foldl_add_eq_sumOf (bytes : List UInt8) (total : Nat) :
    bytes.foldl (fun total byte => total + byte.toNat) total = total + sumOf bytes := by
  induction bytes generalizing total with
  | nil => rfl
  | cons byte rest inductionHypothesis =>
    rw [List.foldl_cons, inductionHypothesis, Nat.add_assoc]
    rfl

theorem sumOf_append (first second : List UInt8) :
    sumOf (first ++ second) = sumOf first + sumOf second := by
  rw [sumOf, List.map_append, List.sum_append]
  rfl

theorem sumOf_cycled_add (bytes : List UInt8) (whole : Nat) {rest : Nat}
    (short : rest ≤ bytes.length) :
    sumOf (cycled bytes (bytes.length * whole + rest)) =
      sumOf bytes * whole + sumOf (bytes.take rest) := by
  induction whole with
  | zero =>
    rw [Nat.mul_zero, Nat.zero_add, cycled_of_le bytes short, Nat.mul_zero, Nat.zero_add]
  | succ whole inductionHypothesis =>
    have once : cycled bytes bytes.length = bytes := by
      rw [cycled_of_le bytes (Nat.le_refl _), List.take_length]
    rw [Nat.mul_succ, Nat.add_comm _ bytes.length, Nat.add_assoc, cycled_add, once, sumOf_append,
      inductionHypothesis, Nat.mul_succ, Nat.add_comm _ (sumOf bytes), Nat.add_assoc]

/-- The repetitions that are whole, and as much of the last one as is left. -/
theorem sumOf_cycled (bytes : List UInt8) (count : Nat) :
    sumOf (cycled bytes count) =
      sumOf bytes * (count / bytes.length) + sumOf (bytes.take (count % bytes.length)) := by
  cases bytes with
  | nil =>
    have nothing : cycled ([] : List UInt8) count = [] := by
      simp [cycled]
    rw [nothing, List.take_nil]
    simp [sumOf]
  | cons byte rest =>
    have short := Nat.mod_lt count (List.length_pos_iff.mpr (List.cons_ne_nil byte rest))
    have split := sumOf_cycled_add (byte :: rest) (count / (byte :: rest).length)
      (Nat.le_of_lt short)
    rwa [Nat.div_add_mod] at split

theorem ofNat_eq_zero_iff (value : Nat) : UInt16.ofNat value = 0 ↔ 0x10000 ∣ value := by
  rw [← UInt16.toNat_inj, UInt16.toNat_ofNat']
  exact Nat.dvd_iff_mod_eq_zero.symm

namespace Image

variable (image : Image)

theorem byteSum_eq_sumOf (start stop : Nat) :
    image.byteSum start stop = sumOf ((image.bytes.toList.drop start).take (stop - start)) := by
  rw [byteSum, Array.foldl_eq_foldl_extract, ← Array.foldl_toList, Array.toList_extract,
    List.extract_eq_take_drop, foldl_add_eq_sumOf, Nat.zero_add]

/-! ### The mirrored image -/

/-- The bytes in front of a power of two. -/
def head (power : Nat) : List UInt8 :=
  image.bytes.toList.take power

/-- The bytes from a power of two on. -/
def tail (power : Nat) : List UInt8 :=
  image.bytes.toList.drop power

/-- The image with the bytes behind a power of two mirrored up to the next one. -/
def mirrored (power : Nat) : List UInt8 :=
  image.head power ++ cycled (image.tail power) power

/-- The bytes of the last repetition, if it is cut off. -/
def remnant (power : Nat) : List UInt8 :=
  (image.tail power).take (power % (image.tail power).length)

theorem length_tail (power : Nat) : (image.tail power).length = image.size - power := by
  rw [tail, List.length_drop, Array.length_toList]
  rfl

/-- Mirroring fills an image up to the next power of two, unless its length is a power of two. -/
theorem length_mirrored {exponent : Nat} (exceeds : 2 ^ exponent < image.size) :
    (image.mirrored (2 ^ exponent)).length = 2 ^ (exponent + 1) := by
  have nonempty : image.tail (2 ^ exponent) ≠ [] := by
    rw [← List.length_pos_iff, length_tail]
    exact Nat.sub_pos_of_lt exceeds
  have whole : (image.head (2 ^ exponent)).length = 2 ^ exponent := by
    rw [head, List.length_take, Array.length_toList]
    exact Nat.min_eq_left (Nat.le_of_lt exceeds)
  rw [mirrored, List.length_append, whole, length_cycled _ nonempty, Nat.pow_succ, Nat.mul_two]

theorem sumOf_mirrored (power : Nat) : sumOf (image.mirrored power) =
    sumOf (image.head power) +
        sumOf (image.tail power) * (power / (image.tail power).length) +
      sumOf (image.remnant power) := by
  rw [mirrored, sumOf_append, sumOf_cycled, remnant, Nat.add_assoc]

/-! ### The checksum -/

theorem powerPart_eq {exponent : Nat} (fits : 2 ^ exponent ≤ image.size)
    (exceeds : image.size < 2 ^ (exponent + 1)) : image.powerPart = 2 ^ exponent := by
  have nonempty : image.size ≠ 0 :=
    Nat.ne_of_gt (Nat.lt_of_lt_of_le (Nat.two_pow_pos exponent) fits)
  rw [powerPart, (Nat.log2_eq_iff nonempty).mpr ⟨fits, exceeds⟩]
  rfl

/-- The checksum counts the bytes from the power of two on as often as they fit into it. -/
theorem checksum_eq (nonempty : image.size ≠ 0) :
    image.checksum = UInt16.ofNat (sumOf (image.head image.powerPart) +
      sumOf (image.tail image.powerPart) *
        (image.powerPart / (image.tail image.powerPart).length)) := by
  have front : image.byteSum 0 image.powerPart = sumOf (image.head image.powerPart) := by
    rw [byteSum_eq_sumOf, Nat.sub_zero, List.drop_zero, head]
  have back : image.byteSum image.powerPart image.size =
      sumOf (image.tail image.powerPart) := by
    rw [byteSum_eq_sumOf, ← length_tail, tail, List.take_length]
  rw [checksum, if_neg nonempty, ← front, ← back, length_tail]

/-- With the bytes of the repetition that is cut off, the checksum is the sum of the mirrored
image; without them it is exactly if their sum is a multiple of `0x10000`. -/
theorem mirrored_eq_checksum_add {exponent : Nat} (fits : 2 ^ exponent ≤ image.size)
    (exceeds : image.size < 2 ^ (exponent + 1)) :
    UInt16.ofNat (sumOf (image.mirrored (2 ^ exponent))) =
        image.checksum + UInt16.ofNat (sumOf (image.remnant (2 ^ exponent))) ∧
      (image.checksum = UInt16.ofNat (sumOf (image.mirrored (2 ^ exponent))) ↔
        0x10000 ∣ sumOf (image.remnant (2 ^ exponent))) := by
  have nonempty : image.size ≠ 0 :=
    Nat.ne_of_gt (Nat.lt_of_lt_of_le (Nat.two_pow_pos exponent) fits)
  have whole : UInt16.ofNat (sumOf (image.mirrored (2 ^ exponent))) =
      image.checksum + UInt16.ofNat (sumOf (image.remnant (2 ^ exponent))) := by
    rw [image.checksum_eq nonempty, image.powerPart_eq fits exceeds, sumOf_mirrored,
      UInt16.ofNat_add]
  refine ⟨whole, ?_⟩
  rw [whole, ← ofNat_eq_zero_iff]
  constructor
  · intro same
    exact UInt16.left_eq_add.mp same
  · intro nothing
    rw [nothing, UInt16.add_zero]

/-- Seven bytes: the last repetition of the three behind the first four is cut off behind a one. -/
def cutOffImage : Image :=
  ⟨#[0, 0, 0, 0, 1, 0, 0]⟩

theorem mirrored_eq_checksum_add_cutOff :
    2 ^ 2 ≤ cutOffImage.size ∧ cutOffImage.size < 2 ^ 3 ∧
      cutOffImage.checksum + 1 = UInt16.ofNat (sumOf (cutOffImage.mirrored (2 ^ 2))) ∧
      cutOffImage.checksum ≠ UInt16.ofNat (sumOf (cutOffImage.mirrored (2 ^ 2))) := by
  have fits : 2 ^ 2 ≤ cutOffImage.size := by decide
  have exceeds : cutOffImage.size < 2 ^ 3 := by decide
  obtain ⟨whole, same⟩ := cutOffImage.mirrored_eq_checksum_add fits exceeds
  refine ⟨fits, exceeds, whole.symm, fun equal => ?_⟩
  exact absurd (same.mp equal) (by decide)

/-- Not every checksum is the sum of the mirrored image. -/
theorem exists_checksum_ne : ¬ ∀ (image : Image) (exponent : Nat), 2 ^ exponent ≤ image.size →
    image.size < 2 ^ (exponent + 1) →
      image.checksum = UInt16.ofNat (sumOf (image.mirrored (2 ^ exponent))) := by
  intro every
  have checked : cutOffImage.checksum = 1 := by decide +kernel
  have mirroredSum : sumOf (cutOffImage.mirrored (2 ^ 2)) = 2 := by decide +kernel
  have equal := every cutOffImage 2 (by decide) (by decide)
  rw [checked, mirroredSum] at equal
  exact absurd equal (by decide)

/-! ### Words that wrap -/

/-- The sum of the bytes from `start` up to but not including `stop`, in a word of thirty-two
bits. -/
def wordSum (start stop : Nat) : UInt32 :=
  image.bytes.foldl (fun total byte => total + byte.toUInt32) 0 start stop

theorem wordSum_eq (start stop : Nat) :
    image.wordSum start stop = UInt32.ofNat (image.byteSum start stop) := by
  have extracted : image.byteSum start stop =
      (image.bytes.extract start stop).foldl (fun total byte => total + byte.toNat) 0 :=
    Array.foldl_eq_foldl_extract
  rw [wordSum, Array.foldl_eq_foldl_extract, extracted]
  refine Array.foldl_hom UInt32.ofNat fun total byte => ?_
  rw [UInt32.ofNat_add, UInt32.ofNat_uInt8ToNat]

/-- It makes no difference to the checksum whether the sums and the product wrap on the way. -/
theorem checksum_eq_wordSum (nonempty : image.size ≠ 0) :
    image.checksum = (image.wordSum 0 image.powerPart +
      image.wordSum image.powerPart image.size *
        UInt32.ofNat (image.powerPart / (image.size - image.powerPart))).toUInt16 := by
  rw [wordSum_eq, wordSum_eq, ← UInt32.ofNat_mul, ← UInt32.ofNat_add, UInt32.toUInt16_ofNat',
    checksum, if_neg nonempty]

end Image

end Cartridge
