/-
This file guards what is read of an image before any code is decoded: the fields of its header,
the points of the header, the choice between the candidate layouts, the interrupt pointers and
the checksum. None of it fails for an image whose length fits in 63 bits.
-/

import Cartridge.Profile
import Cartridge.Proofs.Guarded.Wiring

namespace Cartridge

namespace Guarded

/-! ### The header -/

/-- The word at a place among some bytes, guarded. -/
def word (bytes : Array UInt8) (place : Nat) : Guarded UInt16 := do
  let next ← add 64 place 1
  let low ← get bytes place
  let high ← get bytes next
  return UInt16.ofNat (low.toNat + 0x100 * high.toNat)

theorem exists_word_eq {bytes : Array UInt8} {place : Nat} (inside : place + 1 < bytes.size)
    (small : bytes.size < 2 ^ 64) : ∃ value, word bytes place = .ok value := by
  obtain ⟨low, lowAt⟩ := exists_get_eq (Nat.lt_of_succ_lt inside)
  obtain ⟨high, highAt⟩ := exists_get_eq inside
  refine ⟨UInt16.ofNat (low.toNat + 0x100 * high.toNat), ?_⟩
  rw [word, bind_eq (add_eq (by omega)), bind_eq lowAt, bind_eq highAt]
  rfl

/-- The header at an offset, guarded: its title is copied, its bytes and words are read one by
one, and the table of pointers in a loop. -/
def header? (image : Image) (offset : Nat) : Guarded (Option Header) :=
  if offset + Header.size ≤ image.size then do
    let bytes := image.slice offset (offset + Header.size)
    let title ← slice bytes 0 21
    agree title.size 21
    check (fun place => discard (get bytes place)) [0x15, 0x16, 0x17, 0x18, 0x19, 0x1A, 0x1B]
    check (fun place => discard (word bytes place)) [0x1C, 0x1E]
    check (fun row => do
      let ahead ← mul 64 row 2
      let place ← add 64 0x20 ahead
      discard (word bytes place)) (List.range 16)
    return Header.read? image offset
  else return none

theorem header?_eq (image : Image) (offset : Nat) :
    header? image offset = .ok (Header.read? image offset) := by
  rw [header?]
  split
  · rename_i present
    have size : (image.slice offset (offset + Header.size)).size = 0x40 := by
      have whole : image.size = image.bytes.size := rfl
      have length : Header.size = 0x40 := rfl
      rw [Image.slice, Array.size_extract]
      omega
    have title : (Array.extract (image.slice offset (offset + Header.size)) 0 21).size = 21 := by
      rw [Array.size_extract, size]
      rfl
    have byte : ∀ place ∈ [0x15, 0x16, 0x17, 0x18, 0x19, 0x1A, 0x1B],
        discard (get (image.slice offset (offset + Header.size)) place) = .ok () := by
      intro place member
      refine discard_eq (exists_get_eq ?_)
      rw [size]
      simp only [List.mem_cons, List.not_mem_nil, or_false] at member
      omega
    have pair : ∀ place, place + 1 < 0x40 →
        discard (word (image.slice offset (offset + Header.size)) place) = .ok () := by
      intro place inside
      exact discard_eq (exists_word_eq (size ▸ inside) (by omega))
    rw [bind_eq (slice_eq (Nat.zero_le _) (by omega)), bind_eq (agree_eq title),
      bind_eq (check_eq byte), bind_eq (check_eq fun place member => pair place ?_),
      bind_eq (check_eq fun row member => ?_)]
    · rfl
    · have bound := List.mem_range.mp member
      rw [bind_eq (mul_eq (by omega)), bind_eq (add_eq (by omega)), pair _ (by omega)]
    · simp only [List.mem_cons, List.not_mem_nil, or_false] at member
      omega
  · rename_i absent
    rw [Header.read?, if_neg absent]
    rfl

/-- Adds points if they are earned, guarded. -/
def award (points more : Nat) (earned : Bool) : Guarded Nat :=
  if earned then add 32 points more else return points

theorem award_eq {points more : Nat} (small : points + more < 2 ^ 32) (earned : Bool) :
    award points more earned = .ok (points + if earned then more else 0) := by
  rw [award]
  cases earned with
  | true => exact add_eq small
  | false => rfl

/-- The points of a header for a layout, guarded. -/
def score (header : Header) (expected : Layout) : Guarded Nat := do
  let title ← mul 32 35 header.printableTitleBytes
  let titled ← div title 21
  let known ← award titled 10 header.declaredLayout?.isSome
  let expects ← award known 5 (header.declaredLayout? == some expected)
  let typed ← award expects 5 header.cartridgeTypeValid
  award typed 45 header.checksumPairValid

theorem score_eq (header : Header) (expected : Layout) :
    score header expected = .ok (header.score expected) := by
  have printable := header.printableTitleBytes_le
  have title : 35 * header.printableTitleBytes / 21 ≤ 35 := header.titlePoints_le
  have mode : (if header.declaredLayout?.isSome then 10 else 0) +
      (if header.declaredLayout? == some expected then 5 else 0) = header.modePoints expected := by
    rw [Header.modePoints]
    cases header.declaredLayout? with
    | none => rfl
    | some layout => by_cases same : layout = expected <;> simp [same]
  have modes := header.modePoints_le expected
  rw [score, bind_eq (mul_eq (by omega)), bind_eq (div_eq (by decide) _),
    bind_eq (award_eq (by omega) _), bind_eq (award_eq (by split <;> omega) _),
    bind_eq (award_eq (by split <;> split <;> omega) _),
    award_eq (by split <;> split <;> split <;> omega)]
  rw [Header.score, ← mode, Header.titlePoints, Header.typePoints, Header.pairPoints]
  exact congrArg Except.ok (by omega)

/-! ### The layout -/

/-- The place of a layout among all layouts. -/
def slot : Layout → Nat
  | .loRom => 0
  | .hiRom => 1
  | .exHiRom => 2

theorem slot_lt (layout : Layout) : slot layout < 3 := by
  cases layout <;> decide

/-- The place with more points, the earlier one if they have the same, guarded. -/
def contest (points : Array Nat) (leader challenger : Nat) : Guarded Nat := do
  let first ← get points leader
  let second ← get points challenger
  return if first < second then challenger else leader

/-- The place of the first layout with the most points, guarded. -/
def winner (points : Array Nat) : Guarded Nat :=
  fold (contest points) 0 (List.range 3)

theorem contest_eq {points : Array Nat} (size : points.size = 3) {leader challenger : Nat}
    (first : leader < 3) (second : challenger < 3) : contest points leader challenger =
        .ok (if points.getD leader 0 < points.getD challenger 0 then challenger else leader) ∧
      (if points.getD leader 0 < points.getD challenger 0 then challenger else leader) < 3 := by
  have leads : points[leader]? = some (points.getD leader 0) := by
    simp [Array.getD, size, first]
  have challenges : points[challenger]? = some (points.getD challenger 0) := by
    simp [Array.getD, size, second]
  rw [contest, bind_eq (get_eq leads), bind_eq (get_eq challenges)]
  refine ⟨rfl, ?_⟩
  split
  · exact second
  · exact first

theorem exists_winner_eq {points : Array Nat} (size : points.size = 3) :
    ∃ leader < 3, winner points = .ok leader := by
  have each : ∀ left leader : Nat, leader < 3 → ∀ challenger ∈ List.range 3, _ :=
    fun _ leader first challenger member =>
      contest_eq size first (List.mem_range.mp member)
  obtain ⟨same, inside⟩ := fold_eq (fun _ leader => leader < 3) each (Nat.zero_lt_succ 2)
  exact ⟨_, inside, same⟩

/-- Gives points to the header of a candidate layout and finds the slot of the layout,
guarded. -/
def examine (image : Image) (candidate : Candidate) : Guarded Unit := do
  match ← header? image candidate.offset with
  | some header => do
    discard (score header candidate.layout)
    index 3 (slot candidate.layout)
  | none => return ()

theorem examine_eq (image : Image) (candidate : Candidate) :
    examine image candidate = .ok () := by
  rw [examine, bind_eq (header?_eq _ _)]
  cases Header.read? image candidate.offset with
  | none => rfl
  | some header =>
    simp only
    rw [bind_eq (discard_eq ⟨_, score_eq _ _⟩)]
    exact index_eq (slot_lt _)

/-- The detection of a layout, guarded: every candidate has a slot, and the slots are compared
with one another. -/
def detect (image : Image) : Guarded Detection :=
  if image.size < 0x8000 then return Detection.detect image
  else do
    check (examine image) Candidate.all
    let points := (Layout.all.map fun layout =>
      Detection.pointsOf (Detection.bestFor? image layout)).toArray
    let leader ← winner points
    discard (get points leader)
    discard (get Layout.all.toArray leader)
    check (fun layout => discard (get points (slot layout))) Layout.all
    return Detection.detect image

theorem detect_eq (image : Image) : detect image = .ok (Detection.detect image) := by
  rw [detect]
  split
  · rfl
  · generalize points : ((Layout.all.map fun layout =>
      Detection.pointsOf (Detection.bestFor? image layout)).toArray) = slots
    have size : slots.size = 3 := by
      rw [← points]
      rfl
    obtain ⟨leader, inside, won⟩ := exists_winner_eq size
    rw [bind_eq (check_eq fun candidate _ => examine_eq image candidate), bind_eq won,
      bind_eq (discard_eq (exists_get_eq (size ▸ inside))),
      bind_eq (discard_eq (exists_get_eq inside)),
      bind_eq (check_eq fun layout _ => discard_eq (exists_get_eq (size ▸ slot_lt layout)))]
    rfl

/-! ### The checksum -/

/-- The smallest power of two that is not less than a number, guarded. -/
def nextPower (value : Nat) : Guarded Nat :=
  if value ≤ 1 then return 1
  else do
    let before ← sub value 1
    if 2 ^ (before.log2 + 1) < 2 ^ 64 then return 2 ^ (before.log2 + 1) else .error .overflow

/-- The largest power of two that is not more than a number, guarded: the number itself, or
half of the next one. -/
def powerPart (value : Nat) : Guarded Nat :=
  if 2 ^ value.log2 = value then return value
  else do
    let next ← nextPower value
    div next 2

/-- Behind a number that is no power of two comes twice the last power before it. -/
theorem nextPower_eq {value : Nat} (positive : value ≠ 0) (small : value < 2 ^ 63)
    (between : 2 ^ value.log2 ≠ value) : nextPower value = .ok (2 ^ (value.log2 + 1)) := by
  have low := Nat.log2_self_le positive
  have high : value < 2 ^ (value.log2 + 1) := Nat.lt_log2_self
  have power : 0 < 2 ^ value.log2 := Nat.two_pow_pos _
  have same : (value - 1).log2 = value.log2 :=
    (Nat.log2_eq_iff (by omega)).mpr ⟨by omega, by omega⟩
  have bound : value.log2 < 63 := (Nat.log2_lt positive).mpr small
  have fits : 2 ^ (value.log2 + 1) < 2 ^ 64 := Nat.pow_lt_pow_right (by decide) (by omega)
  rw [nextPower, if_neg (by omega), bind_eq (sub_eq (by omega)), same, if_pos fits]
  rfl

theorem powerPart_eq {value : Nat} (positive : value ≠ 0) (small : value < 2 ^ 63) :
    powerPart value = .ok (2 ^ value.log2) := by
  rw [powerPart]
  split
  · rename_i power
    rw [power]
    rfl
  · rename_i between
    rw [bind_eq (nextPower_eq positive small between), div_eq (by decide), Nat.pow_succ,
      Nat.mul_div_cancel _ (by decide)]

/-- The checksum of an image, guarded: the image is split at a power of two, and the rest is
counted as often as it fits into the first part. -/
def checksum (image : Image) : Guarded UInt16 :=
  if image.size = 0 then return 0
  else do
    let power ← powerPart image.size
    let rest ← sub image.size power
    if rest = 0 then return image.checksum
    else do
      discard (div power rest)
      return image.checksum

theorem checksum_eq {image : Image} (size : image.size < 2 ^ 63) :
    checksum image = .ok image.checksum := by
  rw [checksum]
  split
  · rename_i empty
    rw [Image.checksum, if_pos empty]
    rfl
  · rename_i nonempty
    rw [bind_eq (powerPart_eq nonempty size), bind_eq (sub_eq (Nat.log2_self_le nonempty))]
    split
    · rfl
    · rename_i rest
      rw [bind_eq (discard_eq ⟨_, div_eq rest _⟩)]
      rfl

/-! ### The interrupt pointers -/

/-- The handler of an interrupt, guarded. -/
def handler? (image : Image) (wiring : Wiring) (interrupt : Interrupt) :
    Guarded (Option Handler) := do
  match ← offset? wiring ⟨0, interrupt.pointer⟩ with
  | none => return none
  | some pointer => do
    let stop ← add 64 pointer 2
    if stop ≤ image.size then do
      let value ← word (image.slice pointer stop) 0
      if value = 0x0000 ∨ value = 0xFFFF then return none
      else do
        let offset ← offset? wiring ⟨0, value⟩
        return some ⟨interrupt, ⟨0, value⟩, offset⟩
    else return none

theorem word_slice_eq {image : Image} {pointer : Nat} (inside : pointer + 2 ≤ image.size) :
    ∃ value, image.word? pointer = some value ∧
      word (image.slice pointer (pointer + 2)) 0 = .ok value := by
  have whole : image.size = image.bytes.size := rfl
  have low : image.bytes[pointer]? = some image.bytes[pointer] :=
    Array.getElem?_eq_getElem (by omega)
  have high : image.bytes[pointer + 1]? = some image.bytes[pointer + 1] :=
    Array.getElem?_eq_getElem (by omega)
  refine ⟨UInt16.ofNat (image.bytes[pointer].toNat + 0x100 * image.bytes[pointer + 1].toNat),
    ?_, ?_⟩
  · rw [Image.word?, Image.byte?, Image.byte?, low, high]
    rfl
  · have first : (image.slice pointer (pointer + 2))[0]? = some image.bytes[pointer] := by
      rw [Image.slice, Array.getElem?_extract, if_pos (by omega), Nat.add_zero, low]
    have second : (image.slice pointer (pointer + 2))[1]? = some image.bytes[pointer + 1] := by
      rw [Image.slice, Array.getElem?_extract, if_pos (by omega), high]
    rw [word, bind_eq (add_eq (by decide)), bind_eq (get_eq first), bind_eq (get_eq second)]
    rfl

theorem handler?_eq {image : Image} (size : image.size < 2 ^ 63) (layout : Layout)
    (interrupt : Interrupt) : handler? image ⟨layout, image.size⟩ interrupt =
      .ok (Handler.read? image ⟨layout, image.size⟩ interrupt) := by
  rw [handler?, bind_eq (offset?_eq _ _), Handler.read?]
  cases found : Wiring.offset? ⟨layout, image.size⟩ ⟨0, interrupt.pointer⟩ with
  | none => rfl
  | some pointer =>
    have bound : pointer < image.size := Wiring.offset?_lt_length found
    simp only
    rw [bind_eq (add_eq (by omega))]
    split
    · rename_i inside
      obtain ⟨value, here, read⟩ := word_slice_eq inside
      rw [bind_eq read, Option.bind_eq_bind, Option.bind_some, here, Option.bind_eq_bind,
        Option.bind_some]
      split
      · rfl
      · rw [bind_eq (offset?_eq _ _)]
        rfl
    · rename_i cut
      have missing : image.word? pointer = none := by
        have high : image.byte? (pointer + 1) = none :=
          (image.byte?_eq_none_iff _).mpr (by omega)
        rw [Image.word?, high]
        cases image.byte? pointer <;> rfl
      rw [Option.bind_eq_bind, Option.bind_some, missing]
      rfl

/-! ### The profile -/

/-- The detection that a profile is made with, guarded. -/
def detection (forced : Option Layout) (image : Image) : Guarded Detection :=
  match forced with
  | some layout => return Detection.forced layout
  | none => detect image

/-- The profile of an image, guarded. -/
def profile (forced : Option Layout) (image : Image) : Guarded Profile := do
  let detection ← detection forced image
  let headerOffset := detection.headerOffset.getD detection.layout.headerOffset
  let header ← header? image headerOffset
  let wiring : Wiring := ⟨detection.layout, image.size⟩
  let handlers ← gather (handler? image wiring) Interrupt.all
  let banks ← banks wiring
  let checksum ← checksum image
  return { detection, headerOffset, header, banks, handlers, checksum }

theorem profile_eq (forced : Option Layout) {image : Image} (size : image.size < 2 ^ 63) :
    profile forced image = .ok (Profile.read forced image) := by
  have settled : detection forced image = .ok (match forced with
      | some layout => Detection.forced layout
      | none => Detection.detect image) := by
    cases forced with
    | some layout => rfl
    | none => exact detect_eq image
  rw [profile, bind_eq settled, bind_eq (header?_eq _ _),
    bind_eq (gather_eq _ fun interrupt _ => handler?_eq size _ interrupt), bind_eq (banks_eq size),
    bind_eq (checksum_eq size)]
  rfl

end Guarded

end Cartridge
