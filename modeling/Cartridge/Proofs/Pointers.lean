/-
This file compares the two ways in which the interrupt pointers of an image are read. The table
of the header lies behind the header, where detection found it; the handlers are looked up on
the bus, at the top of bank zero. Every layout shows its own header there, so both ways lead to
the same bytes as long as the header stands where the layout of the profile has it.

It does, except in one case: a header in the place of the 64 KiB layout decides for an image that
is too large for this layout. The profile then has the extended layout, which shows other bytes
at the top of bank zero, but keeps the header. The two ways disagree about an interrupt exactly
if these bytes set its pointer otherwise than the table does.
-/

import Cartridge.Proofs.Detection

namespace Cartridge

/-! ### The two places of a pointer -/

/-- The row of an interrupt in the table of a header. -/
def Interrupt.row (interrupt : Interrupt) : Fin 16 :=
  ⟨(interrupt.pointer.toNat - 0xFFE0) / 2, by cases interrupt <;> decide⟩

/-- The pointer of an interrupt in the table of a header. -/
def Header.pointer (header : Header) (interrupt : Interrupt) : UInt16 :=
  header.vectorTable[interrupt.row]

/-- The image offset of the pointer of an interrupt, for a header at a given offset. -/
def Interrupt.place (interrupt : Interrupt) (headerOffset : Nat) : Nat :=
  headerOffset + (0x20 + 2 * interrupt.row)

/-- A layout shows the table of its own header at the top of bank zero. -/
theorem Layout.offset?_pointer (layout : Layout) (interrupt : Interrupt) :
    layout.offset? ⟨0, interrupt.pointer⟩ = some (interrupt.place layout.headerOffset) := by
  cases layout <;> cases interrupt <;> decide

namespace Image

theorem exists_word? {image : Image} {offset : Nat} (inside : offset + 1 < image.size) :
    ∃ word, image.word? offset = some word := by
  obtain ⟨low, lowAt⟩ := exists_byte? (Nat.lt_of_succ_lt inside)
  obtain ⟨high, highAt⟩ := exists_byte? inside
  exact ⟨_, by rw [word?, lowAt, highAt]; rfl⟩

theorem word?_eq_none {image : Image} {offset : Nat} (outside : image.size ≤ offset) :
    image.word? offset = none := by
  rw [word?, (image.byte?_eq_none_iff offset).mpr outside]
  rfl

end Image

/-- The table of a header holds the words behind it. -/
theorem Header.word?_place {image : Image} {offset : Nat} {header : Header}
    (read : read? image offset = some header) (interrupt : Interrupt) :
    image.word? (interrupt.place offset) = some (header.pointer interrupt) := by
  rw [read?, Option.ite_none_right_eq_some, Option.some.injEq] at read
  obtain ⟨present, rfl⟩ := read
  have inside : interrupt.place offset + 1 < image.size := by
    have row := interrupt.row.isLt
    simp only [size] at present
    simp only [Interrupt.place]
    omega
  obtain ⟨word, wordAt⟩ := Image.exists_word? inside
  have entry : (image.word? (interrupt.place offset)).getD 0 = word := by rw [wordAt]; rfl
  rw [wordAt, pointer, Fin.getElem_fin, Vector.getElem_ofFn]
  exact congrArg some entry.symm

/-! ### Handlers -/

/-- The word of a pointer, if it is there and sets the pointer; two values leave it blank. -/
def significant (word : Option UInt16) : Option UInt16 :=
  word.filter fun value => ¬ (value = 0x0000 ∨ value = 0xFFFF)

theorem significant_some_iff {pointer value : UInt16} :
    significant (some pointer) = some value ↔
      pointer = value ∧ pointer ≠ 0x0000 ∧ pointer ≠ 0xFFFF := by
  rw [significant, Option.filter_eq_some_iff, Option.some.injEq, decide_eq_true_eq, not_or]
  constructor
  · rintro ⟨rfl, set⟩
    exact ⟨rfl, set⟩
  · rintro ⟨rfl, set⟩
    exact ⟨rfl, set⟩

/-- The pointer of an interrupt that a layout shows in bank zero, if it is set. -/
def Layout.pointer? (layout : Layout) (image : Image) (interrupt : Interrupt) : Option UInt16 :=
  significant (image.word? (interrupt.place layout.headerOffset))

theorem Handler.read?_eq (layout : Layout) (image : Image) (interrupt : Interrupt) :
    Handler.read? image ⟨layout, image.size⟩ interrupt =
      (layout.pointer? image interrupt).map fun value =>
        ⟨interrupt, ⟨0, value⟩, Wiring.offset? ⟨layout, image.size⟩ ⟨0, value⟩⟩ := by
  rw [Handler.read?, Wiring.offset?, layout.offset?_pointer, Option.filter_some, Layout.pointer?]
  split
  · rw [Option.bind_eq_bind, Option.bind_some]
    cases image.word? (interrupt.place layout.headerOffset) with
    | none => rfl
    | some value =>
      rw [Option.bind_eq_bind, Option.bind_some, significant, Option.filter_some]
      by_cases blank : value = 0x0000 ∨ value = 0xFFFF
      · rw [if_pos blank, decide_eq_false (not_not_intro blank)]
        rfl
      · rw [if_neg blank, decide_eq_true blank]
        rfl
  · rename_i outside
    rw [Image.word?_eq_none (Nat.le_of_not_lt fun inside => outside (decide_eq_true inside))]
    rfl

namespace Profile

/-- The handlers of a profile and the table of a header say the same of an interrupt: there is a
handler exactly if the pointer in the table is set, and then it stands where the pointer says. -/
def Agrees (profile : Profile) (header : Header) (interrupt : Interrupt) : Prop :=
  ((∃ handler ∈ profile.handlers, handler.interrupt = interrupt) ↔
      header.pointer interrupt ≠ 0x0000 ∧ header.pointer interrupt ≠ 0xFFFF) ∧
    ∀ handler ∈ profile.handlers, handler.interrupt = interrupt →
      handler.address = ⟨0, header.pointer interrupt⟩

variable {forced : Option Layout} {image : Image} {interrupt : Interrupt}

/-- The handlers of an interrupt stand where the pointer that the layout shows leads. -/
theorem exists_handler_iff {address : Address} :
    (∃ handler ∈ (read forced image).handlers,
        handler.interrupt = interrupt ∧ handler.address = address) ↔
      ∃ value, (read forced image).layout.pointer? image interrupt = some value ∧
        address = ⟨0, value⟩ := by
  let wiring : Wiring := ⟨(read forced image).layout, image.size⟩
  constructor
  · rintro ⟨handler, member, rfl, rfl⟩
    obtain ⟨other, -, made⟩ := List.mem_filterMap.mp member
    change Handler.read? image wiring other = some handler at made
    rw [Handler.read?_eq] at made
    obtain ⟨value, shown, rfl⟩ := Option.map_eq_some_iff.mp made
    exact ⟨value, shown, rfl⟩
  · rintro ⟨value, shown, rfl⟩
    have made : Handler.read? image wiring interrupt =
        some ⟨interrupt, ⟨0, value⟩, wiring.offset? ⟨0, value⟩⟩ := by
      rw [Handler.read?_eq, shown]
      rfl
    exact ⟨_, List.mem_filterMap.mpr ⟨interrupt, interrupt.mem_all, made⟩, rfl, rfl⟩

/-- The handlers agree with a table that sets the pointer as the layout shows it, and with no
other. -/
theorem agrees_iff {header : Header} : (read forced image).Agrees header interrupt ↔
    (read forced image).layout.pointer? image interrupt =
      significant (some (header.pointer interrupt)) := by
  constructor
  · rintro ⟨present, addresses⟩
    refine Option.ext fun value => ?_
    rw [significant_some_iff]
    constructor
    · intro shown
      obtain ⟨handler, member, owner, address⟩ :=
        exists_handler_iff.mpr ⟨value, shown, rfl⟩
      have same := address.symm.trans (addresses handler member owner)
      exact ⟨(Address.mk.inj same).2.symm, present.mp ⟨handler, member, owner⟩⟩
    · rintro ⟨rfl, set⟩
      obtain ⟨handler, member, owner⟩ := present.mpr set
      obtain ⟨value, shown, address⟩ := exists_handler_iff.mp ⟨handler, member, owner, rfl⟩
      have same := address.symm.trans (addresses handler member owner)
      rw [shown, (Address.mk.inj same).2]
  · intro same
    have led (handler : Handler) (member : handler ∈ (read forced image).handlers)
        (owner : handler.interrupt = interrupt) :
        handler.address = ⟨0, header.pointer interrupt⟩ ∧
          header.pointer interrupt ≠ 0x0000 ∧ header.pointer interrupt ≠ 0xFFFF := by
      obtain ⟨value, shown, address⟩ := exists_handler_iff.mp ⟨handler, member, owner, rfl⟩
      obtain ⟨rfl, set⟩ := significant_some_iff.mp (same.symm.trans shown)
      exact ⟨address, set⟩
    refine ⟨⟨?_, fun set => ?_⟩, fun handler member owner => (led handler member owner).1⟩
    · rintro ⟨handler, member, owner⟩
      exact (led handler member owner).2
    · have shown := same.trans (significant_some_iff.mpr ⟨rfl, set⟩)
      obtain ⟨handler, member, owner, -⟩ := exists_handler_iff.mpr ⟨_, shown, rfl⟩
      exact ⟨handler, member, owner⟩

end Profile

/-! ### Where the header stands -/

namespace Detection

/-- One of the candidates decides, unless the image is too small for any of them. -/
theorem eq_unknown_or_exists_candidate (image : Image) :
    detect image = unknown ∨ ∃ candidate ∈ Candidate.all,
      (detect image).layout = widen image candidate.layout ∧
        (detect image).headerOffset = some candidate.offset ∧
        (detect image).copierHeader = candidate.shifted := by
  by_cases large : 0x8000 ≤ image.size
  · obtain ⟨best, found⟩ := exists_best?_of_large large
    obtain ⟨candidate, member, read⟩ := List.mem_filterMap.mp (Finding.mem_of_best? found)
    obtain ⟨rfl, -⟩ := exists_header_of_finding? read
    rw [detect_of_best? found]
    exact .inr ⟨_, member, rfl, rfl, rfl⟩
  · exact .inl (detect_of_small (Nat.lt_of_not_le large))

/-- A header in the place of the 64 KiB layout gives a large image the extended layout. -/
theorem layout_of_large {image : Image}
    (place : (detect image).headerOffset = some Layout.hiRom.headerOffset)
    (large : Layout.plainReach < image.size) : (detect image).layout = .exHiRom := by
  have owner : ∀ candidate ∈ Candidate.all,
      candidate.offset = Layout.hiRom.headerOffset → candidate.layout = .hiRom := by decide
  rcases eq_unknown_or_exists_candidate image with unknown | ⟨candidate, member, layout, offset, -⟩
  · rw [unknown] at place
    exact nomatch place
  · have here := Option.some.inj (offset.symm.trans place)
    rw [layout, widen, if_pos ⟨owner candidate member here, large⟩]

/-- Otherwise the header that decides stands where the layout has it. -/
theorem headerOffset_of_plain {image : Image} (plain : (detect image).copierHeader = false)
    (fitting : (detect image).headerOffset = some Layout.hiRom.headerOffset →
      image.size ≤ Layout.plainReach) :
    (detect image).headerOffset.getD (detect image).layout.headerOffset =
      (detect image).layout.headerOffset := by
  have proper : ∀ candidate ∈ Candidate.all,
      candidate.shifted = false → candidate.offset = candidate.layout.headerOffset := by decide
  rcases eq_unknown_or_exists_candidate image with
    unknown | ⟨candidate, member, layout, offset, shifted⟩
  · rw [unknown]
    rfl
  · have place := proper candidate member (shifted.symm.trans plain)
    have kept : widen image candidate.layout = candidate.layout := by
      refine if_neg fun ⟨hiRom, large⟩ => ?_
      rw [place, hiRom] at offset
      exact Nat.not_le_of_lt large (fitting offset)
    rw [offset, layout, kept, Option.getD_some, place]

end Detection

namespace Profile

/-- The table of the header and the handlers disagree about an interrupt in one case only. No
layout is named, the header in the place of the 64 KiB layout decides, the image is too large
for this layout, and the extended layout, which it is given, shows another pointer than the
table holds. -/
theorem not_agrees_iff {forced : Option Layout} {image : Image} {header : Header}
    (found : (read forced image).header = some header)
    (plain : (read forced image).detection.copierHeader = false) (interrupt : Interrupt) :
    ¬ (read forced image).Agrees header interrupt ↔
      forced = none ∧
        (read forced image).detection.headerOffset = some Layout.hiRom.headerOffset ∧
        Layout.plainReach < image.size ∧
        Layout.exHiRom.pointer? image interrupt ≠
          significant (some (header.pointer interrupt)) := by
  have table := Header.word?_place found interrupt
  have together (same : (read forced image).headerOffset =
      (read forced image).layout.headerOffset) : (read forced image).Agrees header interrupt := by
    rw [agrees_iff, Layout.pointer?, ← same]
    exact congrArg significant table
  constructor
  · intro disagrees
    cases forced with
    | some layout => exact absurd (together rfl) disagrees
    | none =>
      have apart : (Detection.detect image).headerOffset = some Layout.hiRom.headerOffset ∧
          Layout.plainReach < image.size := by
        refine Classical.byContradiction fun fitting => disagrees (together ?_)
        refine Detection.headerOffset_of_plain plain fun place => Nat.le_of_not_lt fun large => ?_
        exact fitting ⟨place, large⟩
      have layout : (read none image).layout = .exHiRom :=
        Detection.layout_of_large apart.1 apart.2
      rw [agrees_iff, layout] at disagrees
      exact ⟨rfl, apart.1, apart.2, disagrees⟩
  · rintro ⟨rfl, place, large, differ⟩
    have layout : (read none image).layout = .exHiRom := Detection.layout_of_large place large
    rw [agrees_iff, layout]
    exact differ

end Profile

/-! ### A large image with the header of a plain one -/

/-- A header in the place of the 64 KiB layout with a map mode, a checksum and its complement,
and a reset pointer to `$00:8000`. -/
def plainHeader : List (Nat × UInt8) :=
  [(0xFFD5, 0x21), (0xFFDC, 0x34), (0xFFDD, 0x12), (0xFFDE, 0xCB), (0xFFDF, 0xED),
    (0xFFFD, 0x80)]

/-- Six megabytes that are zero but for the header. -/
def promotedImage : Image :=
  .sparse 0x600000 plainHeader

/-! The bytes of the image are too many to be written out, so what is found in it is proved of
every image that looks like it. -/

section

variable {image : Image} (promoted : image.IsSparse 0x600000 plainHeader)
include promoted

theorem detect_of_isSparse :
    Detection.detect image = ⟨.exHiRom, 65, 5, 65, some 0xFFC0, false⟩ := by
  unfold Detection.detect Detection.bestFor? Candidate.finding? Header.read? Detection.widen
  simp only [Image.word?, promoted.byte, promoted.size]
  decide +kernel

theorem exists_header_of_isSparse : ∃ header, (Profile.read none image).header = some header ∧
    header.pointer .reset = 0x8000 := by
  have present : 0xFFC0 + Header.size ≤ image.size := by
    rw [promoted.size]
    decide
  obtain ⟨header, read⟩ :=
    Option.isSome_iff_exists.mp ((Header.read?_isSome_iff image 0xFFC0).mpr present)
  have word : image.word? (Interrupt.reset.place 0xFFC0) = some 0x8000 := by
    rw [Image.word?, promoted.byte, promoted.byte]
    decide +kernel
  have place : (Profile.read none image).headerOffset = 0xFFC0 := by
    change (Detection.detect image).headerOffset.getD _ = 0xFFC0
    rw [detect_of_isSparse promoted]
    rfl
  refine ⟨header, ?_, ?_⟩
  · change Header.read? image (Profile.read none image).headerOffset = some header
    rw [place, read]
  · exact Option.some.inj ((Header.word?_place read .reset).symm.trans word)

theorem pointer?_of_isSparse : Layout.exHiRom.pointer? image .reset = none := by
  have word : image.word? (Interrupt.reset.place Layout.exHiRom.headerOffset) = some 0x0000 := by
    rw [Image.word?, promoted.byte, promoted.byte]
    decide +kernel
  rw [Layout.pointer?, word]
  decide

theorem not_agrees_of_isSparse : ∃ header, (Profile.read none image).header = some header ∧
    (Profile.read none image).detection.copierHeader = false ∧
    header.pointer .reset = 0x8000 ∧
    ¬ (Profile.read none image).Agrees header .reset := by
  obtain ⟨header, found, pointer⟩ := exists_header_of_isSparse promoted
  have detected := detect_of_isSparse promoted
  have layout : (Profile.read none image).layout = .exHiRom := congrArg Detection.layout detected
  refine ⟨header, found, congrArg Detection.copierHeader detected, pointer, ?_⟩
  rw [Profile.agrees_iff, layout, pointer?_of_isSparse promoted, pointer]
  decide

end

namespace Profile

/-- The table points to `$00:8000`, but no handler is found, for the extended layout shows zeros
at the top of bank zero. -/
theorem disagrees_promoted : ∃ header, (read none promotedImage).header = some header ∧
    (read none promotedImage).detection.copierHeader = false ∧
    header.pointer .reset = 0x8000 ∧
    ¬ (read none promotedImage).Agrees header .reset := 
  not_agrees_of_isSparse (Image.isSparse_sparse _ _)

theorem not_agrees_iff_promoted : ∃ header, (read none promotedImage).header = some header ∧
    (read none promotedImage).detection.copierHeader = false ∧
    (read none promotedImage).detection.headerOffset = some Layout.hiRom.headerOffset ∧
    Layout.plainReach < promotedImage.size ∧
    ¬ (read none promotedImage).Agrees header .reset := by
  have promoted : promotedImage.IsSparse 0x600000 plainHeader := Image.isSparse_sparse _ _
  obtain ⟨header, found, pointer⟩ := exists_header_of_isSparse promoted
  have detected := detect_of_isSparse promoted
  have plain := congrArg Detection.copierHeader detected
  have place := congrArg Detection.headerOffset detected
  have large : Layout.plainReach < promotedImage.size := by
    rw [promoted.size]
    decide
  refine ⟨header, found, plain, place, large, ?_⟩
  refine (not_agrees_iff found plain .reset).mpr ⟨rfl, place, large, ?_⟩
  rw [pointer?_of_isSparse promoted, pointer]
  decide

end Profile

end Cartridge
