/-
This file defines the image of a cartridge: its bytes in file order, without the
header that copying devices put in front. Everything else reads an image through
`byte?`, `word?` and `slice`, so what a computation depends on can be told from the
offsets it asks for.
-/

namespace Cartridge

/-- The bytes of a cartridge in file order. -/
structure Image where
  /-- The bytes. -/
  bytes : Array UInt8
deriving DecidableEq

namespace Image

/-- The number of bytes. -/
def size (image : Image) : Nat :=
  image.bytes.size

/-- The byte at an offset, if the image reaches that far. -/
def byte? (image : Image) (offset : Nat) : Option UInt8 :=
  image.bytes[offset]?

/-- The little-endian word at an offset, if the image holds both of its bytes. -/
def word? (image : Image) (offset : Nat) : Option UInt16 := do
  let low ← image.byte? offset
  let high ← image.byte? (offset + 1)
  return UInt16.ofNat (low.toNat + 0x100 * high.toNat)

/-- The bytes from `start` up to but not including `stop`, or as many as there are. -/
def slice (image : Image) (start stop : Nat) : Array UInt8 :=
  image.bytes.extract start stop

/-- The length of the header that copying devices put in front of an image. -/
def copierHeaderSize : Nat := 0x200

/-- Whether a length looks as if such a header were still there. -/
def hasCopierSize (size : Nat) : Bool :=
  size % 1024 == copierHeaderSize

theorem byte?_eq_none_iff (image : Image) (offset : Nat) :
    image.byte? offset = none ↔ image.size ≤ offset :=
  Array.getElem?_eq_none_iff

theorem byte?_isSome_iff (image : Image) (offset : Nat) :
    (image.byte? offset).isSome ↔ offset < image.size := by
  rw [byte?, size]
  simp

theorem exists_byte? {image : Image} {offset : Nat} (inside : offset < image.size) :
    ∃ byte, image.byte? offset = some byte :=
  Option.isSome_iff_exists.mp ((image.byte?_isSome_iff offset).mpr inside)

end Image

end Cartridge
