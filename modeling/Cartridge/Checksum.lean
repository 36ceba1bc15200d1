/-
This file computes the checksum that the internal header declares: the sum of the
bytes to sixteen bits, where the part past the largest power of two counts as often
as it fits into that power, as if it were mirrored up to the next one.
-/

import Cartridge.Image

namespace Cartridge.Image

/-- The sum of the bytes from `start` up to but not including `stop`. -/
def byteSum (image : Image) (start stop : Nat) : Nat :=
  image.bytes.foldl (fun total byte => total + byte.toNat) 0 start stop

/-- The largest power of two that is at most the size of the image. -/
def powerPart (image : Image) : Nat :=
  Nat.pow 2 image.size.log2

/-- The checksum of the image. -/
def checksum (image : Image) : UInt16 :=
  if image.size = 0 then 0
  else
    let power := image.powerPart
    let tail := image.size - power
    UInt16.ofNat
      (image.byteSum 0 power + image.byteSum power image.size * (power / tail))

end Cartridge.Image
