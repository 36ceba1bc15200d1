/-
This file gathers all that is known of an image before any code is decoded: its
layout, its header, its bank table, the interrupt handlers that its pointers name, and
its checksum. Nothing here can fail; an image without a usable header still gets a
layout.
-/

import Cartridge.Checksum
import Cartridge.Detection
import Cartridge.Interrupt
import Cartridge.Wiring

namespace Cartridge

/-- Where the pointer of an interrupt leads. -/
structure Handler where
  interrupt : Interrupt
  address : Address
  /-- The image offset of the handler, if it lies in the image at all. -/
  offset : Option Nat
deriving DecidableEq

/-- What is known of an image before decoding. -/
structure Profile where
  detection : Detection
  /-- The image offset at which the header was looked for. -/
  headerOffset : Nat
  header : Option Header
  banks : List Bank
  /-- The handlers of the pointers that are set. -/
  handlers : List Handler
  checksum : UInt16

/-- The handler of an interrupt, unless its pointer is missing or blank. -/
def Handler.read? (image : Image) (wiring : Wiring) (interrupt : Interrupt) : Option Handler := do
  let pointerOffset ← wiring.offset? ⟨0, interrupt.pointer⟩
  let value ← image.word? pointerOffset
  if value = 0x0000 ∨ value = 0xFFFF then none
  else
    let address : Address := ⟨0, value⟩
    some ⟨interrupt, address, wiring.offset? address⟩

namespace Profile

/-- The profile of an image, with the layout that the caller names or the detected one. -/
def read (forced : Option Layout) (image : Image) : Profile :=
  let detection := match forced with
    | some layout => Detection.forced layout
    | none => Detection.detect image
  let headerOffset := detection.headerOffset.getD detection.layout.headerOffset
  let wiring : Wiring := ⟨detection.layout, image.size⟩
  { detection := detection
    headerOffset := headerOffset
    header := Header.read? image headerOffset
    banks := wiring.banks
    handlers := Interrupt.all.filterMap (Handler.read? image wiring)
    checksum := image.checksum }

/-- The layout of the image. -/
def layout (profile : Profile) : Layout :=
  profile.detection.layout

/-- Whether the header declares the checksum that the image has. -/
def checksumMatches (profile : Profile) : Bool :=
  match profile.header with
  | some header => header.checksumPairValid && header.checksum == profile.checksum
  | none => false

end Profile

end Cartridge
