/-
This file guesses the layout of an image from its internal header. A header is looked
for in five places: the three places the layouts put it, and the first two shifted by
the header of a copying device. Each layout keeps its best candidate, and the best of
these decides; earlier candidates and earlier layouts win ties.
-/

import Cartridge.Header

namespace Cartridge

/-- A place where the header of a layout may stand. -/
structure Candidate where
  layout : Layout
  offset : Nat
  /-- Whether the place is shifted by the header of a copying device. -/
  shifted : Bool
deriving DecidableEq

/-- A candidate whose header can be read, with the points of that header. -/
structure Finding where
  candidate : Candidate
  points : Nat
deriving DecidableEq

/-- What is known about the layout of an image. -/
structure Detection where
  layout : Layout
  /-- The points of the deciding header, out of a hundred. -/
  points : Nat
  loRomPoints : Nat
  hiRomPoints : Nat
  /-- The image offset of the deciding header. -/
  headerOffset : Option Nat
  copierHeader : Bool
deriving DecidableEq

namespace Candidate

/-- All candidates, in order of preference. -/
def all : List Candidate :=
  [⟨.loRom, 0x7FC0, false⟩, ⟨.loRom, 0x81C0, true⟩, ⟨.hiRom, 0xFFC0, false⟩,
    ⟨.hiRom, 0x101C0, true⟩, ⟨.exHiRom, 0x40FFC0, false⟩]

/-- The points of the header at a candidate, if it can be read. -/
def finding? (image : Image) (candidate : Candidate) : Option Finding :=
  (Header.read? image candidate.offset).map fun header => ⟨candidate, header.score candidate.layout⟩

end Candidate

namespace Finding

/-- The better of two findings; the first one on a tie. -/
def better (first second : Finding) : Finding :=
  if first.points < second.points then second else first

/-- The best finding of a list; the first one on a tie. -/
def best? : List Finding → Option Finding
  | [] => none
  | first :: rest => some (rest.foldl better first)

end Finding

namespace Detection

/-- The answer for an image too small to hold any header. -/
def unknown : Detection :=
  ⟨.loRom, 0, 0, 0, none, false⟩

/-- The answer when the caller names the layout. -/
def forced (layout : Layout) : Detection :=
  ⟨layout, 100, 0, 0, none, false⟩

/-- The points below which a detected layout is no more than a guess. -/
def convincingPoints : Nat := 50

/-- Whether the layout is no more than a guess. -/
def isGuess (detection : Detection) : Bool :=
  decide (detection.points < convincingPoints)

/-- The best finding for one layout. -/
def bestFor? (image : Image) (layout : Layout) : Option Finding :=
  Finding.best?
    ((Candidate.all.filter fun candidate => candidate.layout = layout).filterMap
      (Candidate.finding? image))

/-- The points of an optional finding. -/
def pointsOf (finding : Option Finding) : Nat :=
  (finding.map Finding.points).getD 0

/-- The layout to use once a header decided for `layout`: an image too large for the plain
64 KiB layout has the extended one. -/
def widen (image : Image) (layout : Layout) : Layout :=
  if layout = .hiRom ∧ Layout.plainReach < image.size then .exHiRom else layout

/-- Detects the layout of an image. -/
def detect (image : Image) : Detection :=
  match Finding.best? (Layout.all.filterMap (bestFor? image)) with
  | none => unknown
  | some finding =>
    { layout := widen image finding.candidate.layout
      points := finding.points
      loRomPoints := pointsOf (bestFor? image .loRom)
      hiRomPoints := max (pointsOf (bestFor? image .hiRom)) (pointsOf (bestFor? image .exHiRom))
      headerOffset := some finding.candidate.offset
      copierHeader := finding.candidate.shifted }

end Detection

end Cartridge
