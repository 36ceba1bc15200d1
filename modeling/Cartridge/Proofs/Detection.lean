/-
This file proves which header decides the layout of an image. Each layout keeps the best of its
own candidates, and the best of these decides; but the candidates of one layout stand together in
the order of preference, and so do the layouts. So the header that decides is the first one with
the most points among all headers that can be read, and the points reported for a family of
layouts are the most that a header of the family earns. A header of the 32 KiB layout comes first,
so it decides unless a header of another layout earns more than all of them.
-/

import Cartridge.Profile
import Mathlib.Data.List.Basic

namespace Cartridge

/-! ### The first of the best -/

namespace Finding

/-- A finding is the first one with the most points in a list: those before it have fewer points,
and those behind it do not have more. -/
def IsFirstBest (best : Finding) (findings : List Finding) : Prop :=
  ∃ before behind, findings = before ++ best :: behind ∧
    (∀ other ∈ before, other.points < best.points) ∧
    ∀ other ∈ behind, other.points ≤ best.points

/-- The most points of the findings in a list, zero if there are none. -/
def most (findings : List Finding) : Nat :=
  (findings.map points).max?.getD 0

theorem better_eq_maxOn (first second : Finding) :
    better first second = maxOn points first second := by
  rw [better, maxOn_eq_if]
  by_cases less : first.points < second.points
  · rw [if_pos less, if_neg (Nat.not_le_of_lt less)]
  · rw [if_neg less, if_pos (Nat.le_of_not_lt less)]

theorem best?_eq_maxOn? (findings : List Finding) : best? findings = findings.maxOn? points := by
  have better : better = maxOn points := funext₂ better_eq_maxOn
  cases findings with
  | nil => rfl
  | cons first rest =>
    rw [best?, better]
    induction rest generalizing first with
    | nil => rfl
    | cons next rest inductionHypothesis =>
      rw [List.foldl_cons, inductionHypothesis, List.maxOn?_cons_eq_some_maxOn,
        List.maxOn?_cons_eq_some_maxOn, List.maxOn_cons_cons]

theorem best?_eq_none_iff {findings : List Finding} : best? findings = none ↔ findings = [] := by
  cases findings <;> simp [best?]

theorem best?_cons (first : Finding) (rest : List Finding) :
    best? (first :: rest) = some ((best? rest).elim first (maxOn points first)) := by
  rw [best?_eq_maxOn?, best?_eq_maxOn?, List.maxOn?_cons]

theorem best?_append (first second : List Finding) :
    best? (first ++ second) = (best? first).merge (maxOn points) (best? second) := by
  rw [best?_eq_maxOn?, best?_eq_maxOn?, best?_eq_maxOn?, List.maxOn?_append]

/-- The best of the best of each group is the best of all groups. -/
theorem best?_filterMap_best? (groups : List (List Finding)) :
    best? (groups.filterMap best?) = best? groups.flatten := by
  induction groups with
  | nil => rfl
  | cons group groups inductionHypothesis =>
    rw [List.flatten_cons, best?_append, ← inductionHypothesis]
    cases own : best? group with
    | none => rw [List.filterMap_cons_none own, Option.merge_none_left]
    | some finding =>
      rw [List.filterMap_cons_some own]
      exact best?_append [finding] _

theorem mem_of_best? {findings : List Finding} {best : Finding}
    (found : best? findings = some best) : best ∈ findings := by
  rw [best?_eq_maxOn?] at found
  exact List.maxOn?_mem found

theorem exists_best?_of_mem {findings : List Finding} {finding : Finding}
    (member : finding ∈ findings) : ∃ best, best? findings = some best := by
  rw [best?_eq_maxOn?]
  exact Option.isSome_iff_exists.mp (List.isSome_maxOn?_of_mem member)

theorem isFirstBest_of_best? {findings : List Finding} {best : Finding}
    (found : best? findings = some best) : best.IsFirstBest findings := by
  induction findings generalizing best with
  | nil => exact nomatch found
  | cons first rest inductionHypothesis =>
    rw [best?_cons, Option.some.injEq] at found
    cases later : best? rest with
    | none =>
      rw [later, Option.elim_none] at found
      rw [best?_eq_none_iff.mp later, found]
      exact ⟨[], [], rfl, nofun, nofun⟩
    | some other =>
      obtain ⟨before, behind, split, fewer, noMore⟩ := inductionHypothesis later
      rw [later, Option.elim_some] at found
      by_cases leads : other.points ≤ first.points
      · rw [maxOn_eq_left leads] at found
        refine ⟨[], rest, by rw [found, List.nil_append], nofun, fun next member => ?_⟩
        rw [split, List.mem_append, List.mem_cons] at member
        rw [← found]
        rcases member with early | rfl | late
        · exact Nat.le_trans (Nat.le_of_lt (fewer next early)) leads
        · exact leads
        · exact Nat.le_trans (noMore next late) leads
      · rw [maxOn_eq_right leads] at found
        subst found
        refine ⟨first :: before, behind, by rw [split, List.cons_append], ?_, noMore⟩
        intro next member
        rcases List.mem_cons.mp member with rfl | early
        · exact Nat.lt_of_not_le leads
        · exact fewer next early

theorem best?_of_isFirstBest {findings : List Finding} {best : Finding}
    (first : best.IsFirstBest findings) : best? findings = some best := by
  obtain ⟨before, behind, rfl, fewer, noMore⟩ := first
  have kept : (best? behind).elim best (maxOn points best) = best := by
    cases later : best? behind with
    | none => rfl
    | some other => exact maxOn_eq_left (noMore other (mem_of_best? later))
  rw [best?_append, best?_cons, kept]
  cases early : best? before with
  | none => rw [Option.merge_none_left]
  | some other =>
    have behindIt := Nat.not_le_of_lt (fewer other (mem_of_best? early))
    rw [Option.merge_some_some, maxOn_eq_right behindIt]

/-- The most points of some findings are those of the best one. -/
theorem most_eq_pointsOf (findings : List Finding) :
    most findings = Detection.pointsOf (best? findings) := by
  rw [best?_eq_maxOn?]
  cases findings with
  | nil => rfl
  | cons first rest =>
    have nonempty : first :: rest ≠ [] := List.cons_ne_nil _ _
    rw [most, List.max?_eq_some_max (List.map_eq_nil_iff.not.mpr nonempty),
      List.max_map nonempty, List.maxOn?_eq_some_maxOn nonempty]
    rfl

theorem most_append (first second : List Finding) :
    most (first ++ second) = max (most first) (most second) := by
  rw [most_eq_pointsOf, most_eq_pointsOf, most_eq_pointsOf, best?_append]
  cases best? first with
  | none =>
    rw [Option.merge_none_left]
    exact (Nat.zero_max _).symm
  | some leader =>
    cases best? second with
    | none =>
      rw [Option.merge_none_right]
      exact (Nat.max_zero _).symm
    | some challenger =>
      exact apply_maxOn (f := points)

end Finding

/-! ### The headers that can be read -/

namespace Detection

/-- The findings of all candidates whose headers can be read, in order of preference. -/
def findings (image : Image) : List Finding :=
  Candidate.all.filterMap (Candidate.finding? image)

/-- The findings for some of the layouts. -/
def findingsFor (image : Image) (family : Layout → Bool) : List Finding :=
  (findings image).filter fun finding => family finding.candidate.layout

variable {image : Image}

theorem exists_header_of_finding? {candidate : Candidate} {finding : Finding}
    (found : candidate.finding? image = some finding) : finding.candidate = candidate ∧
      ∃ header, Header.read? image candidate.offset = some header ∧
        header.score candidate.layout = finding.points := by
  obtain ⟨header, read, rfl⟩ := Option.map_eq_some_iff.mp found
  exact ⟨rfl, header, read, rfl⟩

/-- The findings for some of the layouts are those of their candidates. -/
theorem findingsFor_eq (image : Image) (family : Layout → Bool) : findingsFor image family =
    (Candidate.all.filter fun candidate => family candidate.layout).filterMap
      (Candidate.finding? image) := by
  rw [findingsFor, findings, List.filter_filterMap, List.filterMap_filter]
  refine List.filterMap_congr fun candidate _ => ?_
  cases found : candidate.finding? image with
  | none => rw [Option.filter_none, ite_self]
  | some finding => rw [Option.filter_some, (exists_header_of_finding? found).1]

theorem findings_eq_append (image : Image) : findings image =
    findingsFor image (· = .loRom) ++ findingsFor image (· ≠ .loRom) := by
  rw [findingsFor_eq, findingsFor_eq, ← List.filterMap_append]
  rfl

theorem findingsFor_others_eq_append (image : Image) : findingsFor image (· ≠ .loRom) =
    findingsFor image (· = .hiRom) ++ findingsFor image (· = .exHiRom) := by
  rw [findingsFor_eq, findingsFor_eq, findingsFor_eq, ← List.filterMap_append]
  rfl

theorem bestFor?_eq (image : Image) (layout : Layout) :
    bestFor? image layout = Finding.best? (findingsFor image (· = layout)) := by
  rw [findingsFor_eq]
  rfl

/-- The best of the bests of the layouts is the best of all, since the candidates are grouped by
their layouts. -/
theorem best?_layouts (image : Image) :
    Finding.best? (Layout.all.filterMap (bestFor? image)) = Finding.best? (findings image) := by
  have grouped : Layout.all.filterMap (bestFor? image) =
      (Layout.all.map fun layout => findingsFor image (· = layout)).filterMap Finding.best? := by
    rw [List.filterMap_map]
    exact List.filterMap_congr fun layout _ => bestFor?_eq image layout
  rw [grouped, Finding.best?_filterMap_best?, findings_eq_append, findingsFor_others_eq_append]
  simp only [Layout.all, List.map_cons, List.map_nil, List.flatten_cons, List.flatten_nil,
    List.append_nil]

theorem large_of_mem_findings {finding : Finding} (member : finding ∈ findings image) :
    0x8000 ≤ image.size := by
  have least : ∀ candidate ∈ Candidate.all, 0x7FC0 ≤ candidate.offset := by decide
  obtain ⟨candidate, listed, found⟩ := List.mem_filterMap.mp member
  obtain ⟨-, header, read, -⟩ := exists_header_of_finding? found
  have present := (Header.read?_isSome_iff image candidate.offset).mp
    (Option.isSome_of_eq_some read)
  exact Nat.le_trans (Nat.add_le_add_right (least candidate listed) Header.size) present

/-- If the image is large enough for any header, the first candidate can be read. -/
theorem exists_loRom_of_large (large : 0x8000 ≤ image.size) :
    ∃ finding, finding ∈ findingsFor image (· = .loRom) := by
  obtain ⟨header, read⟩ := Option.isSome_iff_exists.mp
    ((Header.read?_isSome_iff image 0x7FC0).mpr large)
  rw [findingsFor_eq]
  refine ⟨⟨⟨.loRom, 0x7FC0, false⟩, header.score .loRom⟩, List.mem_filterMap.mpr ?_⟩
  refine ⟨⟨.loRom, 0x7FC0, false⟩, List.mem_cons_self, ?_⟩
  rw [Candidate.finding?, read]
  rfl

/-! ### The deciding header -/

theorem detect_of_small (small : image.size < 0x8000) : detect image = unknown := by
  have none : Finding.best? (findings image) = none := by
    rw [Finding.best?_eq_none_iff, List.eq_nil_iff_forall_not_mem]
    exact fun finding member => Nat.not_le_of_lt small (large_of_mem_findings member)
  rw [detect, best?_layouts, none]

theorem detect_of_best? {best : Finding} (found : Finding.best? (findings image) = some best) :
    detect image =
      { layout := widen image best.candidate.layout
        points := best.points
        loRomPoints := Finding.most (findingsFor image (· = .loRom))
        hiRomPoints := Finding.most (findingsFor image (· ≠ .loRom))
        headerOffset := some best.candidate.offset
        copierHeader := best.candidate.shifted } := by
  rw [detect, best?_layouts, found, bestFor?_eq, bestFor?_eq, bestFor?_eq,
    ← Finding.most_eq_pointsOf, ← Finding.most_eq_pointsOf, ← Finding.most_eq_pointsOf,
    ← Finding.most_append, ← findingsFor_others_eq_append]

theorem exists_best?_of_large (large : 0x8000 ≤ image.size) :
    ∃ best, Finding.best? (findings image) = some best := by
  obtain ⟨finding, member⟩ := exists_loRom_of_large large
  exact Finding.exists_best?_of_mem (List.mem_filter.mp member).1

theorem widen_eq_loRom_iff (image : Image) (layout : Layout) :
    widen image layout = .loRom ↔ layout = .loRom := by
  unfold widen
  split
  · rename_i widened
    rw [widened.1]
    decide
  · exact Iff.rfl

/-- The 32 KiB layout is detected unless a header of another layout earns more points than all
headers of this one. -/
theorem layout_eq_loRom_iff (image : Image) : (detect image).layout = .loRom ↔
    (detect image).hiRomPoints ≤ (detect image).loRomPoints := by
  by_cases large : 0x8000 ≤ image.size
  · obtain ⟨best, found⟩ := exists_best?_of_large large
    obtain ⟨finding, member⟩ := exists_loRom_of_large large
    obtain ⟨leader, leads⟩ := Finding.exists_best?_of_mem member
    have own := of_decide_eq_true (List.mem_filter.mp (Finding.mem_of_best? leads)).2
    rw [detect_of_best? found, widen_eq_loRom_iff]
    rw [findings_eq_append, Finding.best?_append, leads] at found
    simp only [Finding.most_eq_pointsOf, leads]
    cases challenges : Finding.best? (findingsFor image (· ≠ .loRom)) with
    | none =>
      rw [challenges, Option.merge_none_right, Option.some.injEq] at found
      exact iff_of_true (found ▸ own) (Nat.zero_le _)
    | some challenger =>
      have foreign :=
        of_decide_eq_true (List.mem_filter.mp (Finding.mem_of_best? challenges)).2
      rw [challenges, Option.merge_some_some, Option.some.injEq] at found
      by_cases ahead : challenger.points ≤ leader.points
      · rw [maxOn_eq_left ahead] at found
        exact iff_of_true (found ▸ own) ahead
      · rw [maxOn_eq_right ahead] at found
        exact iff_of_false (found ▸ foreign) ahead
  · rw [detect_of_small (Nat.lt_of_not_le large)]
    decide

/-- What a detection makes of the header that decides. -/
structure DecidedBy (detection : Detection) (image : Image) (best : Finding) : Prop where
  firstBest : best.IsFirstBest (findings image)
  headerOffset : detection.headerOffset = some best.candidate.offset
  header : ∃ header, (Profile.read none image).header = some header ∧
    header.score best.candidate.layout = best.points
  copierHeader : detection.copierHeader = best.candidate.shifted
  points : detection.points = best.points
  points_le : detection.points ≤ 100
  loRomPoints : detection.loRomPoints = Finding.most (findingsFor image (· = .loRom))
  hiRomPoints : detection.hiRomPoints = Finding.most (findingsFor image (· ≠ .loRom))
  layout : detection.layout =
    if best.candidate.layout = .hiRom ∧ 0x400000 < image.size then .exHiRom
    else best.candidate.layout
  /-- Ties go to the 32 KiB layout. -/
  loRom : detection.layout = .loRom ↔ detection.hiRomPoints ≤ detection.loRomPoints

/-- The layout of an image that is large enough for a header is decided by the first of the best
headers. -/
theorem exists_decidedBy (image : Image) (large : 0x8000 ≤ image.size) :
    ∃ best, (detect image).DecidedBy image best := by
  obtain ⟨best, found⟩ := exists_best?_of_large large
  obtain ⟨candidate, -, read⟩ := List.mem_filterMap.mp (Finding.mem_of_best? found)
  obtain ⟨rfl, header, here, score⟩ := exists_header_of_finding? read
  have detected := detect_of_best? found
  have points : (detect image).points = best.points := congrArg Detection.points detected
  refine ⟨best, ?_⟩
  constructor
  · exact Finding.isFirstBest_of_best? found
  · exact congrArg Detection.headerOffset detected
  · refine ⟨header, ?_, score⟩
    change Header.read? image ((detect image).headerOffset.getD _) = some header
    rw [detected]
    exact here
  · exact congrArg Detection.copierHeader detected
  · exact points
  · rw [points, ← score]
    exact header.score_le _
  · exact congrArg Detection.loRomPoints detected
  · exact congrArg Detection.hiRomPoints detected
  · exact congrArg Detection.layout detected
  · exact layout_eq_loRom_iff image

end Detection

/-! ### Sparse images -/

/-- An image of zeros but for some bytes. -/
def Image.sparse (length : Nat) (bytes : List (Nat × UInt8)) : Image :=
  ⟨Array.ofFn fun offset : Fin length => (bytes.lookup offset.val).getD 0⟩

/-- All that is looked at of such an image. -/
structure Image.IsSparse (image : Image) (length : Nat) (bytes : List (Nat × UInt8)) : Prop where
  size : image.size = length
  byte : ∀ offset, image.byte? offset =
    if offset < length then some ((bytes.lookup offset).getD 0) else none

theorem Image.isSparse_sparse (length : Nat) (bytes : List (Nat × UInt8)) :
    (sparse length bytes).IsSparse length bytes where
  size := Array.size_ofFn
  byte offset := by
    rw [byte?, sparse, Array.getElem?_ofFn]
    split <;> rfl

namespace Detection

/-- The map mode of the 64 KiB layout in a header that a copying device shifted, and the map mode
of the extended layout in its place. -/
def twoModes : List (Nat × UInt8) :=
  [(0x101D5, 0x21), (0x40FFD5, 0x25)]

/-- An image of zeros with these two map modes, just large enough for every candidate. -/
def shiftedImage : Image :=
  .sparse 0x410000 twoModes

theorem detect_of_isSparse_twoModes {image : Image} (modes : image.IsSparse 0x410000 twoModes) :
    detect image = ⟨.exHiRom, 20, 5, 20, some 0x101C0, true⟩ := by
  unfold detect bestFor? Candidate.finding? Header.read? widen
  simp only [Image.word?, modes.byte, modes.size]
  decide +kernel

/-- The two headers have as many points, so the first one decides, for a layout that the image is
too large for. -/
theorem exists_decidedBy_shifted : 0x8000 ≤ shiftedImage.size ∧
    detect shiftedImage = ⟨.exHiRom, 20, 5, 20, some 0x101C0, true⟩ ∧
    ∃ best, (detect shiftedImage).DecidedBy shiftedImage best ∧
      best.candidate.offset = 0x101C0 := by
  have modes : shiftedImage.IsSparse 0x410000 twoModes := Image.isSparse_sparse _ _
  have large : 0x8000 ≤ shiftedImage.size := by
    rw [modes.size]
    decide
  have detected := detect_of_isSparse_twoModes modes
  obtain ⟨best, decided⟩ := exists_decidedBy shiftedImage large
  have place := decided.headerOffset
  rw [detected] at place
  exact ⟨large, detected, best, decided, (Option.some.inj place).symm⟩

end Detection

end Cartridge
