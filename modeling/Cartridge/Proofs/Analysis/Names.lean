/-
This file proves that the names of an analysis are unambiguous. Routines ascend strictly by
their starts, because no offset is accepted as an entry twice; so looking one up by halving
the list gives the routine that starts at an offset, if there is one. Symbols name the starts
of routines and labels other offsets of the range. Every name spells the canonical address of
its offset, different offsets have different canonical addresses, and routines and branch
targets are named in different ways; so no name occurs twice.
-/

import Cartridge.Proofs.Analysis.Accounting
import Cartridge.Proofs.Analysis.Branches
import Cartridge.Proofs.Bisection
import Cartridge.Proofs.Mirrors

namespace Cartridge

/-! ### Tables of names -/

/-- Every text of a table is the name of the canonical address of its offset. -/
def Layout.Spells (layout : Layout) (name : Address → String) (table : Std.TreeMap Nat String) :
    Prop :=
  ∀ offset text, table[offset]? = some text →
    ∃ address, layout.address? offset = some address ∧ text = name address

namespace Layout.Spells

variable {layout : Layout} {name : Address → String} {table : Std.TreeMap Nat String}

theorem empty : layout.Spells name Std.TreeMap.empty := by
  intro offset text found
  simp at found

theorem insert (spells : layout.Spells name table) {offset : Nat} {address : Address}
    (placed : layout.address? offset = some address) :
    layout.Spells name (table.insert offset (name address)) := by
  intro other text found
  rw [Std.TreeMap.getElem?_insert] at found
  split at found
  · rename_i here
    rw [← Nat.compare_eq_eq.mp here]
    exact ⟨address, placed, (Option.some.inj found).symm⟩
  · exact spells other text found

theorem of_mem_toList (spells : layout.Spells name table) {entry : Nat × String}
    (listed : entry ∈ table.toList) :
    ∃ address, layout.address? entry.1 = some address ∧ entry.2 = name address :=
  spells _ _ (Std.TreeMap.mem_toList_iff_getElem?_eq_some.mp listed)

/-- A table that spells different addresses differently has no text twice. -/
theorem nodup_texts (spells : layout.Spells name table)
    (injective : ∀ {first second}, name first = name second → first = second) :
    (table.toList.map Prod.snd).Nodup := by
  refine List.pairwise_map.mpr (Std.TreeMap.distinct_keys_toList.imp_of_mem ?_)
  intro first second memberFirst memberSecond apart same
  obtain ⟨firstAddress, firstPlaced, firstText⟩ := spells.of_mem_toList memberFirst
  obtain ⟨secondAddress, secondPlaced, secondText⟩ := spells.of_mem_toList memberSecond
  rw [firstText, secondText] at same
  rw [injective same] at firstPlaced
  exact apart (Nat.compare_eq_eq.mpr (eq_of_address?_eq firstPlaced secondPlaced))

end Layout.Spells

namespace Analysis

variable {layout : Layout}

theorem spells_foldl_symbols {routines : List Routine} {symbols : Std.TreeMap Nat String}
    (spells : layout.Spells Address.routineName symbols)
    (placed : ∀ routine ∈ routines, layout.address? routine.start = some routine.address) :
    layout.Spells Address.routineName (routines.foldl
      (fun symbols routine => symbols.insert routine.start routine.name) symbols) := by
  induction routines generalizing symbols with
  | nil => exact spells
  | cons routine rest inductionHypothesis =>
    refine inductionHypothesis (spells.insert (placed routine List.mem_cons_self)) ?_
    exact fun other member => placed other (List.mem_cons_of_mem _ member)

theorem spells_foldl_labels {symbols labels : Std.TreeMap Nat String} (offsets : List Nat)
    (spells : layout.Spells Address.labelName labels) :
    layout.Spells Address.labelName (offsets.foldl
      (fun labels offset =>
        if symbols.contains offset then labels
        else match layout.address? offset with
          | some address => labels.insert offset address.labelName
          | none => labels) labels) := by
  induction offsets generalizing labels with
  | nil => exact spells
  | cons offset rest inductionHypothesis =>
    rw [List.foldl_cons]
    split
    · exact inductionHypothesis spells
    · split
      · rename_i address placed
        exact inductionHypothesis (spells.insert placed)
      · exact inductionHypothesis spells

end Analysis

/-! ### Labels stay in the range -/

/-- Every label of a trace lies in the range. -/
def Trace.LabelsInside (scope : Scope) (trace : Trace) : Prop :=
  ∀ offset ∈ trace.labels, scope.range.contains offset = true

namespace Trace

variable {scope : Scope} {trace : Trace}

theorem LabelsInside.absorb (inside : trace.LabelsInside scope) (walk : Walk) :
    (trace.absorb scope walk).LabelsInside scope := by
  unfold Trace.absorb
  split
  · intro offset member
    rcases List.mem_append.mp member with old | new
    · exact inside offset old
    · obtain ⟨target, stays, rfl⟩ := List.mem_map.mp new
      obtain ⟨-, -, -, -, -, contained⟩ := Scope.mem_staying.mp stays
      exact contained
  · exact inside

theorem labelsInside_run (scope : Scope) (entry : Entry) :
    (run scope entry).LabelsInside scope := by
  refine explore_of_absorb (fun trace => trace.LabelsInside scope) ?_
    (entry.offset, entry.processor) fun offset member => absurd member List.not_mem_nil
  intro trace walk inside
  exact LabelsInside.absorb inside walk

theorem Taken.labelsInside (taken : trace.Taken scope) : trace.LabelsInside scope := by
  cases taken with
  | whole entry => exact labelsInside_run scope entry
  | @part entry count positive =>
    intro offset member
    unfold cut at member
    split at member
    · exact labelsInside_run scope entry offset member
    · exact labelsInside_run scope entry offset (List.mem_of_mem_filter member)

end Trace

/-! ### Unambiguous names -/

/-- The routines of a survey start at different offsets, stand at canonical addresses, and have
their labels in the range. -/
structure Survey.Nameable (layout : Layout) (range : Span) (survey : Survey) : Prop where
  once : ((survey.routines.toList.map Prod.fst).map Routine.start).Nodup
  placed : ∀ found ∈ survey.routines.toList,
    layout.address? found.1.start = some found.1.address
  inside : ∀ found ∈ survey.routines.toList, ∀ offset ∈ found.2, range.contains offset = true

theorem Survey.Nameable.of_nil {layout : Layout} {range : Span} {survey : Survey}
    (nothing : survey.routines = #[]) : survey.Nameable layout range := by
  constructor <;> simp [nothing]

namespace Analysis

/-- The names of an analysis tell its routines and labels apart. -/
structure Unambiguous (layout : Layout) (range : Span) (analysis : Analysis) : Prop where
  ascending : analysis.routines.Pairwise fun first second => first.start < second.start
  halved : ∀ offset,
    bisect? Routine.start offset analysis.routines = analysis.routineAt? offset
  starts : ∀ offset routine, analysis.routineAt? offset = some routine ↔
    routine ∈ analysis.routines ∧ routine.start = offset
  symbols : ∀ offset, offset ∈ analysis.symbols ↔
    ∃ routine ∈ analysis.routines, routine.start = offset
  apart : ∀ offset ∈ analysis.labels, offset ∉ analysis.symbols
  inside : ∀ offset ∈ analysis.labels, range.contains offset = true
  symbol_text : layout.Spells Address.routineName analysis.symbols
  label_text : layout.Spells Address.labelName analysis.labels
  distinct : ((analysis.symbols.toList ++ analysis.labels.toList).map Prod.snd).Nodup

variable {options : Options} {image : Image}

theorem nameable_survey (options : Options) (image : Image) (regions : List Region) :
    (survey options image regions).Nameable (board options image).layout
      (effectiveRange options (board options image).wiring) := by
  have found : ∀ found ∈ (survey options image regions).routines.toList,
      ∃ trace ∈ merged options image regions, trace.Taken (scope options image) ∧
        trace.routine? = some found.1 ∧ trace.labels = found.2 := by
    intro found recorded
    rw [routines_survey] at recorded
    obtain ⟨trace, member, yields⟩ := List.mem_filterMap.mp recorded
    obtain ⟨-, traced, labels⟩ := Trace.yield?_eq_some_iff.mp yields
    exact ⟨trace, member, (harvested_survey options image regions).taken trace member, traced,
      labels⟩
  constructor
  · rw [routines_survey]
    exact (nodup_handled options image regions).of_append_left.sublist (starts_sublist _)
  · intro routine recorded
    obtain ⟨trace, member, taken, traced, -⟩ := found routine recorded
    exact (taken.sound.wellFormed (contains_of_mem_merged member) traced).address
  · intro routine recorded offset label
    obtain ⟨trace, -, taken, -, labels⟩ := found routine recorded
    exact taken.labelsInside offset (labels ▸ label)

/-- What is put together from a survey with nameable routines has unambiguous names. -/
theorem unambiguous_assemble {board : Board} {range : Span} {survey : Survey}
    (nameable : survey.Nameable board.layout range) (profile : Profile) (strategy : Strategy)
    (regions : List Region) (listing : List Instruction) :
    (assemble profile board strategy regions survey listing).Unambiguous board.layout range := by
  have members {found : Routine × List Nat} :
      found ∈ inOrder survey ↔ found ∈ survey.routines.toList := List.mem_mergeSort
  have ascending : ((inOrder survey).map Prod.fst).Pairwise
      fun first second => first.start < second.start := by
    refine List.pairwise_map.mpr (pairwise_lt_mergeSort ?_)
    have once := nameable.once
    rwa [List.map_map] at once
  have once : (((inOrder survey).map Prod.fst).map Routine.start).Nodup :=
    List.pairwise_map.mpr (ascending.imp Nat.ne_of_lt)
  have symbols : board.layout.Spells Address.routineName
      (symbolsOf ((inOrder survey).map Prod.fst)) := by
    refine spells_foldl_symbols .empty fun routine listed => ?_
    obtain ⟨found, member, rfl⟩ := List.mem_map.mp listed
    exact nameable.placed found (members.mp member)
  have labels : board.layout.Spells Address.labelName (labelsOf board.layout
      (symbolsOf ((inOrder survey).map Prod.fst)) ((inOrder survey).flatMap Prod.snd)) :=
    spells_foldl_labels _ .empty
  constructor
  · exact ascending
  · exact bisect?_eq_find? ascending
  · exact fun offset routine => routineAt?_eq_some_iff once
  · exact fun offset => mem_symbolsOf
  · exact fun offset label => (mem_labelsOf.mp label).2.1
  · intro offset label
    obtain ⟨found, member, listed⟩ := List.mem_flatMap.mp (mem_labelsOf.mp label).1
    exact nameable.inside found (members.mp member) offset listed
  · exact symbols
  · exact labels
  · rw [List.map_append]
    refine List.nodup_append.mpr ⟨symbols.nodup_texts Address.routineName_injective,
      labels.nodup_texts Address.labelName_injective, ?_⟩
    intro symbol named label marked same
    obtain ⟨entry, listed, rfl⟩ := List.mem_map.mp named
    obtain ⟨other, listedOther, rfl⟩ := List.mem_map.mp marked
    obtain ⟨routineAddress, -, spelled⟩ := symbols.of_mem_toList listed
    obtain ⟨labelAddress, -, spelledOther⟩ := labels.of_mem_toList listedOther
    rw [spelled, spelledOther] at same
    exact Address.routineName_ne_labelName _ _ same

/-- The names of every analysis are unambiguous. -/
theorem names_unambiguous (options : Options) (image : Image) :
    (run options image).Unambiguous (board options image).layout
      (effectiveRange options (board options image).wiring) := by
  cases strategy : options.strategy with
  | recursive =>
    rw [run_of_recursive strategy]
    exact unambiguous_assemble (nameable_survey options image _) _ _ _ _
  | linear =>
    rw [run_of_linear strategy]
    exact unambiguous_assemble (.of_nil rfl) _ _ _ _

end Analysis

end Cartridge
