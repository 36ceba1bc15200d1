/-
This file proves what becomes of the addresses that the console keeps to itself: the banks of work
RAM, and the lower halves of banks `$00` to `$3F` and `$80` to `$BF`, which show work RAM and the
registers of the hardware. Two of the layouts find no image byte there. The layout of 64 KiB banks
hides work RAM only; everywhere else it takes such an address for one of the image, as if the
whole bank were shown.

An entry point, an interrupt pointer, a call and a jump seed a routine only where the wiring finds
their address. So as long as the layout is not that one, what leads to code in RAM seeds nothing.
-/

import Cartridge.Proofs.Analysis.Provenance
import Cartridge.Proofs.Survey.Origin

namespace Cartridge

/-! ### Internal addresses -/

namespace Address

/-- The banks `$7E` and `$7F` are work RAM. -/
def IsWorkRam (address : Address) : Prop :=
  address.bank = 0x7E ∨ address.bank = 0x7F

/-- The lower halves of banks `$00` to `$3F` and `$80` to `$BF` show a part of work RAM and the
registers of the hardware. -/
def IsSystem (address : Address) : Prop :=
  (address.bank ≤ 0x3F ∨ 0x80 ≤ address.bank ∧ address.bank ≤ 0xBF) ∧ address.low < 0x8000

/-- The console keeps an address to itself. -/
def IsInternal (address : Address) : Prop :=
  address.IsWorkRam ∨ address.IsSystem

instance (address : Address) : Decidable address.IsWorkRam :=
  inferInstanceAs (Decidable (_ ∨ _))

instance (address : Address) : Decidable address.IsSystem :=
  inferInstanceAs (Decidable (_ ∧ _))

instance (address : Address) : Decidable address.IsInternal :=
  inferInstanceAs (Decidable (_ ∨ _))

theorem isWorkRam_iff (address : Address) :
    address.IsWorkRam ↔ address.bank.toNat = 0x7E ∨ address.bank.toNat = 0x7F := by
  rw [IsWorkRam, ← UInt8.toNat_inj, ← UInt8.toNat_inj]
  rfl

theorem isSystem_iff (address : Address) : address.IsSystem ↔
    (address.bank.toNat ≤ 0x3F ∨ 0x80 ≤ address.bank.toNat ∧ address.bank.toNat ≤ 0xBF) ∧
      address.low.toNat < 0x8000 := by
  rw [IsSystem, UInt8.le_iff_toNat_le, UInt8.le_iff_toNat_le, UInt8.le_iff_toNat_le,
    UInt16.lt_iff_toNat_lt]
  rfl

theorem not_isWorkRam_of_isSystem {address : Address} (system : address.IsSystem) :
    ¬ address.IsWorkRam := by
  rw [isWorkRam_iff]
  rw [isSystem_iff] at system
  omega

end Address

variable {address : Address}

/-- Outside work RAM the layout of 64 KiB banks looks at the lower twenty-two bits only. -/
theorem Layout.offset?_hiRom (outside : ¬ address.IsWorkRam) :
    Layout.hiRom.offset? address = some (address.toNat % Layout.plainReach) := by
  rw [Address.isWorkRam_iff] at outside
  have bound := address.low.toNat_lt
  simp only [Layout.offset?, Address.toNat, Layout.plainReach]
  rw [if_neg outside, Option.some.injEq]
  omega

theorem Layout.offset?_of_isSystem {layout : Layout} (other : layout ≠ .hiRom)
    (system : address.IsSystem) : layout.offset? address = none := by
  have outside := Address.not_isWorkRam_of_isSystem system
  rw [Address.isWorkRam_iff] at outside
  rw [Address.isSystem_iff] at system
  obtain ⟨banks, lower⟩ := system
  cases layout with
  | hiRom => exact absurd rfl other
  | loRom =>
    simp only [Layout.offset?]
    rw [if_neg outside, if_pos lower]
  | exHiRom =>
    simp only [Layout.offset?]
    rw [if_neg outside, if_neg (by omega)]
    by_cases upper : 0x80 ≤ address.bank.toNat
    · rw [if_pos upper, if_pos lower]
    · rw [if_neg upper, if_neg (by omega), if_neg (by omega)]

/-- An internal address leads into an image in one case only. -/
theorem Wiring.offset?_of_isInternal {wiring : Wiring} (internal : address.IsInternal)
    {offset : Nat} : wiring.offset? address = some offset ↔
      wiring.layout = .hiRom ∧ ¬ address.IsWorkRam ∧
        address.toNat % Layout.plainReach = offset ∧ offset < wiring.length := by
  rw [Wiring.offset?]
  by_cases workRam : address.IsWorkRam
  · rw [wiring.layout.offset?_workRam workRam]
    simp [workRam]
  by_cases hiRom : wiring.layout = .hiRom
  · rw [hiRom, Layout.offset?_hiRom workRam, Option.filter_eq_some_iff, Option.some.injEq,
      decide_eq_true_eq]
    simp [workRam]
  · rw [Layout.offset?_of_isSystem hiRom (internal.resolve_left workRam)]
    simp [hiRom]

/-! ### Addresses that seed routines -/

/-- Whether a seed stands for an address: one that was given, or the target of a transfer. -/
def Seed.isAddressed : Seed → Bool
  | .entryPoint | .vector _ | .call | .jump => true
  | .region | .fallback => false

namespace Routine

variable {wiring : Wiring} {caller : Routine} {offset : Nat}

theorem announces_call_iff : caller.Announces wiring .call offset ↔
    caller.ending.isConfident = true ∧
      ∃ address ∈ caller.calls, wiring.offset? address = some offset := by
  simp [Announces]

theorem announces_jump_iff : caller.Announces wiring .jump offset ↔
    caller.ending.isConfident = true ∧
      ∃ address ∈ caller.jumps, wiring.offset? address = some offset := by
  simp [Announces]

end Routine

/-- The address of an entry that a survey was given is among those that it was given. -/
def Entry.IsGiven (wiring : Wiring) (entryPoints : List Address) (handlers : List Handler)
    (entry : Entry) : Prop :=
  match entry.seed with
  | .entryPoint => ∃ address ∈ entryPoints, wiring.offset? address = some entry.offset
  | .vector interrupt =>
    ∃ handler ∈ handlers, handler.interrupt = interrupt ∧ handler.offset = some entry.offset
  | .call | .jump | .region | .fallback => True

namespace Analysis

/-- A seed stands for an address: the caller gave it as an entry point, the pointer of the
interrupt holds it, or a routine that can be trusted calls it or jumps to it. -/
def Names (analysis : Analysis) (options : Options) (address : Address) : Seed → Prop
  | .entryPoint => address ∈ options.entryPoints
  | .vector interrupt =>
    ∃ handler ∈ analysis.handlers, handler.interrupt = interrupt ∧ handler.address = address
  | .call => ∃ caller ∈ analysis.routines, caller.ending.isConfident = true ∧
      address ∈ caller.calls
  | .jump => ∃ caller ∈ analysis.routines, caller.ending.isConfident = true ∧
      address ∈ caller.jumps
  | .region | .fallback => False

variable {options : Options} {image : Image} {regions : List Region} {routine : Routine}

/-- The offset of a handler is where the wiring finds its address. -/
theorem offset_of_mem_handlers {handler : Handler}
    (listed : handler ∈ (Profile.read options.layout image).handlers) :
    handler.offset = (board options image).wiring.offset? handler.address := by
  obtain ⟨interrupt, -, made⟩ := List.mem_filterMap.mp listed
  obtain ⟨pointer, -, rest⟩ := Option.bind_eq_some_iff.mp made
  obtain ⟨value, -, last⟩ := Option.bind_eq_some_iff.mp rest
  rw [Option.ite_none_left_eq_some, Option.some.injEq] at last
  obtain ⟨-, rfl⟩ := last
  rfl

theorem mem_of_mem_seededHandlers {profile : Profile} {handler : Handler}
    (seeded : handler ∈ seededHandlers options profile) : handler ∈ profile.handlers := by
  rw [seededHandlers] at seeded
  split at seeded
  · exact seeded
  · exact absurd seeded List.not_mem_nil

theorem isGiven_origin (listed : routine ∈ (recursive options image regions).routines) :
    routine.origin.IsGiven (board options image).wiring options.entryPoints
      (seededHandlers options (Profile.read options.layout image)) := by
  have admits : Survey.Admits (Entry.IsGiven (board options image).wiring options.entryPoints
      (seededHandlers options (Profile.read options.layout image)))
      (survey options image regions) := by
    refine Survey.Admits.run (.fresh _ _) _ _ (fun entry other => ?_)
      (fun address named offset found => ⟨address, named, found⟩)
      (fun handler named offset found => ⟨handler, named, rfl, found⟩) _
    obtain ⟨offset, processor, seed⟩ := entry
    cases seed with
    | entryPoint | vector _ => exact nomatch other
    | call | jump | region | fallback => trivial
  exact admits.recorded routine ((routines_perm_survey options image regions).mem_iff.mp listed)

/-- A routine that is called or jumped to is announced by another one. -/
theorem exists_announces (listed : routine ∈ (recursive options image regions).routines)
    (transferred : routine.seed.isRoot = false) :
    ∃ caller ∈ (recursive options image regions).routines,
      caller.Announces (board options image).wiring routine.seed routine.start := by
  obtain ⟨root, -, isRoot, chain⟩ := linked_of_mem_recursive listed
  cases chain with
  | refl => exact Bool.noConfusion (transferred.symm.trans isRoot)
  | tail _ link => exact ⟨_, link.1, link.2.2⟩

/-- The seed of a routine stands for an address at which the routine starts. -/
theorem exists_names (listed : routine ∈ (recursive options image regions).routines)
    (addressed : routine.seed.isAddressed = true) :
    ∃ address, (recursive options image regions).Names options address routine.seed ∧
      (board options image).wiring.offset? address = some routine.start := by
  have given := isGiven_origin listed
  have transferred := exists_announces listed
  simp only [Entry.IsGiven, Routine.origin] at given
  cases seed : routine.seed with
  | entryPoint =>
    rw [seed] at given
    exact given
  | vector interrupt =>
    rw [seed] at given
    obtain ⟨handler, seeded, same, found⟩ := given
    have known := mem_of_mem_seededHandlers seeded
    exact ⟨handler.address, ⟨handler, known, same, rfl⟩, offset_of_mem_handlers known ▸ found⟩
  | call =>
    rw [seed] at transferred
    obtain ⟨caller, calling, announces⟩ := transferred rfl
    obtain ⟨trusted, address, member, found⟩ := Routine.announces_call_iff.mp announces
    exact ⟨address, ⟨caller, calling, trusted, member⟩, found⟩
  | jump =>
    rw [seed] at transferred
    obtain ⟨caller, calling, announces⟩ := transferred rfl
    obtain ⟨trusted, address, member, found⟩ := Routine.announces_jump_iff.mp announces
    exact ⟨address, ⟨caller, calling, trusted, member⟩, found⟩
  | region | fallback =>
    rw [seed] at addressed
    exact Bool.noConfusion addressed

/-- An internal address leads into an image only in the layout of 64 KiB banks and outside work
RAM, where it is taken for the address of the image in its lower twenty-two bits. In every other
layout a routine that an entry point, an interrupt, a call or a jump seeded was seeded by an
address that is not internal. -/
theorem not_isInternal_of_seeded (options : Options) (image : Image) :
    (∀ (wiring : Wiring) (address : Address), address.IsInternal → ∀ offset,
      wiring.offset? address = some offset ↔
        wiring.layout = .hiRom ∧ ¬ address.IsWorkRam ∧
          address.toNat % Layout.plainReach = offset ∧ offset < wiring.length) ∧
    ∀ routine ∈ (run options image).routines, routine.seed.isAddressed = true →
      ∃ address, (run options image).Names options address routine.seed ∧
        (board options image).wiring.offset? address = some routine.start ∧
        (address.IsInternal → (board options image).layout = .hiRom ∧ ¬ address.IsWorkRam) := by
  refine ⟨fun wiring address internal offset => Wiring.offset?_of_isInternal internal,
    fun routine listed addressed => ?_⟩
  have strategy := strategy_of_mem_routines listed
  rw [run_of_recursive strategy] at listed ⊢
  obtain ⟨address, named, found⟩ := exists_names listed addressed
  refine ⟨address, named, found, fun internal => ?_⟩
  obtain ⟨hiRom, outside, -⟩ := (Wiring.offset?_of_isInternal internal).mp found
  exact ⟨hiRom, outside⟩

/-- A routine that calls the return behind it and a register of the hardware. -/
def trampolineImage : Image :=
  ⟨#[0x20, 0x07, 0x80, 0x20, 0x00, 0x21, 0x60, 0x60]⟩

/-- Options under which work RAM and this routine are the entry points. -/
def trampolineOptions : Options :=
  { bareOptions with entryPoints := [⟨0x7E, 0x2000⟩, ⟨0x00, 0x8000⟩] }

set_option maxRecDepth 100000 in
theorem not_isInternal_of_seeded_trampoline :
    Address.IsInternal ⟨0x80, 0x2100⟩ ∧
    (Wiring.mk .hiRom 0x10000).offset? ⟨0x80, 0x2100⟩ = some 0x2100 ∧
    (∀ offset, (Wiring.mk .loRom 0x10000).offset? ⟨0x80, 0x2100⟩ ≠ some offset) ∧
    ∃ routine ∈ (run trampolineOptions trampolineImage).routines, routine.start = 7 ∧
      ∃ address, (run trampolineOptions trampolineImage).Names trampolineOptions address .call ∧
        ¬ address.IsInternal := by
  have internal : Address.IsInternal ⟨0x80, 0x2100⟩ := by decide
  obtain ⟨leads, seeded⟩ := not_isInternal_of_seeded trampolineOptions trampolineImage
  refine ⟨internal, (leads _ _ internal _).mpr (by decide), fun offset found => ?_, ?_⟩
  · exact nomatch ((leads _ _ internal offset).mp found).1
  have called : (7, Seed.call) ∈ (survey trampolineOptions trampolineImage
      (scores trampolineOptions trampolineImage)).routines.toList.map fun found =>
        (found.1.start, found.1.seed) := by
    decide +kernel
  obtain ⟨found, recorded, parts⟩ := List.mem_map.mp called
  have listed : found.1 ∈ (run trampolineOptions trampolineImage).routines := by
    rw [run_of_recursive rfl]
    exact mem_routines_of_survey recorded
  have call : found.1.seed = .call := congrArg Prod.snd parts
  obtain ⟨address, named, -, only⟩ := seeded found.1 listed (by rw [call]; rfl)
  refine ⟨found.1, listed, congrArg Prod.fst parts, address, call ▸ named, fun inner => ?_⟩
  exact nomatch (only inner).1

/-- Not every layout hides the registers of the hardware. -/
theorem registers_shown : ¬ ∀ (wiring : Wiring) (address : Address),
    address.IsInternal → wiring.offset? address = none := by
  intro every
  have shown : (Wiring.mk .hiRom 0x10000).offset? ⟨0x80, 0x2100⟩ = some 0x2100 := by decide
  exact nomatch shown.symm.trans (every _ _ (by decide))

end Analysis

end Cartridge
