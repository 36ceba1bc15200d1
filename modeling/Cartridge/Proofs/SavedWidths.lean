/-
This file compares the shadow of the saved widths, which forgets its oldest entries, with one that
forgets nothing. Every operation saves widths, restores widths, or leaves the saved ones alone;
beyond that it may change the bytes on the stack, and the rest of the state follows the same
rules with either shadow. So the shorter shadow holds the most recent entries of the longer one
until widths are to be restored that only the longer one still has. In a block in which every
save is followed by its restore, the entries that were there before are only pushed down, as far
as the block is deep, so a block that is no deeper than the shadow finds its own first entry
again.
-/

import Cartridge.Proofs.ProcessorState

namespace Cartridge.Processor

/-! ### A shadow that forgets nothing -/

/-- The widths of the registers. -/
def widths (processor : Processor) : Widths :=
  ⟨processor.wideAccumulator, processor.wideIndex⟩

/-- Saves the widths and forgets no older ones. -/
def stackWidths (processor : Processor) : Processor :=
  { processor with saved := processor.widths :: processor.saved }

/-- The state after an operation that forgets no saved widths. All else follows the same rules. -/
def performUnbounded (processor : Processor) : Operation → Processor
  | .saveWidths => processor.stackWidths
  | .advance instruction =>
    if instruction.mnemonic = .php then processor.stackWidths.push none
    else processor.advance instruction
  | operation => processor.perform operation

/-- The state after operations that forget no saved widths. -/
def afterUnbounded (processor : Processor) (operations : List Operation) : Processor :=
  operations.foldl performUnbounded processor

namespace Operation

/-- What an operation does with the saved widths. -/
inductive Role where
  | save
  | restore
  | other
deriving DecidableEq

/-- The role of an operation; of the instructions, `PHP` saves and `PLP` restores. -/
def role : Operation → Role
  | .saveWidths => .save
  | .restoreWidths => .restore
  | .advance instruction =>
    if instruction.mnemonic = .php then .save
    else if instruction.mnemonic = .plp then .restore
    else .other
  | _ => .other

theorem role_advance_eq_save_iff {instruction : Instruction} :
    (advance instruction).role = .save ↔ instruction.mnemonic = .php := by
  rw [role]
  split
  · simp_all
  · split <;> simp_all

theorem role_advance_eq_restore_iff {instruction : Instruction} :
    (advance instruction).role = .restore ↔ instruction.mnemonic = .plp := by
  rw [role]
  split
  · simp_all
  · split <;> simp_all

theorem role_advance_eq_other_iff {instruction : Instruction} :
    (advance instruction).role = .other ↔
      instruction.mnemonic ≠ .php ∧ instruction.mnemonic ≠ .plp := by
  rw [role]
  split
  · simp_all
  · split <;> simp_all

/-- Operations in which every save is followed by its restore, with no more than a number of
saves open at once. -/
inductive Nested : Nat → List Operation → Prop
  | nil (depth : Nat) : Nested depth []
  | other {depth : Nat} {operation : Operation} {rest : List Operation}
      (alone : operation.role = .other) (nested : Nested depth rest) :
      Nested depth (operation :: rest)
  | block {depth : Nat} {opening closing : Operation} {inner rest : List Operation}
      (opens : opening.role = .save) (closes : closing.role = .restore)
      (within : Nested depth inner) (nested : Nested (depth + 1) rest) :
      Nested (depth + 1) (opening :: inner ++ closing :: rest)

/-- One block: a save, nested operations, and the restore that closes it. -/
inductive Block : Nat → List Operation → Prop
  | intro {depth : Nat} {opening closing : Operation} {inner : List Operation}
      (opens : opening.role = .save) (closes : closing.role = .restore)
      (within : Nested depth inner) : Block (depth + 1) (opening :: inner ++ [closing])

end Operation

/-- Whenever widths are restored and the bounded shadow has none left, neither has the other. -/
def Fed (bounded whole : Processor) (operations : List Operation) : Prop :=
  ∀ index, (inside : index < operations.length) → operations[index].role = .restore →
    (bounded.after (operations.take index)).saved = [] →
      (whole.afterUnbounded (operations.take index)).saved = []

instance (bounded whole : Processor) (operations : List Operation) :
    Decidable (Fed bounded whole operations) :=
  inferInstanceAs (Decidable (∀ index, (inside : index < operations.length) → _))

/-- There are never more widths saved than a shadow has places for. -/
def NeverDeep (start : Processor) (operations : List Operation) : Prop :=
  ∀ count ≤ operations.length,
    (start.afterUnbounded (operations.take count)).saved.length ≤ shadowDepth

instance (start : Processor) (operations : List Operation) :
    Decidable (NeverDeep start operations) :=
  inferInstanceAs (Decidable (∀ count ≤ operations.length, _))

/-! ### What operations do with the saved widths -/

/-- The state with other widths saved. -/
def withSaved (processor : Processor) (saved : List Widths) : Processor :=
  { processor with saved := saved }

/-- The state with other bytes on the stack. -/
def mapPushed (processor : Processor)
    (change : List (Option UInt8) → List (Option UInt8)) : Processor :=
  { processor with pushed := change processor.pushed }

theorem pushUnknown_withSaved (processor : Processor) (saved : List Widths) (count : Nat) :
    (processor.withSaved saved).pushUnknown count =
      (processor.pushUnknown count).withSaved saved := by
  induction count generalizing processor with
  | zero => rfl
  | succ count inductionHypothesis => exact inductionHypothesis (processor.push none)

theorem exchangeMode_withSaved (processor : Processor) (saved : List Widths) :
    (processor.withSaved saved).exchangeMode = processor.exchangeMode.withSaved saved := by
  simp only [exchangeMode, withSaved]
  cases processor.carry <;> rfl

/-- Only `PHP` and `PLP` have to do with the saved widths. -/
theorem advance_withSaved {instruction : Instruction} (notSave : instruction.mnemonic ≠ .php)
    (notRestore : instruction.mnemonic ≠ .plp) (processor : Processor) (saved : List Widths) :
    (processor.withSaved saved).advance instruction =
      (processor.advance instruction).withSaved saved := by
  unfold advance
  generalize instruction.mnemonic = mnemonic at notSave notRestore ⊢
  cases mnemonic
  case php => exact absurd rfl notSave
  case plp => exact absurd rfl notRestore
  case xce => exact exchangeMode_withSaved processor saved
  case pha | phx | phy | phd | pea | pei | per => exact pushUnknown_withSaved _ _ _
  all_goals rfl

section Roles

variable {operation : Operation}

/-- What saves the widths does so under either shadow, beside a change of the bytes pushed. -/
theorem exists_save (save : operation.role = .save) :
    ∃ change, ∀ processor,
      perform processor operation = processor.saveWidths.mapPushed change ∧
        performUnbounded processor operation = processor.stackWidths.mapPushed change := by
  cases operation with
  | saveWidths => exact ⟨id, fun processor => ⟨rfl, rfl⟩⟩
  | advance instruction =>
    have php := Operation.role_advance_eq_save_iff.mp save
    refine ⟨remember none, fun processor => ⟨?_, ?_⟩⟩
    · simp only [perform, Processor.advance, php]
      rfl
    · rw [performUnbounded, if_pos php]
      rfl
  | _ => exact nomatch save

/-- What restores widths follows the same rules under either shadow. -/
theorem exists_restore (restore : operation.role = .restore) :
    ∃ change, ∀ processor,
      perform processor operation = processor.restoreWidths.mapPushed change ∧
        performUnbounded processor operation = processor.restoreWidths.mapPushed change := by
  cases operation with
  | restoreWidths => exact ⟨id, fun processor => ⟨rfl, rfl⟩⟩
  | advance instruction =>
    have plp := Operation.role_advance_eq_restore_iff.mp restore
    have advanced (processor : Processor) :
        processor.advance instruction = processor.restoreWidths.mapPushed (List.drop 1) := by
      simp only [Processor.advance, plp]
      rfl
    refine ⟨List.drop 1, fun processor => ⟨advanced processor, ?_⟩⟩
    rw [performUnbounded, if_neg (by rw [plp]; exact nofun)]
    exact advanced processor
  | _ => exact nomatch restore

/-- Any other operation takes no notice of the saved widths. -/
theorem perform_withSaved (alone : operation.role = .other) (processor : Processor)
    (saved : List Widths) :
    (processor.withSaved saved).perform operation =
      (processor.perform operation).withSaved saved := by
  cases operation with
  | exchangeMode => exact exchangeMode_withSaved processor saved
  | advance instruction =>
    obtain ⟨notSave, notRestore⟩ := Operation.role_advance_eq_other_iff.mp alone
    exact advance_withSaved notSave notRestore processor saved
  | saveWidths | restoreWidths => exact nomatch alone
  | _ => rfl

theorem performUnbounded_eq (notSave : operation.role ≠ .save) (processor : Processor) :
    processor.performUnbounded operation = processor.perform operation := by
  cases operation with
  | saveWidths => exact absurd rfl notSave
  | advance instruction =>
    have notPhp : instruction.mnemonic ≠ .php := mt Operation.role_advance_eq_save_iff.mpr notSave
    rw [performUnbounded, if_neg notPhp]
    rfl
  | _ => rfl

theorem saved_perform_of_save (save : operation.role = .save) (processor : Processor) :
    (processor.perform operation).saved = remember processor.widths processor.saved := by
  obtain ⟨change, same⟩ := exists_save save
  rw [(same processor).1]
  rfl

theorem saved_perform_of_other (alone : operation.role = .other) (processor : Processor) :
    (processor.perform operation).saved = processor.saved := by
  have kept := congrArg Processor.saved (perform_withSaved alone processor processor.saved)
  exact kept

end Roles

/-! ### The most recent entries -/

/-- The states agree but for the widths saved, of which the bounded one holds the most recent
entries, no more than there are places. -/
structure Abridges (bounded whole : Processor) : Prop where
  same : bounded = whole.withSaved bounded.saved
  recent : bounded.saved = whole.saved.take bounded.saved.length
  bound : bounded.saved.length ≤ shadowDepth

namespace Abridges

variable {bounded whole : Processor}

theorem refl (bound : whole.saved.length ≤ shadowDepth) : whole.Abridges whole :=
  ⟨rfl, List.take_length.symm, bound⟩

theorem saveWidths (abridges : bounded.Abridges whole) :
    bounded.saveWidths.Abridges whole.stackWidths := by
  obtain ⟨same, recent, -⟩ := abridges
  generalize bounded.saved = kept at same recent
  subst same
  refine ⟨rfl, ?_, length_remember_le _ _⟩
  have beginning : kept <+: whole.saved := List.prefix_iff_eq_take.mpr recent
  have extended : whole.widths :: kept <+: whole.widths :: whole.saved :=
    (List.prefix_cons_inj whole.widths).mpr beginning
  exact List.prefix_iff_eq_take.mp ((List.take_prefix shadowDepth _).trans extended)

/-- Widths that only the longer shadow has are not there to be restored. -/
theorem restoreWidths (abridges : bounded.Abridges whole)
    (fed : bounded.saved = [] → whole.saved = []) :
    bounded.restoreWidths.Abridges whole.restoreWidths := by
  obtain ⟨same, recent, bound⟩ := abridges
  generalize bounded.saved = kept at same recent bound fed
  subst same
  cases kept with
  | nil =>
    have empty := fed rfl
    simp only [Processor.restoreWidths, withSaved, empty]
    exact ⟨rfl, rfl, bound⟩
  | cons widths older =>
    obtain ⟨rest, held⟩ : ∃ rest, whole.saved = widths :: rest := by
      cases held : whole.saved with
      | nil =>
        rw [held, List.take_nil] at recent
        exact absurd recent (List.cons_ne_nil widths older)
      | cons first rest =>
        rw [held] at recent
        exact ⟨rest, congrArg (· :: rest) (List.cons.inj recent).1.symm⟩
    rw [held] at recent
    simp only [Processor.restoreWidths, withSaved, held]
    exact ⟨rfl, (List.cons.inj recent).2, Nat.le_of_succ_le bound⟩

theorem mapPushed (abridges : bounded.Abridges whole)
    (change : List (Option UInt8) → List (Option UInt8)) :
    (bounded.mapPushed change).Abridges (whole.mapPushed change) := by
  obtain ⟨same, recent, bound⟩ := abridges
  refine ⟨?_, recent, bound⟩
  exact congrArg (Processor.mapPushed · change) same

/-- One operation keeps the comparison. -/
theorem perform (abridges : bounded.Abridges whole) (operation : Operation)
    (fed : operation.role = .restore → bounded.saved = [] → whole.saved = []) :
    (bounded.perform operation).Abridges (whole.performUnbounded operation) := by
  cases role : operation.role with
  | save =>
    obtain ⟨change, acts⟩ := exists_save role
    rw [(acts bounded).1, (acts whole).2]
    exact abridges.saveWidths.mapPushed change
  | restore =>
    obtain ⟨change, acts⟩ := exists_restore role
    rw [(acts bounded).1, (acts whole).2]
    exact (abridges.restoreWidths (fed role)).mapPushed change
  | other =>
    have notSave : operation.role ≠ .save := by rw [role]; exact nofun
    obtain ⟨same, recent, bound⟩ := abridges
    rw [performUnbounded_eq notSave]
    have kept := saved_perform_of_other role bounded
    refine ⟨?_, ?_, ?_⟩
    · rw [kept, ← perform_withSaved role, ← same]
    · rw [kept, saved_perform_of_other role whole]
      exact recent
    · rw [kept]
      exact bound

/-- The comparison holds as long as the bounded shadow has what is to be restored. -/
theorem after (abridges : bounded.Abridges whole) (operations : List Operation)
    (fed : Fed bounded whole operations) :
    (bounded.after operations).Abridges (whole.afterUnbounded operations) := by
  induction operations generalizing bounded whole with
  | nil => exact abridges
  | cons operation rest inductionHypothesis =>
    have next := abridges.perform operation (fed 0 (Nat.succ_pos _))
    refine inductionHypothesis next fun index inside => ?_
    exact fed (index + 1) (Nat.succ_lt_succ inside)

end Abridges

/-! ### A shadow that is deep enough -/

theorem remember_eq_cons {Entry : Type} {entry : Entry} {shadow : List Entry}
    (room : (entry :: shadow).length ≤ shadowDepth) : remember entry shadow = entry :: shadow :=
  List.take_of_length_le room

/-- With room for one more entry nothing is forgotten. -/
theorem perform_eq_performUnbounded {processor : Processor} {operation : Operation}
    (room : (processor.performUnbounded operation).saved.length ≤ shadowDepth) :
    processor.perform operation = processor.performUnbounded operation := by
  by_cases save : operation.role = .save
  · obtain ⟨change, acts⟩ := exists_save save
    obtain ⟨bounded, unbounded⟩ := acts processor
    rw [unbounded] at room
    have whole : processor.saveWidths = processor.stackWidths :=
      congrArg processor.withSaved (remember_eq_cons room)
    rw [bounded, unbounded, whole]
  · exact (performUnbounded_eq save processor).symm

theorem after_eq_afterUnbounded {start : Processor} {operations : List Operation}
    (room : NeverDeep start operations) :
    start.after operations = start.afterUnbounded operations := by
  induction operations generalizing start with
  | nil => rfl
  | cons operation rest inductionHypothesis =>
    have first : start.perform operation = start.performUnbounded operation :=
      perform_eq_performUnbounded (room 1 (Nat.succ_pos _))
    have later : NeverDeep (start.performUnbounded operation) rest :=
      fun count inside => room (count + 1) (Nat.succ_le_succ inside)
    change (start.perform operation).after rest = _
    rw [first]
    exact inductionHypothesis later

/-! ### Blocks -/

theorem places_eq_succ {depth : Nat} (room : depth < shadowDepth) :
    shadowDepth - depth = shadowDepth - (depth + 1) + 1 := by
  omega

/-- Entries on top of the shadow push the older ones down, and those near the bottom out. -/
theorem take_remember {Entry : Type} (entry : Entry) (shadow : List Entry) {depth : Nat}
    (room : depth < shadowDepth) :
    (remember entry shadow).take (shadowDepth - depth) =
      entry :: shadow.take (shadowDepth - (depth + 1)) := by
  rw [remember, List.take_take, Nat.min_eq_left (Nat.sub_le _ _), places_eq_succ room,
    List.take_succ_cons]

/-- After the operations within a block the widths that the block saved are on top, with the older
ones below as far as the block has not pushed them out. -/
theorem exists_saved_of_opens {opening : Operation} {inner : List Operation} {depth : Nat}
    (opens : opening.role = .save) (room : depth < shadowDepth) (start : Processor)
    (within : ((start.perform opening).after inner).saved.take (shadowDepth - depth) =
      (start.perform opening).saved.take (shadowDepth - depth)) :
    ∃ older, (start.after (opening :: inner)).saved = start.widths :: older ∧
      older.take (shadowDepth - (depth + 1)) =
        start.saved.take (shadowDepth - (depth + 1)) := by
  rw [saved_perform_of_save opens, take_remember _ _ room] at within
  change ∃ older, ((start.perform opening).after inner).saved = _ ∧ _
  cases held : ((start.perform opening).after inner).saved with
  | nil =>
    rw [held, List.take_nil] at within
    exact absurd within.symm (List.cons_ne_nil _ _)
  | cons widths older =>
    rw [held, places_eq_succ room, List.take_succ_cons] at within
    obtain ⟨top, below⟩ := List.cons.inj within
    exact ⟨older, congrArg (· :: older) top, below⟩

/-- What closes a block takes the widths on top. -/
theorem perform_of_restore {closing : Operation} (closes : closing.role = .restore)
    {processor : Processor} {widths : Widths} {older : List Widths}
    (held : processor.saved = widths :: older) :
    (processor.perform closing).saved = older ∧
      ((processor.perform closing).emulation = false →
        (processor.perform closing).widths = widths) := by
  obtain ⟨change, acts⟩ := exists_restore closes
  rw [(acts processor).1]
  simp only [restoreWidths, held]
  refine ⟨rfl, fun isNative => ?_⟩
  have isNative' : processor.emulation = false := isNative
  simp only [mapPushed, Processor.widths, isNative', Bool.not_false, Bool.and_true]

/-- Nested operations leave the most recent entries as they were, but for as many as they can have
pushed out. -/
theorem take_saved_of_nested {depth : Nat} {operations : List Operation}
    (nested : Operation.Nested depth operations) (room : depth ≤ shadowDepth)
    (start : Processor) :
    (start.after operations).saved.take (shadowDepth - depth) =
      start.saved.take (shadowDepth - depth) := by
  induction nested generalizing start with
  | nil => rfl
  | @other _ operation _ alone _ inductionHypothesis =>
    refine (inductionHypothesis room (start.perform operation)).trans ?_
    rw [saved_perform_of_other alone]
  | @block _ opening closing inner rest opens closes _ _ within following =>
    obtain ⟨older, held, kept⟩ := exists_saved_of_opens opens room start
      (within (Nat.le_of_succ_le room) (start.perform opening))
    rw [after_append]
    refine (following room ((start.after (opening :: inner)).perform closing)).trans ?_
    rw [(perform_of_restore closes held).1]
    exact kept

/-- A block that is no deeper than the shadow restores the widths it saved. -/
theorem widths_of_block {depth : Nat} {operations : List Operation}
    (block : Operation.Block depth operations) (room : depth ≤ shadowDepth) (start : Processor)
    (isNative : (start.after operations).emulation = false) :
    (start.after operations).widths = start.widths := by
  cases block with
  | @intro depth opening closing inner opens closes within =>
    obtain ⟨older, held, -⟩ := exists_saved_of_opens opens room start
      (take_saved_of_nested within (Nat.le_of_succ_le room) (start.perform opening))
    rw [after_append] at isNative ⊢
    exact (perform_of_restore closes held).2 isNative

/-- The bounded shadow of the saved widths refines an unbounded one. From a state in which none are
saved, and as long as nothing is restored that only the unbounded one still has, the states agree
in all else and the bounded shadow holds the most recent entries of the other; the states are the
same as long as there are no more entries than places. A block of saves and restores that is no
deeper than the shadow restores the widths it began with, whatever was saved before. -/
theorem shadow_refines (start : Processor) (operations : List Operation) :
    (start.saved = [] → Fed start start operations →
      (start.after operations).Abridges (start.afterUnbounded operations)) ∧
    (NeverDeep start operations → start.after operations = start.afterUnbounded operations) ∧
    ∀ depth ≤ shadowDepth, Operation.Block depth operations →
      (start.after operations).emulation = false →
        (start.after operations).widths = start.widths := by
  refine ⟨fun empty fed => ?_, after_eq_afterUnbounded, fun depth room block isNative => ?_⟩
  · have fits : start.saved.length ≤ shadowDepth := by
      rw [empty]
      exact Nat.zero_le _
    exact (Abridges.refl fits).after operations fed
  · exact widths_of_block block room start isNative

/-- Nine saves, of which the first finds other widths than the rest, and eight restores. -/
def overflowing : List Operation :=
  .saveWidths :: .setFlags accumulatorFlag ::
    (List.replicate 8 .saveWidths ++ List.replicate 8 .restoreWidths)

/-- A state whose shadow has overflowed. -/
def deeplySaved : Processor :=
  (native true false).after (List.replicate 9 .saveWidths)

/-- `PHP` around another block, with changes of the widths inside both. -/
def narrowing : List Operation :=
  [.advance ⟨0, ⟨0x00, 0x8000⟩, 0x08, .absent, none⟩, .setFlags accumulatorFlag] ++
    [.saveWidths, .clearFlags indexFlag, .restoreWidths, .restoreWidths]

theorem shadow_refines_overflowing :
    ((native true true).after overflowing).saved = [] ∧
      ((native true true).afterUnbounded overflowing).saved = [⟨true, true⟩] ∧
      ((native true true).after overflowing).Abridges
        ((native true true).afterUnbounded overflowing) ∧
      (native true false).after narrowing = (native true false).afterUnbounded narrowing ∧
      (deeplySaved.after narrowing).widths = ⟨true, false⟩ := by
  refine ⟨rfl, rfl, ?_, ?_, ?_⟩
  · exact (shadow_refines (native true true) overflowing).1 rfl (by decide)
  · exact (shadow_refines (native true false) narrowing).2.1 (by decide)
  · have inner : Operation.Nested 1 [.saveWidths, .clearFlags indexFlag, .restoreWidths] :=
      .block rfl rfl (.other rfl (.nil 0)) (.nil 1)
    have block : Operation.Block 2 narrowing := .intro rfl rfl (.other rfl inner)
    exact (shadow_refines deeplySaved narrowing).2.2 2 (by decide) block rfl

end Cartridge.Processor
