/-
This file proves that reading an address undoes writing it, and that nothing else is read. An
address is written with a dollar and a colon; it is read back with or without either of them,
in letters of any case, and between any blanks. What is read at all is described apart from the
reader: the text without the blanks around it and without one dollar in front is either two
numerals around its first colon, or, without a colon, one numeral of six or four bytes. Every
other text is refused with an error that quotes it as it was given.
-/

import Cartridge.Error
import Cartridge.Proofs.Numeral
import Mathlib.Data.List.TakeWhile

namespace Cartridge

/-! ### Blanks around a text -/

namespace Blank

/-- A text without the blanks around it: only blanks were taken away, and none is left at
either end. -/
structure Trims (text body : List Char) : Prop where
  around : ∃ before after, text = before ++ body ++ after ∧
    ∀ character ∈ before ++ after, isBlank character = true
  head : ∀ character ∈ body.head?, isBlank character = false
  last : ∀ character ∈ body.getLast?, isBlank character = false

theorem isBlank_head?_trimStart {text : List Char} {character : Char}
    (first : character ∈ (trimStart text).head?) : isBlank character = false := by
  have solid := List.head?_dropWhile_not isBlank text
  rw [show (text.dropWhile isBlank).head? = some character from first] at solid
  simpa using solid

theorem exists_eq_append_trimStart (text : List Char) : ∃ before,
    text = before ++ trimStart text ∧ ∀ character ∈ before, isBlank character = true :=
  ⟨text.takeWhile isBlank, List.takeWhile_append_dropWhile.symm,
    fun _ member => List.mem_takeWhile_imp member⟩

theorem trims_trim (text : List Char) : Trims text (trim text) := by
  obtain ⟨before, start, blankBefore⟩ := exists_eq_append_trimStart text
  obtain ⟨after, finish, blankAfter⟩ := exists_eq_append_trimStart (trimStart text).reverse
  have body : trimStart text = trim text ++ after.reverse := by
    rw [trim, ← List.reverse_append, ← finish, List.reverse_reverse]
  refine ⟨⟨before, after.reverse, ?_, ?_⟩, fun character first => ?_, fun character final => ?_⟩
  · rw [List.append_assoc, ← body, ← start]
  · intro character member
    rcases List.mem_append.mp member with early | late
    · exact blankBefore character early
    · exact blankAfter character (List.mem_reverse.mp late)
  · apply @isBlank_head?_trimStart text
    rw [body, List.head?_append, Option.mem_def.mp first]
    rfl
  · rw [trim, List.getLast?_reverse] at final
    exact isBlank_head?_trimStart final

theorem trimStart_append {before : List Char}
    (blank : ∀ character ∈ before, isBlank character = true) (rest : List Char) :
    trimStart (before ++ rest) = trimStart rest :=
  List.dropWhile_append_of_pos blank

theorem trimStart_append_of_head {body : List Char} (nonempty : body ≠ [])
    (solid : ∀ character ∈ body, isBlank character = false) (rest : List Char) :
    trimStart (body ++ rest) = body ++ rest := by
  cases body with
  | nil => exact absurd rfl nonempty
  | cons first others =>
    rw [List.cons_append, trimStart, List.dropWhile_cons_of_neg]
    rw [solid first List.mem_cons_self]
    exact Bool.false_ne_true

/-- Blanks around a text without blanks are taken away. -/
theorem trim_append {before body after : List Char} (nonempty : body ≠ [])
    (blank : ∀ character ∈ before ++ after, isBlank character = true)
    (solid : ∀ character ∈ body, isBlank character = false) :
    trim (before ++ body ++ after) = body := by
  have early := trimStart_append
    (fun character member => blank character (List.mem_append_left _ member)) (body ++ after)
  have reversed : ∀ character ∈ after.reverse, isBlank character = true := fun character member =>
    blank character (List.mem_append_right _ (List.mem_reverse.mp member))
  have late := trimStart_append reversed body.reverse
  have flipped := trimStart_append_of_head (List.reverse_ne_nil_iff.mpr nonempty)
    (fun character member => solid character (List.mem_reverse.mp member)) []
  rw [List.append_nil] at flipped
  rw [trim, List.append_assoc, early, trimStart_append_of_head nonempty solid,
    List.reverse_append, late, flipped, List.reverse_reverse]

end Blank

namespace Address

/-! ### The texts that denote an address -/

/-- What is left of a text without the blanks around it and without one dollar in front. -/
def bare (text : List Char) : List Char :=
  dropDollar (Blank.trim text)

/-- A text was made bare: blanks around it and at most one dollar in front were taken away. -/
def Bares (text body : List Char) : Prop :=
  ∃ trimmed, Blank.Trims text trimmed ∧
    (trimmed = '$' :: body ∨ trimmed = body ∧ body.head? ≠ some '$')

theorem bares_bare (text : List Char) : Bares text (bare text) := by
  refine ⟨Blank.trim text, Blank.trims_trim text, ?_⟩
  rw [bare]
  unfold dropDollar
  split
  · exact Or.inl (by assumption)
  · rename_i other
    refine Or.inr ⟨rfl, fun first => ?_⟩
    obtain ⟨rest, same⟩ := List.head?_eq_some_iff.mp first
    exact other rest same

/-- A bare text denotes an address: two numerals around the first colon, or one numeral of six
bytes for all of it, or one of four bytes for a place in bank zero. -/
inductive Denotes : List Char → Address → Prop
  | split {bank low : List Char} {address : Address} (first : ':' ∉ bank)
      (bankValue : Hex.Numeral bank address.bank.toNat)
      (lowValue : Hex.Numeral low address.low.toNat) : Denotes (bank ++ ':' :: low) address
  | whole {text : List Char} {address : Address} (plain : ':' ∉ text)
      (six : (String.ofList text).utf8ByteSize = 6) (value : Hex.Numeral text address.toNat) :
      Denotes text address
  | short {text : List Char} {address : Address} (plain : ':' ∉ text)
      (four : (String.ofList text).utf8ByteSize = 4) (zero : address.bank = 0)
      (value : Hex.Numeral text address.low.toNat) : Denotes text address

/-- A bare text is in the language of addresses. -/
inductive Written : List Char → Prop
  | split {bank low : List Char} {bankValue lowValue : Nat} (first : ':' ∉ bank)
      (bankNumeral : Hex.Numeral bank bankValue) (bankFits : bankValue ≤ 0xFF)
      (lowNumeral : Hex.Numeral low lowValue) (lowFits : lowValue ≤ 0xFFFF) :
      Written (bank ++ ':' :: low)
  | plain {text : List Char} {value : Nat} (plain : ':' ∉ text)
      (length : (String.ofList text).utf8ByteSize = 6 ∨ (String.ofList text).utf8ByteSize = 4)
      (numeral : Hex.Numeral text value) : Written text

theorem byteLength_eq (text : List Char) : byteLength text = (String.ofList text).utf8ByteSize := by
  induction text with
  | nil => rfl
  | cons character rest inductionHypothesis =>
    rw [byteLength, inductionHypothesis, String.ofList_cons, String.utf8ByteSize_append,
      String.utf8ByteSize_singleton]

theorem length_le_byteLength (text : List Char) : text.length ≤ byteLength text := by
  induction text with
  | nil => exact Nat.le_refl _
  | cons character rest inductionHypothesis =>
    have positive := character.utf8Size_pos
    rw [List.length_cons, byteLength]
    omega

theorem toNat_ofNat {value : Nat} (small : value < 0x1000000) : (ofNat value).toNat = value := by
  rw [ofNat, toNat, UInt8.toNat_ofNat', UInt16.toNat_ofNat']
  omega

/-- A numeral has no more digits than bytes, so six bytes give no more than an address. -/
theorem value_lt_of_byteLength {text : List Char} {value : Nat} (numeral : Hex.Numeral text value)
    {count : Nat} (bytes : byteLength text = count) : value < 16 ^ count := by
  have short := length_le_byteLength text
  rw [bytes] at short
  exact Nat.lt_of_lt_of_le numeral.value_lt (Nat.pow_le_pow_right (by decide) short)

/-- Every text of the language denotes an address, and no other text does. -/
theorem exists_denotes_iff {body : List Char} :
    (∃ address, Denotes body address) ↔ Written body := by
  constructor
  · rintro ⟨address, denotes⟩
    cases denotes with
    | split first bankValue lowValue =>
      exact .split first bankValue (Nat.le_of_lt_succ address.bank.toNat_lt) lowValue
        (Nat.le_of_lt_succ address.low.toNat_lt)
    | whole plain six value => exact .plain plain (Or.inl six) value
    | short plain four _ value => exact .plain plain (Or.inr four) value
  · intro written
    cases written with
    | @split bank low bankValue lowValue first bankNumeral bankFits lowNumeral lowFits =>
      refine ⟨⟨UInt8.ofNat bankValue, UInt16.ofNat lowValue⟩, .split first ?_ ?_⟩
      · rwa [UInt8.toNat_ofNat_of_lt' (Nat.lt_succ_of_le bankFits)]
      · rwa [UInt16.toNat_ofNat_of_lt' (Nat.lt_succ_of_le lowFits)]
    | @plain _ value plain length numeral =>
      rcases length with six | four
      · have small := value_lt_of_byteLength numeral ((byteLength_eq body).trans six)
        exact ⟨ofNat value, .whole plain six ((toNat_ofNat small).symm ▸ numeral)⟩
      · have small := value_lt_of_byteLength numeral ((byteLength_eq body).trans four)
        refine ⟨⟨0, UInt16.ofNat value⟩, .short plain four rfl ?_⟩
        rwa [UInt16.toNat_ofNat_of_lt' small]

/-! ### The reader -/

theorem readSplit?_eq_some_iff {bank low : List Char} {address : Address} :
    readSplit? bank low = some address ↔
      Hex.Numeral bank address.bank.toNat ∧ Hex.Numeral low address.low.toNat := by
  simp only [readSplit?, Option.bind_eq_bind, Option.bind_eq_some_iff, Option.pure_def,
    Option.some.injEq]
  constructor
  · rintro ⟨bankValue, readBank, lowValue, readLow, rfl⟩
    obtain ⟨bankNumeral, bankFits⟩ := Hex.numeral?_eq_some_iff.mp readBank
    obtain ⟨lowNumeral, lowFits⟩ := Hex.numeral?_eq_some_iff.mp readLow
    rw [UInt8.toNat_ofNat_of_lt' (Nat.lt_succ_of_le bankFits),
      UInt16.toNat_ofNat_of_lt' (Nat.lt_succ_of_le lowFits)]
    exact ⟨bankNumeral, lowNumeral⟩
  · rintro ⟨bankNumeral, lowNumeral⟩
    refine ⟨address.bank.toNat, Hex.numeral?_eq_some_iff.mpr ⟨bankNumeral, ?_⟩,
      address.low.toNat, Hex.numeral?_eq_some_iff.mpr ⟨lowNumeral, ?_⟩, ?_⟩
    · exact Nat.le_of_lt_succ address.bank.toNat_lt
    · exact Nat.le_of_lt_succ address.low.toNat_lt
    · rw [UInt8.ofNat_toNat, UInt16.ofNat_toNat]

theorem readPlain?_eq_some_iff {text : List Char} {address : Address} :
    readPlain? text = some address ↔
      ((String.ofList text).utf8ByteSize = 6 ∧ Hex.Numeral text address.toNat) ∨
        ((String.ofList text).utf8ByteSize = 4 ∧ address.bank = 0 ∧
          Hex.Numeral text address.low.toNat) := by
  rw [← byteLength_eq, readPlain?]
  split
  · rename_i six
    rw [Option.map_eq_some_iff]
    constructor
    · rintro ⟨value, read, rfl⟩
      obtain ⟨numeral, -⟩ := Hex.numeral?_eq_some_iff.mp read
      rw [toNat_ofNat (value_lt_of_byteLength numeral six)]
      exact Or.inl ⟨six, numeral⟩
    · rintro (⟨-, numeral⟩ | ⟨four, -⟩)
      · have small := value_lt_of_byteLength numeral six
        refine ⟨address.toNat, Hex.numeral?_eq_some_iff.mpr ⟨numeral, ?_⟩, ofNat_toNat address⟩
        exact Nat.le_trans (Nat.le_of_lt small) (by decide)
      · exact absurd (six.symm.trans four) (by decide)
  · rename_i other
    split
    · rename_i four
      rw [Option.map_eq_some_iff]
      constructor
      · rintro ⟨value, read, rfl⟩
        obtain ⟨numeral, fits⟩ := Hex.numeral?_eq_some_iff.mp read
        refine Or.inr ⟨four, rfl, ?_⟩
        rwa [UInt16.toNat_ofNat_of_lt' (Nat.lt_succ_of_le fits)]
      · rintro (⟨six, -⟩ | ⟨-, zero, numeral⟩)
        · exact absurd six other
        · refine ⟨address.low.toNat, Hex.numeral?_eq_some_iff.mpr ⟨numeral, ?_⟩, ?_⟩
          · exact Nat.le_of_lt_succ address.low.toNat_lt
          · rw [UInt16.ofNat_toNat, ← zero]
    · rename_i short
      refine ⟨nofun, ?_⟩
      rintro (⟨six, -⟩ | ⟨four, -⟩)
      · exact absurd six other
      · exact absurd four short

theorem read?_of_plain {text : List Char} (plain : ':' ∉ bare text) :
    read? text = readPlain? (bare text) := by
  have none : (bare text).dropWhile (· != ':') = [] := by
    refine List.dropWhile_eq_nil_iff.mpr fun character member => ?_
    rw [bne_iff_ne]
    rintro rfl
    exact plain member
  rw [bare] at none ⊢
  simp only [read?, none]

theorem read?_of_split {text bank low : List Char} (split : bare text = bank ++ ':' :: low)
    (first : ':' ∉ bank) : read? text = readSplit? bank low := by
  have before : ∀ character ∈ bank, (character != ':') = true := by
    intro character member
    rw [bne_iff_ne]
    rintro rfl
    exact first member
  rw [bare] at split
  simp only [read?, split, List.dropWhile_append_of_pos before,
    List.takeWhile_append_of_pos before]
  simp

theorem read?_of_denotes {text body : List Char} {address : Address} (same : bare text = body)
    (denotes : Denotes body address) : read? text = some address := by
  cases denotes with
  | split first bankValue lowValue =>
    rw [read?_of_split same first]
    exact readSplit?_eq_some_iff.mpr ⟨bankValue, lowValue⟩
  | whole plain six value =>
    rw [read?_of_plain (same ▸ plain), same]
    exact readPlain?_eq_some_iff.mpr (Or.inl ⟨six, value⟩)
  | short plain four zero value =>
    rw [read?_of_plain (same ▸ plain), same]
    exact readPlain?_eq_some_iff.mpr (Or.inr ⟨four, zero, value⟩)

/-- The reader accepts exactly the texts that denote an address when they are bare. -/
theorem read?_eq_some_iff {text : List Char} {address : Address} :
    read? text = some address ↔ Denotes (bare text) address := by
  refine ⟨fun read => ?_, read?_of_denotes rfl⟩
  by_cases colon : ':' ∈ bare text
  · obtain ⟨bank, low, split, first⟩ := List.eq_append_cons_of_mem colon
    rw [read?_of_split split first, readSplit?_eq_some_iff] at read
    exact split ▸ .split first read.1 read.2
  · rw [read?_of_plain colon, readPlain?_eq_some_iff] at read
    rcases read with ⟨six, value⟩ | ⟨four, zero, value⟩
    · exact .whole colon six value
    · exact .short colon four zero value

/-! ### Written forms -/

/-- A text spells an address: it is the written form, possibly without the dollar or the colon,
in letters of any case. -/
def Spells (address : Address) (spelled : List Char) : Prop :=
  ∃ dollar colon : Bool, spelled.map Char.toLower = (address.text.toList.filter fun character =>
    (dollar || character != '$') && (colon || character != ':')).map Char.toLower

/-- A digit is neither a blank nor a mark, and takes one byte. -/
theorem solid_of_isDigit {character : Char} {value : Nat} (digit : Hex.IsDigit character value) :
    Blank.isBlank character = false ∧ character ≠ '$' ∧ character ≠ ':' ∧
      character.utf8Size = 1 := by
  have every : (Hex.lowerDigits ++ Hex.upperDigits).all (fun digit =>
      decide (Blank.isBlank digit = false ∧ digit ≠ '$' ∧ digit ≠ ':' ∧ digit.utf8Size = 1)) := by
    decide
  exact of_decide_eq_true (List.all_eq_true.mp every character digit.mem)

theorem byteLength_of_digits {text : List Char} {value : Nat} (digits : Hex.Digits text value) :
    byteLength text = text.length := by
  have single : ∀ character ∈ text, character.utf8Size = 1 := by
    intro character member
    obtain ⟨digit, here⟩ := digits.exists_isDigit member
    exact (solid_of_isDigit here).2.2.2
  clear digits
  induction text with
  | nil => rfl
  | cons character rest inductionHypothesis =>
    rw [byteLength, single character List.mem_cons_self,
      inductionHypothesis fun other member => single other (List.mem_cons_of_mem _ member),
      List.length_cons, Nat.add_comm]

/-- Two digits write a bank, and four a place in it. -/
theorem fits_written (address : Address) :
    address.bank.toNat < Hex.capacity 2 ∧ address.low.toNat < Hex.capacity 4 :=
  ⟨address.bank.toNat_lt, address.low.toNat_lt⟩

/-- The parts that are left of the written form. -/
theorem filter_text (address : Address) (dollar colon : Bool) :
    (address.text.toList.filter fun character =>
      (dollar || character != '$') && (colon || character != ':')) =
      (if dollar then ['$'] else []) ++ (Hex.fixedDigits 2 address.bank.toNat ++
        ((if colon then [':'] else []) ++ Hex.fixedDigits 4 address.low.toNat)) := by
  have keep {width value : Nat} (fits : value < Hex.capacity width) :
      (Hex.fixedDigits width value).filter (fun character =>
        (dollar || character != '$') && (colon || character != ':')) =
          Hex.fixedDigits width value := by
    refine List.filter_eq_self.mpr fun character member => ?_
    obtain ⟨digit, here⟩ := (Hex.digits_of_fixedDigits fits rfl).exists_isDigit member
    obtain ⟨-, noDollar, noColon, -⟩ := solid_of_isDigit here
    simp [noDollar, noColon]
  obtain ⟨bankFits, lowFits⟩ := address.fits_written
  simp only [text, String.toList_append, Hex.fixed, String.toList_ofList, List.filter_append,
    keep bankFits, keep lowFits, List.append_assoc]
  cases dollar <;> cases colon <;> rfl

/-- No letter becomes a mark in lower case. -/
theorem eq_of_map_toLower {mark : Char} (isMark : mark ∈ ['$', ':']) {text : List Char}
    (same : text.map Char.toLower = [mark]) : text = [mark] := by
  have every : ∀ character : Char, character.toLower = mark → character = mark := by
    refine Hex.forall_char _ (fun code => ?_) fun character large lower => ?_
    · have small : ∀ code : Fin 128, ['$', ':'].all fun mark =>
          decide ((Char.ofNat code).toLower = mark → Char.ofNat code = mark) := by
        decide
      exact of_decide_eq_true (List.all_eq_true.mp (small code) mark isMark)
    · rwa [Hex.toLower_of_large large] at lower
  obtain ⟨character, rfl, lower⟩ := List.map_eq_singleton_iff.mp same
  rw [every character lower]

/-- The parts of a text that spells an address. -/
theorem Spells.exists_parts {address : Address} {spelled : List Char}
    (spells : address.Spells spelled) : ∃ opening bank separator low,
      spelled = opening ++ (bank ++ (separator ++ low)) ∧ (opening = ['$'] ∨ opening = []) ∧
        (separator = [':'] ∨ separator = []) ∧ bank.length = 2 ∧ low.length = 4 ∧
        Hex.Digits bank address.bank.toNat ∧ Hex.Digits low address.low.toNat := by
  obtain ⟨dollar, colon, same⟩ := spells
  rw [filter_text, List.map_append, List.map_append, List.map_append] at same
  obtain ⟨opening, afterOpening, rfl, opened, same⟩ := List.map_eq_append_iff.mp same
  obtain ⟨bank, afterBank, rfl, banked, same⟩ := List.map_eq_append_iff.mp same
  obtain ⟨separator, low, rfl, separated, placed⟩ := List.map_eq_append_iff.mp same
  refine ⟨opening, bank, separator, low, rfl, ?_, ?_, ?_, ?_,
    Hex.digits_of_fixedDigits address.fits_written.1 banked,
    Hex.digits_of_fixedDigits address.fits_written.2 placed⟩
  · cases dollar with
    | true => exact Or.inl (eq_of_map_toLower (by decide) opened)
    | false => exact Or.inr (List.map_eq_nil_iff.mp opened)
  · cases colon with
    | true => exact Or.inl (eq_of_map_toLower (by decide) separated)
    | false => exact Or.inr (List.map_eq_nil_iff.mp separated)
  · simpa using congrArg List.length banked
  · simpa using congrArg List.length placed

/-- The parts of a text that spells an address denote it without the dollar. -/
theorem denotes_of_parts {address : Address} {bank separator low : List Char}
    (separated : separator = [':'] ∨ separator = []) (bankLength : bank.length = 2)
    (lowLength : low.length = 4) (bankDigits : Hex.Digits bank address.bank.toNat)
    (lowDigits : Hex.Digits low address.low.toNat) :
    Denotes (bank ++ (separator ++ low)) address := by
  have noColon {text : List Char} {value : Nat} (digits : Hex.Digits text value) : ':' ∉ text := by
    intro member
    obtain ⟨digit, here⟩ := digits.exists_isDigit member
    exact (solid_of_isDigit here).2.2.1 rfl
  have nonempty {text : List Char} {count : Nat} (length : text.length = count + 1) : text ≠ [] :=
    List.ne_nil_of_length_eq_add_one length
  rcases separated with rfl | rfl
  · exact .split (noColon bankDigits) (.plain (nonempty bankLength) bankDigits)
      (.plain (nonempty lowLength) lowDigits)
  · have whole : Hex.Digits (bank ++ low) address.toNat := by
      have both := bankDigits.append lowDigits
      rwa [lowLength] at both
    have six : (bank ++ low).length = 6 := by
      rw [List.length_append, bankLength, lowLength]
    exact .whole (noColon whole)
      ((byteLength_eq _).symm.trans ((byteLength_of_digits whole).trans six))
      (.plain (nonempty six) whole)

theorem dropDollar_of_head {text : List Char} (other : text.head? ≠ some '$') :
    dropDollar text = text := by
  unfold dropDollar
  split
  · exact absurd rfl other
  · rfl

/-- What spells an address, with blanks around it, denotes the address. -/
theorem Spells.denotes {address : Address} {spelled before after : List Char}
    (spells : address.Spells spelled)
    (blank : ∀ character ∈ before ++ after, Blank.isBlank character = true) :
    Denotes (bare (before ++ spelled ++ after)) address := by
  obtain ⟨opening, bank, separator, low, rfl, opened, separated, bankLength, lowLength, bankDigits,
    lowDigits⟩ := spells.exists_parts
  have denotes := denotes_of_parts separated bankLength lowLength bankDigits lowDigits
  have solid : ∀ character ∈ opening ++ (bank ++ (separator ++ low)),
      Blank.isBlank character = false := by
    have digit {text : List Char} {value : Nat} (digits : Hex.Digits text value) :
        ∀ character ∈ text, Blank.isBlank character = false := by
      intro character member
      obtain ⟨digit, here⟩ := digits.exists_isDigit member
      exact (solid_of_isDigit here).1
    have openingSolid : ∀ character ∈ opening, Blank.isBlank character = false := by
      rcases opened with rfl | rfl
      · exact List.forall_mem_singleton.mpr (by decide)
      · exact List.forall_mem_nil _
    have separatorSolid : ∀ character ∈ separator, Blank.isBlank character = false := by
      rcases separated with rfl | rfl
      · exact List.forall_mem_singleton.mpr (by decide)
      · exact List.forall_mem_nil _
    simp only [List.forall_mem_append]
    exact ⟨openingSolid, digit bankDigits, separatorSolid, digit lowDigits⟩
  obtain ⟨first, rest, rfl⟩ := List.exists_cons_of_length_eq_add_one bankLength
  have head : (first :: rest ++ (separator ++ low)).head? ≠ some '$' := by
    obtain ⟨digit, here⟩ := bankDigits.exists_isDigit List.mem_cons_self
    simpa using (solid_of_isDigit here).2.1
  rw [bare, Blank.trim_append (by simp) blank solid]
  rcases opened with rfl | rfl
  · exact denotes
  · rw [List.nil_append, dropDollar_of_head head]
    exact denotes

/-! ### Reading -/

/-- Reading undoes writing: an address is read from every text that spells it, between any blanks.
And nothing else is read: a text gives an address exactly if it denotes it when it is bare, a
text that is not written as an address is refused, and the error quotes it as it was given. -/
theorem read_exact :
    (∀ (address : Address) (spelled before after : List Char), address.Spells spelled →
      (∀ character ∈ before ++ after, Blank.isBlank character = true) →
        read (String.ofList (before ++ spelled ++ after)) = .ok address) ∧
    ∀ text : String, Bares text.toList (bare text.toList) ∧
      (∀ address, read text = .ok address ↔ Denotes (bare text.toList) address) ∧
      ((∃ address, read text = .ok address) ↔ Written (bare text.toList)) ∧
      (¬ Written (bare text.toList) → read text = .error (.address text)) ∧
      (Error.address text).message = "Invalid CPU address: " ++ text := by
  have reads (text : String) (address : Address) :
      read text = .ok address ↔ Denotes (bare text.toList) address := by
    rw [← read?_eq_some_iff, read]
    cases read? text.toList <;> simp
  have written (text : String) :
      (∃ address, read text = .ok address) ↔ Written (bare text.toList) := by
    simp only [reads, exists_denotes_iff]
  refine ⟨fun address spelled before after spells blank => ?_, fun text =>
    ⟨bares_bare text.toList, reads text, written text, fun unwritten => ?_, rfl⟩⟩
  · rw [reads, String.toList_ofList]
    exact spells.denotes blank
  · rw [read]
    cases found : read? text.toList with
    | none => rfl
    | some address =>
      have accepted : read text = .ok address := by rw [read, found]
      exact absurd ((written text).mp ⟨address, accepted⟩) unwritten

/-- An address without its dollar, in mixed letters and between blanks; and a text with two
dollars. -/
theorem read_exact_mixed : Spells ⟨0x7E, 0xFF0A⟩ ['7', 'e', ':', 'F', 'f', '0', 'a'] ∧
    read (String.ofList (['\u3000'] ++ ['7', 'e', ':', 'F', 'f', '0', 'a'] ++ ['\n'])) =
      .ok ⟨0x7E, 0xFF0A⟩ ∧
    ¬ Written ['$', '0', '0', ':', '8', '0', '0', '0'] ∧
    read "$$00:8000" = .error (.address "$$00:8000") := by
  have spells : Spells ⟨0x7E, 0xFF0A⟩ ['7', 'e', ':', 'F', 'f', '0', 'a'] :=
    ⟨false, true, by decide⟩
  have blank : ∀ character ∈ ['\u3000'] ++ ['\n'], Blank.isBlank character = true :=
    List.forall_mem_append.mpr ⟨List.forall_mem_singleton.mpr (by decide),
      List.forall_mem_singleton.mpr (by decide)⟩
  obtain ⟨-, -, accepted, refused, -⟩ := read_exact.2 "$$00:8000"
  have unwritten : ¬ Written ['$', '0', '0', ':', '8', '0', '0', '0'] := by
    intro written
    obtain ⟨address, impossible⟩ := accepted.mpr written
    exact nomatch impossible
  exact ⟨spells, read_exact.1 _ _ ['\u3000'] ['\n'] spells blank, unwritten, refused unwritten⟩

end Address

end Cartridge
