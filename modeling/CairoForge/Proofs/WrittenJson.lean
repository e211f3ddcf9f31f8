import CairoForge.Json
import CairoForge.Proofs.AcceptedJson
import Mathlib.Data.List.Induction

/-!
# Written JSON

What is written of a value is one of its spellings, however it was spaced; so it is read back. Of
all spellings of a whole number only its digits are written, and of no other number.

## Main definitions

* `Json.reading?` — what is to be read of a value, unless a number of it may be rounded.
* `Json.Spacing.IsBlank` — a spacing that leaves values as they are.

## Main results

* `Json.spellsChar_escape` — a character is spelled by its escape.
* `Spells.integer_iff` — a whole number is spelled by its digits.
* `Json.spells_write` — a value is spelled by what is written of it.
* `Transcript.ofText_compact`, `Transcript.ofText_pretty` — a value is read back from its text.
-/

namespace CairoForge

/-! ## What is to be read -/

namespace Json

/-- Is the integer one of 64 bits, with a sign or without? -/
def fitsWord (n : Int) : Bool :=
  decide (-(Numeral.signedLimit : Int) ≤ n) && decide (n < Numeral.wordLimit)

mutual

/-- What is to be read of a value. Of a value with a number that may be rounded this is left
open. -/
def reading? : Json → Option Reading
  | .null => some .null
  | .bool b => some (.bool b)
  | .integer n => if fitsWord n then some (.number (some (.integer n))) else none
  | .number _ => none
  | .text s => some (.text s)
  | .array items => (itemReadings? items).map (.array · none)
  | .object members => (memberReadings? members).map (.object · none)

/-- What is to be read of items. -/
def itemReadings? : List Json → Option (List Reading)
  | [] => some []
  | item :: rest => do
    let r ← reading? item
    let others ← itemReadings? rest
    return r :: others

/-- What is to be read of members. -/
def memberReadings? : List (String × Json) → Option (List (MemberName × Reading))
  | [] => some []
  | (name, value) :: rest => do
    let r ← reading? value
    let others ← memberReadings? rest
    return (.ok name, r) :: others

end

theorem itemReadings?_cons_eq_some {item : Json} {rest : List Json} {rs : List Reading}
    (h : itemReadings? (item :: rest) = some rs) :
    ∃ r others, item.reading? = some r ∧ itemReadings? rest = some others ∧ rs = r :: others := by
  rw [itemReadings?] at h
  obtain ⟨r, hr, h⟩ := Option.bind_eq_some_iff.mp h
  obtain ⟨others, hothers, h⟩ := Option.bind_eq_some_iff.mp h
  exact ⟨r, others, hr, hothers, (Option.some.inj h).symm⟩

theorem memberReadings?_cons_eq_some {name : String} {value : Json} {rest : List (String × Json)}
    {rs : List (MemberName × Reading)} (h : memberReadings? ((name, value) :: rest) = some rs) :
    ∃ r others, value.reading? = some r ∧ memberReadings? rest = some others ∧
      rs = (.ok name, r) :: others := by
  rw [memberReadings?] at h
  obtain ⟨r, hr, h⟩ := Option.bind_eq_some_iff.mp h
  obtain ⟨others, hothers, h⟩ := Option.bind_eq_some_iff.mp h
  exact ⟨r, others, hr, hothers, (Option.some.inj h).symm⟩

/-! ## Spacing -/

/-- A spacing of blanks leaves values as they are. -/
structure Spacing.IsBlank (spacing : Spacing) : Prop where
  lineBreak : ∀ depth, IsGap (spacing.lineBreak depth)
  afterColon : IsGap spacing.afterColon

theorem Spacing.isBlank_none : Spacing.none.IsBlank where
  lineBreak _ := IsGap.nil
  afterColon := IsGap.nil

theorem Spacing.isBlank_lines : Spacing.lines.IsBlank where
  lineBreak depth c hc := by
    rcases List.mem_cons.mp hc with rfl | hc
    · rfl
    · rw [List.eq_of_mem_replicate hc]
      rfl
  afterColon := IsGap.singleton rfl

end Json

/-! ## Strings -/

namespace Json

theorem hexValue?_digitChar : ∀ n < 16, TextScan.hexValue? (Nat.digitChar n) = some n := by
  decide

/-- **A control character is spelled** by its digits. -/
theorem spellsChar_hexByte {n : Nat} (h : n < 32) :
    SpellsChar (['\\', 'u', '0', '0'] ++ hexByte n) (Char.ofNat n) := by
  have hunit : SpellsUnit ('0' :: '0' :: hexByte n) n := by
    have hzero : TextScan.hexValue? '0' = some 0 := rfl
    have hhigh := hexValue?_digitChar (n / 16 % 16) (Nat.mod_lt _ (by decide))
    have hlow := hexValue?_digitChar (n % 16) (Nat.mod_lt _ (by decide))
    refine ⟨rfl, ?_⟩
    simp only [hexNumber?, hexByte, List.foldlM_cons, List.foldlM_nil, hzero, hhigh, hlow,
      Option.map_some, Option.bind_eq_bind, Option.bind_some, Option.pure_def, Option.some.injEq]
    omega
  have hhigh : TextScan.isHigh n = false := by
    simp [TextScan.isHigh]
    omega
  have hlow : TextScan.isLow n = false := by
    simp [TextScan.isLow]
    omega
  exact .unit hunit hhigh hlow

/-- **A character is spelled** by its escape. -/
theorem spellsChar_escape (c : Char) : SpellsChar (escape c) c := by
  unfold escape
  split_ifs with hquote hbackslash hback hfeed hline hreturn htab hcontrol
  -- the characters with an escape of two characters
  iterate 7
    · subst c
      exact .short (by decide)
  · have hspelled := spellsChar_hexByte hcontrol
    rwa [Char.ofNat_toNat] at hspelled
  · exact .plain hquote hbackslash (Nat.not_lt.mp hcontrol)

theorem spellsText_escape (cs : List Char) : SpellsText (cs.flatMap escape) cs := by
  induction cs with
  | nil => exact .nil
  | cons c cs ih => exact (spellsChar_escape c).text.append ih

/-- **A text is spelled** between its quotes. -/
theorem spells_quoted {rounding : Rounding} (s : String) :
    Spells rounding (quoted s) (.text s) := by
  have hspelled := @Spells.text rounding _ _ (spellsText_escape s.toList)
  rwa [String.ofList_toList] at hspelled

end Json

/-! ## Whole numbers -/

theorem digitChar_digitValue {c : Char} (hc : c.isDigit = true) :
    Numeral.digitValue c < 10 ∧ Nat.digitChar (Numeral.digitValue c) = c := by
  have hrange : 48 ≤ c.toNat ∧ c.toNat ≤ 57 := by
    have hval : c.val ≥ 48 ∧ c.val ≤ 57 := by simpa [Char.isDigit] using hc
    exact ⟨UInt32.le_iff_toNat_le.mp hval.1, UInt32.le_iff_toNat_le.mp hval.2⟩
  have hvalue : Numeral.digitValue c = c.toNat - 48 := rfl
  have htable : ∀ d < 10, Nat.digitChar d = Char.ofNat (48 + d) := by decide
  have hlt : Numeral.digitValue c < 10 := by omega
  refine ⟨hlt, ?_⟩
  rw [htable _ hlt, hvalue, Nat.add_sub_cancel' hrange.1, Char.ofNat_toNat]

theorem natural_snoc (ds : List Char) (c : Char) :
    Numeral.natural (ds ++ [c]) = 10 * Numeral.natural ds + Numeral.digitValue c := by
  simp [Numeral.natural]

/-- **The digits of a whole number** are those that are written for it. -/
theorem decimalDigits_natural {ds : List Char} (h : IsWhole ds) :
    decimalDigits (Numeral.natural ds) = ds := by
  rcases h with rfl | ⟨⟨hne, hdigits⟩, hfirst⟩
  · decide
  -- from the last digit, which is the remainder by ten
  · induction ds using List.reverseRecOn with
    | nil => exact absurd rfl hne
    | append_singleton ds c ih =>
      obtain ⟨hlt, hchar⟩ := digitChar_digitValue (hdigits c (by simp))
      rw [natural_snoc]
      rcases List.eq_nil_or_concat ds with rfl | ⟨_, _, hconcat⟩
      · have hvalue : 10 * Numeral.natural [] + Numeral.digitValue c = Numeral.digitValue c := by
          simp [Numeral.natural]
        rw [hvalue, decimalDigits, Nat.toDigits_of_lt_base hlt, hchar]
        rfl
      · have hds : ds ≠ [] := by simp [hconcat]
        have hhead : ds.head? ≠ some '0' := by
          obtain ⟨first, rest, rfl⟩ := List.exists_cons_of_ne_nil hds
          exact hfirst
        have hdigitsOf := ih hhead hds fun d hd => hdigits d (by simp [hd])
        -- no zero stands in front, so the digits before the last one are a positive number
        have hpositive : Numeral.natural ds ≠ 0 := by
          intro hzero
          rw [hzero] at hdigitsOf
          exact hhead (hdigitsOf ▸ rfl)
        rw [decimalDigits, Nat.toDigits_of_base_le (by decide) (by omega)]
        have hdiv : (10 * Numeral.natural ds + Numeral.digitValue c) / 10 =
            Numeral.natural ds := by omega
        have hmod : (10 * Numeral.natural ds + Numeral.digitValue c) % 10 =
            Numeral.digitValue c := by omega
        rw [hdiv, hmod, hchar]
        exact congrArg (· ++ [c]) hdigitsOf

theorem natural_decimalDigits (n : Nat) : Numeral.natural (decimalDigits n) = n :=
  Nat.ofDigitChars_ten_toDigits

/-- What is written for a whole number spells one. -/
theorem isWhole_decimalDigits (n : Nat) : IsWhole (decimalDigits n) := by
  by_cases hzero : n = 0
  · subst hzero
    exact .inl (by decide)
  · refine .inr ⟨⟨Nat.toDigits_ne_nil, fun c hc => ?_⟩, ?_⟩
    · exact Nat.isDigit_of_mem_toDigits (by decide) (by decide) hc
    -- the first digit is that of the tenth part
    · induction n using Nat.strongRecOn with
      | _ n ih =>
        by_cases hn : n < 10
        · rw [decimalDigits, Nat.toDigits_of_lt_base hn]
          simpa [Nat.digitChar_eq_zero] using hzero
        · rw [decimalDigits, Nat.toDigits_of_base_le (by decide) (by omega)]
          obtain ⟨first, rest, hfirst⟩ :=
            List.exists_cons_of_ne_nil (@Nat.toDigits_ne_nil (n / 10) 10)
          have hhead := ih (n / 10) (by omega) (by omega)
          rw [decimalDigits, hfirst] at hhead
          rw [hfirst]
          exact hhead

namespace Scan

variable {rounding : Rounding}

/-- Digits that fit a word stand for their integer. -/
theorem quantity?_digits {n : Int} (h : Json.fitsWord n = true) :
    Numeral.quantity? rounding { negative := decide (n < 0), whole := decimalDigits n.natAbs } =
      some (.integer n) := by
  have hnatural := natural_decimalDigits n.natAbs
  have hrange : -(Numeral.signedLimit : Int) ≤ n ∧ n < Numeral.wordLimit := by
    simpa [Json.fitsWord] using h
  have hword : n.natAbs < Numeral.wordLimit := by
    simp only [Numeral.wordLimit, Numeral.signedLimit] at hrange ⊢
    omega
  have hsigned : n < 0 → n.natAbs ≠ 0 ∧ n.natAbs ≤ Numeral.signedLimit := by
    omega
  -- a negative number has its own limit, and zero has no sign
  have hinteger : Numeral.isInteger
      { negative := decide (n < 0), whole := decimalDigits n.natAbs } = true := by
    by_cases hnegative : n < 0
    · obtain ⟨hzero, hleast⟩ := hsigned hnegative
      simp [Numeral.isInteger, hnatural, hword, hleast, Int.natAbs_ne_zero.mp hzero]
    · simp [Numeral.isInteger, hnatural, hword, hnegative]
  have hvalue : Binary64.signed (decide (n < 0)) n.natAbs = n := by
    by_cases hnegative : n < 0
    · simp only [Binary64.signed, hnegative, decide_true, if_true]
      omega
    · simp only [Binary64.signed, hnegative, decide_false, Bool.false_eq_true, if_false]
      omega
  rw [Numeral.quantity?, if_pos hinteger, hnatural, hvalue]

end Scan

section

variable {rounding : Rounding} {cs : List Char}

/-- **An integer is spelled** by what is written of it. -/
theorem Spells.of_decimalText {n : Int} (h : Json.fitsWord n = true) :
    Spells rounding (decimalText n).toList (.number (some (.integer n))) := by
  rw [← Scan.quantity?_digits h]
  refine .number ?_
  have hparts := @SpellsNumeral.parts (decide (n < 0)) _ _ _ _ _ (isWhole_decimalDigits n.natAbs)
    .none .none
  by_cases hnegative : n < 0 <;> simpa [decimalText, signText, hnegative] using hparts

theorem Spells.exists_numeral {quantity? : Option Quantity}
    (h : Spells rounding cs (.number quantity?)) :
    ∃ n, SpellsNumeral cs n ∧ quantity? = n.quantity? rounding := by
  generalize hr : Reading.number quantity? = r at h
  cases h with
  | number hcs => exact ⟨_, hcs, Reading.number.inj hr⟩
  | _ => cases hr

/-- **A whole number of one word** is spelled by its digits: without a fraction, an exponent or a
sign. -/
theorem Spells.integer_iff {r : Reading} (h : Spells rounding cs r) {n : Nat}
    (hn : n < Numeral.wordLimit) : r = .number (some (.integer n)) ↔ cs = decimalDigits n := by
  constructor
  · rintro rfl
    obtain ⟨m, hcs, hquantity⟩ := h.exists_numeral
    rw [Numeral.quantity?] at hquantity
    split_ifs at hquantity with hinteger
    · have hvalue := Quantity.integer.inj (Option.some.inj hquantity)
      -- an integer has neither a fraction nor an exponent, so the digits are all there is
      cases hcs with
      | @parts negative whole _ _ _ _ hwhole hfraction hexponent =>
        simp only [Numeral.isInteger, Bool.and_eq_true, List.isEmpty_iff, Option.isNone_iff_eq_none,
          Bool.or_eq_true, Bool.not_eq_true', bne_iff_ne, decide_eq_true_iff] at hinteger
        obtain ⟨⟨⟨rfl, rfl⟩, -⟩, hsign⟩ := hinteger
        cases hexponent
        cases hfraction with
        | digits hds => exact absurd rfl hds.1
        | none =>
          cases negative with
          | true =>
            simp [Binary64.signed] at hvalue hsign
            omega
          | false =>
            obtain rfl : n = Numeral.natural whole :=
              Int.ofNat.inj (by simpa [Binary64.signed] using hvalue)
            simp [signText, decimalDigits_natural hwhole]
    · dsimp only at hquantity
      split_ifs at hquantity
      cases Option.some.inj hquantity
  · rintro rfl
    have hfits : Json.fitsWord n = true := by
      have hword : Numeral.wordLimit = 0x10000000000000000 := rfl
      simp only [Json.fitsWord, Bool.and_eq_true, decide_eq_true_iff]
      omega
    have hspelled := @Spells.of_decimalText rounding _ hfits
    have htext : (decimalText n).toList = decimalDigits n := by
      have hnegative : ¬ (n : Int) < 0 := by omega
      simp [decimalText, hnegative]
    rw [htext] at hspelled
    exact h.unique hspelled

end

/-! ## Values -/

namespace Json

variable {rounding : Rounding} {spacing : Spacing}

/-- **A name is spelled** by what is written of it up to the colon. -/
theorem spellsName_quoted (name : String) : SpellsName (quoted name ++ [':']) name := by
  have hspelled := SpellsName.name (spellsText_escape name.toList) IsGap.nil
  rw [String.ofList_toList] at hspelled
  simpa [quoted] using hspelled

theorem spellsPadded_of_spells {gap value : List Char} {r : Reading} (hgap : IsGap gap)
    (h : Spells rounding value r) : SpellsPadded rounding (gap ++ value) ⟨value, r⟩ := by
  simpa using SpellsPadded.padded hgap h IsGap.nil

/-! The spellings of items and members follow the writer: those behind a value join what stands
before them. -/

mutual

/-- **A value is spelled** by what is written of it. -/
theorem spells_write (hspacing : spacing.IsBlank) (j : Json) {r : Reading}
    (hr : j.reading? = some r) (depth : Nat) : Spells rounding (write spacing depth j) r := by
  cases j with
  | null =>
    obtain rfl := Option.some.inj hr
    exact .null
  | bool b =>
    obtain rfl := Option.some.inj hr
    cases b with
    | true => exact .yes
    | false => exact .no
  | integer n =>
    rw [reading?] at hr
    obtain ⟨hfits, hr⟩ := Option.ite_none_right_eq_some.mp hr
    obtain rfl := Option.some.inj hr
    exact .of_decimalText hfits
  | number x => cases hr
  | text s =>
    obtain rfl := Option.some.inj hr
    exact spells_quoted s
  | array items =>
    rw [reading?] at hr
    obtain ⟨rs, hrs, rfl⟩ := Option.map_eq_some_iff.mp hr
    cases items with
    | nil =>
      obtain rfl := Option.some.inj hrs
      exact .array (.none IsGap.nil)
    | cons first rest =>
      obtain ⟨r, others, hfirst, hothers, rfl⟩ := itemReadings?_cons_eq_some hrs
      -- the first item follows the bracket, the others a comma each
      have hone := SpellsItems.one (spellsPadded_of_spells (hspacing.lineBreak (depth + 1))
        (spells_write hspacing first hfirst (depth + 1)))
      have hitems := spells_writeItems hspacing rest hothers hone (List.cons_ne_nil _ _) (depth + 1)
      simpa [write] using Spells.array (hitems.gap (hspacing.lineBreak depth))
  | object members =>
    rw [reading?] at hr
    obtain ⟨rs, hrs, rfl⟩ := Option.map_eq_some_iff.mp hr
    cases members with
    | nil =>
      obtain rfl := Option.some.inj hrs
      exact .object (.none IsGap.nil)
    | cons member rest =>
      obtain ⟨name, value⟩ := member
      obtain ⟨r, others, hvalue, hothers, rfl⟩ := memberReadings?_cons_eq_some hrs
      -- members likewise, each behind its name
      have hone := SpellsMembers.one (hspacing.lineBreak (depth + 1)) (spellsName_quoted name)
        (spellsPadded_of_spells hspacing.afterColon
          (spells_write hspacing value hvalue (depth + 1)))
      obtain ⟨more, rfl, hmembers⟩ :=
        spells_writeMembers hspacing rest hothers hone (List.cons_ne_nil _ _) (depth + 1)
      simpa [write, memberName, readingsOf] using
        Spells.object (hmembers.gap (hspacing.lineBreak depth))

/-- Items behind others are spelled by what is written of them. -/
theorem spells_writeItems (hspacing : spacing.IsBlank) (items : List Json) {rs : List Reading}
    (hrs : itemReadings? items = some rs) {cs : List Char} {before : List Reading}
    (hcs : SpellsItems rounding cs before) (hne : before ≠ []) (depth : Nat) :
    SpellsItems rounding (cs ++ writeItems spacing depth items) (before ++ rs) := by
  cases items with
  | nil =>
    obtain rfl := Option.some.inj hrs
    simpa [writeItems] using hcs
  | cons item rest =>
    obtain ⟨r, others, hitem, hothers, rfl⟩ := itemReadings?_cons_eq_some hrs
    have hmore := SpellsItems.more hcs hne (spellsPadded_of_spells (hspacing.lineBreak depth)
      (spells_write hspacing item hitem depth))
    have hitems := spells_writeItems hspacing rest hothers hmore (by simp) depth
    simpa [writeItems] using hitems

/-- Members behind others are spelled by what is written of them. -/
theorem spells_writeMembers (hspacing : spacing.IsBlank) (members : List (String × Json))
    {rs : List (MemberName × Reading)} (hrs : memberReadings? members = some rs) {cs : List Char}
    {before : List (String × Spelled)} (hcs : SpellsMembers rounding cs before) (hne : before ≠ [])
    (depth : Nat) :
    ∃ more, readingsOf more = rs ∧
      SpellsMembers rounding (cs ++ writeMembers spacing depth members) (before ++ more) := by
  cases members with
  | nil =>
    obtain rfl := Option.some.inj hrs
    exact ⟨[], rfl, by simpa [writeMembers] using hcs⟩
  | cons member rest =>
    obtain ⟨name, value⟩ := member
    obtain ⟨r, others, hvalue, hothers, rfl⟩ := memberReadings?_cons_eq_some hrs
    have hmore := SpellsMembers.more hcs hne (hspacing.lineBreak depth) (spellsName_quoted name)
      (spellsPadded_of_spells hspacing.afterColon (spells_write hspacing value hvalue depth))
    obtain ⟨more, rfl, hmembers⟩ :=
      spells_writeMembers hspacing rest hothers hmore (by simp) depth
    refine ⟨(name, ⟨write spacing depth value, r⟩) :: more, rfl, ?_⟩
    simpa [writeMembers, memberName] using hmembers

end

end Json

/-! ## Whole texts -/

namespace Transcript

/-- **What is written is read back**, in any spacing. -/
theorem ofText_write {spacing : Json.Spacing} (hspacing : spacing.IsBlank) (rounding : Rounding)
    {j : Json} {r : Reading} (hr : j.reading? = some r) :
    ofText rounding (String.ofList (Json.write spacing 0 j)) = ⟨r, none⟩ := by
  have hspelled := @Json.spells_write rounding spacing hspacing j r hr 0
  have hpadded := Json.spellsPadded_of_spells IsGap.nil hspelled
  rw [List.nil_append] at hpadded
  refine @ofText_spelled rounding _ ⟨Json.write spacing 0 j, r⟩ ?_
  rw [String.toList_ofList]
  exact hpadded

/-- **A compact text is read back.** -/
theorem ofText_compact (rounding : Rounding) {j : Json} {r : Reading} (hr : j.reading? = some r) :
    ofText rounding j.compact = ⟨r, none⟩ :=
  ofText_write Json.Spacing.isBlank_none rounding hr

/-- **A text spread over lines is read back.** -/
theorem ofText_pretty (rounding : Rounding) {j : Json} {r : Reading} (hr : j.reading? = some r) :
    ofText rounding j.pretty = ⟨r, none⟩ :=
  ofText_write Json.Spacing.isBlank_lines rounding hr

end Transcript

end CairoForge
