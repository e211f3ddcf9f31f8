import CairoForge.Json.Scan
import Mathlib.Tactic.Common

/-!
# Spelled JSON

The grammar of JSON, with what is to be read of each value. Sequences grow at their end, as reading
does; blanks may stand around every value and name. A string may be spelled in many ways, and what
is read of a number depends on how it is rounded.

## Main definitions

* `SpellsNumeral`, `SpellsText`, `SpellsName` — the texts of numbers, strings and names.
* `Spells` — the text of a value, with `SpellsItems` and `SpellsMembers` for what containers hold.
* `Spelled` — a value as it is spelled and read.

## Main results

* `SpellsText.append`, `spellsText_self` — strings are spelled piece by piece.
* `SpellsPadded.gap`, `SpellsItems.gap`, `SpellsMembers.gap` — blanks may follow.
-/

namespace CairoForge

/-! ## The grammar -/

/-- Nothing but blanks. -/
def IsGap (cs : List Char) : Prop :=
  ∀ c ∈ cs, Scan.isBlank c = true

instance : DecidablePred IsGap := fun cs =>
  List.decidableBAll (fun c => Scan.isBlank c = true) cs

/-- At least one digit, and nothing else. -/
def IsDigits (ds : List Char) : Prop :=
  ds ≠ [] ∧ ∀ c ∈ ds, c.isDigit = true

instance : DecidablePred IsDigits := fun ds =>
  @instDecidableAnd _ _ instDecidableNot (List.decidableBAll (fun c => c.isDigit = true) ds)

/-- The digits of a whole number: more than one only if the first is no zero. -/
def IsWhole (ds : List Char) : Prop :=
  ds = ['0'] ∨ IsDigits ds ∧ ds.head? ≠ some '0'

instance : DecidablePred IsWhole := fun _ => inferInstanceAs (Decidable (_ ∨ _ ∧ _))

/-- A fraction and its digits. -/
inductive SpellsFraction : List Char → List Char → Prop
  | none : SpellsFraction [] []
  | digits {ds : List Char} (hds : IsDigits ds) : SpellsFraction ('.' :: ds) ds

/-- An exponent, its sign and its digits. -/
inductive SpellsExponent : List Char → Option (Bool × List Char) → Prop
  | none : SpellsExponent [] none
  | plain {mark : Char} {ds : List Char} (hmark : mark = 'e' ∨ mark = 'E') (hds : IsDigits ds) :
    SpellsExponent (mark :: ds) (some (false, ds))
  | plus {mark : Char} {ds : List Char} (hmark : mark = 'e' ∨ mark = 'E') (hds : IsDigits ds) :
    SpellsExponent (mark :: '+' :: ds) (some (false, ds))
  | minus {mark : Char} {ds : List Char} (hmark : mark = 'e' ∨ mark = 'E') (hds : IsDigits ds) :
    SpellsExponent (mark :: '-' :: ds) (some (true, ds))

/-- The sign of a number. -/
def signText (negative : Bool) : List Char :=
  if negative then ['-'] else []

/-- A number and its parts. -/
inductive SpellsNumeral : List Char → Numeral → Prop
  | parts {negative : Bool} {whole fractionText fraction exponentText : List Char}
    {exponent? : Option (Bool × List Char)} (hwhole : IsWhole whole)
    (hfraction : SpellsFraction fractionText fraction)
    (hexponent : SpellsExponent exponentText exponent?) :
    SpellsNumeral (signText negative ++ whole ++ fractionText ++ exponentText)
      { negative, whole, fraction, exponent? }

/-- The number that hexadecimal digits stand for. -/
def hexNumber? (ds : List Char) : Option Nat :=
  ds.foldlM (fun value c => (TextScan.hexValue? c).map (16 * value + ·)) 0

/-- A unit: four hexadecimal digits. -/
def SpellsUnit (ds : List Char) (unit : Nat) : Prop :=
  ds.length = 4 ∧ hexNumber? ds = some unit

/-- The characters that are spelled by a backslash and a letter. -/
def shortEscapes : List (Char × Char) :=
  [('"', '"'), ('\\', '\\'), ('/', '/'), ('b', '\x08'), ('f', '\x0c'), ('n', '\n'), ('r', '\r'),
    ('t', '\t')]

/-- A character of a string: itself, a short escape, or one or two units. -/
inductive SpellsChar : List Char → Char → Prop
  | plain {c : Char} (hquote : c ≠ '"') (hbackslash : c ≠ '\\') (hcontrol : 32 ≤ c.toNat) :
    SpellsChar [c] c
  | short {letter c : Char} (h : (letter, c) ∈ shortEscapes) : SpellsChar ['\\', letter] c
  | unit {ds : List Char} {value : Nat} (hds : SpellsUnit ds value)
    (hhigh : TextScan.isHigh value = false) (hlow : TextScan.isLow value = false) :
    SpellsChar ('\\' :: 'u' :: ds) (Char.ofNat value)
  | pair {highs lows : List Char} {high low : Nat} (hhighs : SpellsUnit highs high)
    (hhigh : TextScan.isHigh high = true) (hlows : SpellsUnit lows low)
    (hlow : TextScan.isLow low = true) :
    SpellsChar ('\\' :: 'u' :: (highs ++ '\\' :: 'u' :: lows))
      (Char.ofNat (0x10000 + (high - 0xd800) * 0x400 + (low - 0xdc00)))

/-- The characters between the quotes of a string. -/
inductive SpellsText : List Char → List Char → Prop
  | nil : SpellsText [] []
  | snoc {cs ds text : List Char} {c : Char} (hcs : SpellsText cs text) (hds : SpellsChar ds c) :
    SpellsText (cs ++ ds) (text ++ [c])

/-- A name up to the colon behind it. -/
inductive SpellsName : List Char → String → Prop
  | name {cs text gap : List Char} (hcs : SpellsText cs text) (hgap : IsGap gap) :
    SpellsName ('"' :: (cs ++ '"' :: (gap ++ [':']))) (String.ofList text)

/-- What a value is spelled by, and what is read of it. -/
structure Spelled where
  text : List Char
  reading : Reading

/-- What is read of members. -/
def readingsOf (members : List (String × Spelled)) : List (MemberName × Reading) :=
  members.map fun (name, value) => (.ok name, value.reading)

mutual

/-- **The text of a value**, and what is to be read of it. -/
inductive Spells (rounding : Rounding) : List Char → Reading → Prop
  | null : Spells rounding ['n', 'u', 'l', 'l'] .null
  | yes : Spells rounding ['t', 'r', 'u', 'e'] (.bool true)
  | no : Spells rounding ['f', 'a', 'l', 's', 'e'] (.bool false)
  | number {cs : List Char} {n : Numeral} (hcs : SpellsNumeral cs n) :
    Spells rounding cs (.number (n.quantity? rounding))
  | text {cs text : List Char} (hcs : SpellsText cs text) :
    Spells rounding ('"' :: (cs ++ ['"'])) (.text (String.ofList text))
  | array {cs : List Char} {items : List Reading} (hcs : SpellsItems rounding cs items) :
    Spells rounding ('[' :: (cs ++ [']'])) (.array items none)
  | object {cs : List Char} {members : List (String × Spelled)}
    (hcs : SpellsMembers rounding cs members) :
    Spells rounding ('\x7b' :: (cs ++ ['\x7d'])) (.object (readingsOf members) none)

/-- A value between blanks. -/
inductive SpellsPadded (rounding : Rounding) : List Char → Spelled → Prop
  | padded {before value after : List Char} {r : Reading} (hbefore : IsGap before)
    (hvalue : Spells rounding value r) (hafter : IsGap after) :
    SpellsPadded rounding (before ++ (value ++ after)) ⟨value, r⟩

/-- The items of an array. -/
inductive SpellsItems (rounding : Rounding) : List Char → List Reading → Prop
  | none {gap : List Char} (hgap : IsGap gap) : SpellsItems rounding gap []
  | one {item : List Char} {value : Spelled} (hitem : SpellsPadded rounding item value) :
    SpellsItems rounding item [value.reading]
  | more {cs item : List Char} {items : List Reading} {value : Spelled}
    (hcs : SpellsItems rounding cs items) (hitems : items ≠ [])
    (hitem : SpellsPadded rounding item value) :
    SpellsItems rounding (cs ++ ',' :: item) (items ++ [value.reading])

/-- The members of an object. -/
inductive SpellsMembers (rounding : Rounding) : List Char → List (String × Spelled) → Prop
  | none {gap : List Char} (hgap : IsGap gap) : SpellsMembers rounding gap []
  | one {before nameText item : List Char} {name : String} {value : Spelled}
    (hbefore : IsGap before) (hname : SpellsName nameText name)
    (hitem : SpellsPadded rounding item value) :
    SpellsMembers rounding (before ++ (nameText ++ item)) [(name, value)]
  | more {cs before nameText item : List Char} {members : List (String × Spelled)} {name : String}
    {value : Spelled} (hcs : SpellsMembers rounding cs members) (hmembers : members ≠ [])
    (hbefore : IsGap before) (hname : SpellsName nameText name)
    (hitem : SpellsPadded rounding item value) :
    SpellsMembers rounding (cs ++ ',' :: (before ++ (nameText ++ item)))
      (members ++ [(name, value)])

end

/-! ### Pieces that grow -/

theorem IsGap.nil : IsGap [] :=
  fun _ hnone => absurd hnone List.not_mem_nil

theorem IsGap.append {gap rest : List Char} (hgap : IsGap gap) (hrest : IsGap rest) :
    IsGap (gap ++ rest) := by
  intro c hc
  rcases List.mem_append.mp hc with hc | hc
  · exact hgap c hc
  · exact hrest c hc

theorem IsGap.singleton {c : Char} (hc : Scan.isBlank c = true) : IsGap [c] := by
  intro d hd
  rwa [List.mem_singleton.mp hd]

theorem IsDigits.snoc {ds : List Char} (hds : IsDigits ds) {c : Char} (hc : c.isDigit = true) :
    IsDigits (ds ++ [c]) :=
  ⟨by simp, by simpa [or_imp, forall_and, hc] using hds.2⟩

theorem IsDigits.singleton {c : Char} (hc : c.isDigit = true) : IsDigits [c] :=
  ⟨by simp, by simpa using hc⟩

theorem IsWhole.exists_cons {ds : List Char} (hds : IsWhole ds) :
    ∃ c rest, ds = c :: rest ∧ c.isDigit = true := by
  rcases hds with rfl | ⟨⟨hne, hds⟩, -⟩
  · exact ⟨'0', [], rfl, rfl⟩
  · obtain ⟨c, rest, rfl⟩ := List.exists_cons_of_ne_nil hne
    exact ⟨c, rest, rfl, hds c List.mem_cons_self⟩

theorem SpellsExponent.snoc {text ds : List Char} {negative : Bool}
    (h : SpellsExponent text (some (negative, ds))) {c : Char} (hc : c.isDigit = true) :
    SpellsExponent (text ++ [c]) (some (negative, ds ++ [c])) := by
  cases h with
  | plain hmark hds => exact .plain hmark (hds.snoc hc)
  | plus hmark hds => exact .plus hmark (hds.snoc hc)
  | minus hmark hds => exact .minus hmark (hds.snoc hc)

/-- Texts behind each other spell what they spell, one behind the other. -/
theorem SpellsText.append {cs ds text rest : List Char} (hcs : SpellsText cs text)
    (hds : SpellsText ds rest) : SpellsText (cs ++ ds) (text ++ rest) := by
  induction hds with
  | nil => simpa using hcs
  | snoc _ hc ih =>
    rw [← List.append_assoc, ← List.append_assoc]
    exact ih.snoc hc

theorem SpellsChar.text {ds : List Char} {c : Char} (h : SpellsChar ds c) : SpellsText ds [c] :=
  SpellsText.nil.snoc h

/-- Characters that need no escape spell themselves. -/
theorem spellsText_self {cs : List Char}
    (h : ∀ c ∈ cs, c ≠ '"' ∧ c ≠ '\\' ∧ 32 ≤ c.toNat) : SpellsText cs cs := by
  induction cs with
  | nil => exact .nil
  | cons c cs ih =>
    obtain ⟨⟨hquote, hbackslash, hcontrol⟩, hcs⟩ := List.forall_mem_cons.mp h
    exact (SpellsChar.plain hquote hbackslash hcontrol).text.append (ih hcs)

section Gaps

variable {rounding : Rounding} {cs after : List Char}

theorem SpellsPadded.gap {value : Spelled} (h : SpellsPadded rounding cs value)
    (hgap : IsGap after) : SpellsPadded rounding (cs ++ after) value := by
  cases h with
  | padded hbefore hvalue hafter =>
    simpa using SpellsPadded.padded hbefore hvalue (hafter.append hgap)

theorem SpellsItems.gap {items : List Reading} (h : SpellsItems rounding cs items)
    (hgap : IsGap after) : SpellsItems rounding (cs ++ after) items := by
  cases h with
  | none hnone => exact .none (hnone.append hgap)
  | one hitem => exact .one (hitem.gap hgap)
  | more hcs hne hitem => simpa using SpellsItems.more hcs hne (hitem.gap hgap)

theorem SpellsMembers.gap {members : List (String × Spelled)}
    (h : SpellsMembers rounding cs members) (hgap : IsGap after) :
    SpellsMembers rounding (cs ++ after) members := by
  cases h with
  | none hnone => exact .none (hnone.append hgap)
  | one hbefore hname hitem => simpa using SpellsMembers.one hbefore hname (hitem.gap hgap)
  | more hcs hne hbefore hname hitem =>
    simpa using SpellsMembers.more hcs hne hbefore hname (hitem.gap hgap)

end Gaps

end CairoForge
