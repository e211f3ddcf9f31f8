import CairoForge.Proofs.NumberText
import CairoForge.Proofs.UnprintableNumbers
import CairoForge.Proofs.WrittenJson

/-!
# The texts of values

A value is printed as what is inside its notes, with one comment for each note behind it. A number
is printed if it is an exact integer, and then as the decimal of this integer, which is one text for
each integer; so numbers that are printed alike are equal, and the two zeros are.

## Main definitions

* `IsDecimalOf` — the decimal of an integer.
* `Value.Shows` — the text of a value without notes.
* `Value.comment` — a note behind a value.

## Main results

* `isDecimalOf_iff` — every integer has one decimal, and it is the one that is written.
* `Value.render_number_eq_ok_iff` — which numbers are printed, and how.
* `Value.render_exact` — what is printed of a value, and when nothing is.
-/

namespace CairoForge

variable {text : String} {i : ℤ}

/-! ## Decimals -/

/-- **The decimal of an integer**: the digits of its absolute value, with no zero in front of other
digits, and a hyphen before them just if the integer is below zero. -/
def IsDecimalOf (text : String) (i : ℤ) : Prop :=
  ∃ ds, IsWhole ds ∧ Numeral.natural ds = |i| ∧
    text.toList = (if i < 0 then ['-'] else []) ++ ds

/-- Every integer has one decimal, and it is the one that is written. -/
theorem isDecimalOf_iff : IsDecimalOf text i ↔ text = decimalText i := by
  have hwritten : (decimalText i).toList =
      (if i < 0 then ['-'] else []) ++ decimalDigits i.natAbs := by
    rw [decimalText, String.toList_append, String.toList_ofList]
    split <;> rfl
  constructor
  · rintro ⟨ds, hds, hvalue, htext⟩
    -- digits without zeros in front are those that are written for their value
    have hdigits : decimalDigits i.natAbs = ds := by
      rw [Int.abs_eq_natAbs, Int.natCast_inj] at hvalue
      rw [← hvalue, decimalDigits_natural hds]
    rw [← String.toList_inj, htext, hwritten, hdigits]
  · rintro rfl
    refine ⟨decimalDigits i.natAbs, isWhole_decimalDigits _, ?_, hwritten⟩
    rw [natural_decimalDigits, Int.abs_eq_natAbs]

/-! ## Values -/

namespace Value

variable {v : Value} {n : Binary64}

/-- **The text of a value without notes**: a string in quotes, a literal as it stands, and of a
number that is an exact integer the decimal of this integer. -/
inductive Shows : Value → String → Prop
  | text (content : String) : Shows (.text content) ("'" ++ content ++ "'")
  | literal (source : String) : Shows (.literal source) source
  | number {n : Binary64} {i : ℤ} {digits : String} (hvalue : n.exactValue? = some (i : ℚ))
    (hrange : |i| ≤ 2 ^ 53 - 1) (hdigits : IsDecimalOf digits i) : Shows (.number n) digits

/-- A note behind a value. -/
def comment (remark : String) : String :=
  " /* " ++ remark ++ " */"

/-- A value is what is inside its notes, with the notes around it again. -/
theorem foldl_note_innermost (v : Value) :
    v.notes.foldl (fun value remark => .note remark value) v.innermost = v := by
  induction v with
  | note remark value ih =>
    rw [notes, innermost, List.foldl_append, ih]
    rfl
  | _ => rfl

/-- **Which numbers are printed**: the exact integers, as their decimals. -/
theorem render_number_eq_ok_iff : (number n).render = .ok text ↔
    ∃ i : ℤ, n.exactValue? = some (i : ℚ) ∧ |i| ≤ 2 ^ 53 - 1 ∧ text = decimalText i := by
  have hsafe : (number n).render = .ok text ↔
      ∃ i, n.safeInteger? = some i ∧ text = decimalText i := by
    rw [render]
    cases n.safeInteger? with
    | none => simp
    | some i => simp [eq_comm]
  rw [hsafe]
  simp only [Binary64.safeInteger?_eq_some_iff]
  exact exists_congr fun i => ⟨fun h => ⟨h.1.2, h.1.1, h.2⟩, fun h => ⟨⟨h.2.1, h.1⟩, h.2.2⟩⟩

theorem shows_number_iff : Shows (.number n) text ↔ (number n).render = .ok text := by
  rw [render_number_eq_ok_iff]
  constructor
  · intro h
    cases h with
    | number hvalue hrange hdigits => exact ⟨_, hvalue, hrange, isDecimalOf_iff.mp hdigits⟩
  · rintro ⟨i, hvalue, hrange, htext⟩
    exact .number hvalue hrange (isDecimalOf_iff.mpr htext)

/-- **What is printed of a value**: the text of what is inside, and behind it the notes from the
innermost to the outermost. -/
theorem render_eq_ok_iff : v.render = .ok text ↔
    ∃ inner, Shows v.innermost inner ∧ text = inner ++ String.join (v.notes.map comment) := by
  induction v generalizing text with
  | text content =>
    constructor
    · intro h
      exact ⟨_, .text content, by simp [← Except.ok.inj h, notes]⟩
    · rintro ⟨_, ⟨⟩, rfl⟩
      simp [render, notes]
  | number n =>
    simp only [innermost, notes, shows_number_iff]
    simp
  | literal source =>
    constructor
    · intro h
      exact ⟨_, .literal source, by simp [← Except.ok.inj h, notes]⟩
    · rintro ⟨_, ⟨⟩, rfl⟩
      simp [render, notes]
  | note remark value ih =>
    have hrender : (note remark value).render = .ok text ↔
        ∃ shorter, value.render = .ok shorter ∧ text = shorter ++ comment remark := by
      rw [render, comment]
      cases value.render with
      | error refusal => simp [Except.map]
      | ok shorter => simp [Except.map, eq_comm, String.append_assoc]
    -- the outermost note comes last
    have hjoin : ∀ inner : String, inner ++ String.join ((note remark value).notes.map comment) =
        inner ++ String.join (value.notes.map comment) ++ comment remark := by
      intro inner
      simp [notes, String.append_assoc]
    simp only [hrender, ih, innermost, hjoin]
    constructor
    · rintro ⟨_, ⟨inner, hinner, rfl⟩, rfl⟩
      exact ⟨inner, hinner, rfl⟩
    · rintro ⟨inner, hinner, rfl⟩
      exact ⟨_, ⟨inner, hinner, rfl⟩, rfl⟩

/-- Numbers that are printed alike are equal. -/
theorem exactValue?_eq_of_render_eq {x y : Binary64} (hx : (number x).render = .ok text)
    (hy : (number y).render = .ok text) :
    ∃ value, x.exactValue? = some value ∧ y.exactValue? = some value := by
  obtain ⟨i, hvalue, -, htext⟩ := render_number_eq_ok_iff.mp hx
  obtain ⟨j, hvalue', -, htext'⟩ := render_number_eq_ok_iff.mp hy
  obtain rfl : i = j := decimalText_injective (htext.symm.trans htext')
  exact ⟨i, hvalue, hvalue'⟩

/-- **What is printed of a value.** A value is something inside of any number of notes. It is
refused just if that is a number that is not an integer of at most `2 ^ 53 - 1` in absolute value,
and it is this number that is reported. Otherwise the text of what is inside is printed — a string
in quotes, a literal as it stands, an integer as its decimal — and behind it the notes as comments,
from the innermost to the outermost. Numbers that are printed alike are equal. -/
theorem render_exact (v : Value) :
    v.notes.foldl (fun value remark => .note remark value) v.innermost = v ∧
    (∀ refusal, v.render = .error refusal ↔
      ∃ n, v.innermost = .number n ∧ ¬n.IsSafeInteger ∧ refusal = .unrepresentableNumber n) ∧
    (∀ text, v.render = .ok text ↔
      ∃ inner, Shows v.innermost inner ∧ text = inner ++ String.join (v.notes.map comment)) ∧
    ∀ x y text, (number x).render = .ok text → (number y).render = .ok text →
      ∃ value, x.exactValue? = some value ∧ y.exactValue? = some value :=
  ⟨foldl_note_innermost v, fun _ => render_eq_error_iff, fun _ => render_eq_ok_iff,
    fun _ _ _ => exactValue?_eq_of_render_eq⟩

example :
    (note "supply" (note "signed" (number ⟨0xc33fffffffffffff⟩))).render =
      .ok "-9007199254740991 /* signed */ /* supply */" := by
  rfl

end Value

end CairoForge
