import CairoForge.Refusal

/-!
# Values

What an initializer of a base module is called with. Text is printed as a short
string in single quotes, a number as a plain decimal, a literal as it stands and
a note as a comment behind the value it belongs to.

## Main definitions

* `Value` — the four kinds of value.
* `Value.render` — their text in the generated source.
* `Value.innermost`, `Value.notes` — a value without its notes, and the notes.

## Main results

* `Value.render_eq_of_beq` — equal values have one text.
-/

namespace CairoForge

/-- An argument of an initializer call. -/
inductive Value where
  /-- A short string. -/
  | text (content : String)
  /-- A number, printable when it is an integer of the exact range. -/
  | number (n : Binary64)
  /-- Source text, usually the name of a constructor argument. -/
  | literal (source : String)
  /-- A value with a remark for the reader of the source. -/
  | note (remark : String) (value : Value)
  deriving BEq

namespace Value

/-- The source text of a value. -/
def render : Value → Except Refusal String
  | text content => .ok ("'" ++ content ++ "'")
  | number n =>
    match n.safeInteger? with
    | some i => .ok (decimalText i)
    | none => .error (.unrepresentableNumber n)
  | literal source => .ok source
  | note remark value => value.render.map (· ++ " /* " ++ remark ++ " */")

/-- The value inside all notes. -/
def innermost : Value → Value
  | note _ value => value.innermost
  | value => value

/-- The remarks around a value, from the innermost to the outermost. -/
def notes : Value → List String
  | note remark value => value.notes ++ [remark]
  | _ => []

/-- Equal values have one text, or are refused for one number: the two zeros, which are equal, have
one text, and any other number has one word. -/
theorem render_eq_of_beq {v w : Value} (h : (v == w) = true) : v.render = w.render := by
  induction v generalizing w with
  | text content =>
    cases w <;> simp only [BEq.beq, instBEqValue.beq, Bool.false_eq_true] at h
    rw [of_decide_eq_true h]
  | number n =>
    cases w <;> simp only [BEq.beq, instBEqValue.beq, Bool.false_eq_true] at h
    next m =>
    rcases Binary64.eq_or_isZero_of_same h with rfl | ⟨hn, hm⟩
    · rfl
    · simp only [render, Binary64.safeInteger?_of_isZero hn, Binary64.safeInteger?_of_isZero hm]
  | literal source =>
    cases w <;> simp only [BEq.beq, instBEqValue.beq, Bool.false_eq_true] at h
    rw [of_decide_eq_true h]
  | note remark value ih =>
    cases w <;> simp only [BEq.beq, instBEqValue.beq, Bool.false_eq_true, Bool.and_eq_true] at h
    next remark' value' =>
    obtain ⟨hremark, hvalue⟩ := h
    rw [render, render, ih hvalue, of_decide_eq_true hremark]

/-- A value equals itself unless NaN is inside. -/
theorem beq_self_of_ne_nan {v : Value} (h : ∀ n, v.innermost = .number n → n.datum ≠ .nan) :
    (v == v) = true := by
  induction v with
  | text content => simp [BEq.beq, instBEqValue.beq]
  | number n => exact Binary64.same_self (h n rfl)
  | literal source => simp [BEq.beq, instBEqValue.beq]
  | note remark value ih =>
    have hinner := ih h
    simp only [BEq.beq] at hinner
    simp [BEq.beq, instBEqValue.beq, hinner]

/-- A value that can be printed equals itself. -/
theorem beq_self_of_render {v : Value} {text : String} (h : v.render = .ok text) :
    (v == v) = true := by
  induction v generalizing text with
  | text content => simp [BEq.beq, instBEqValue.beq]
  | number n =>
    cases hinteger : n.safeInteger? with
    | none =>
      rw [render, hinteger] at h
      cases h
    | some i => exact Binary64.same_self (Binary64.datum_ne_nan_of_safeInteger? hinteger)
  | literal source => simp [BEq.beq, instBEqValue.beq]
  | note remark value ih =>
    cases hvalue : value.render with
    | error refusal =>
      rw [render, hvalue] at h
      cases h
    | ok inner =>
      have hinner := ih hvalue
      simp only [BEq.beq] at hinner
      simp [BEq.beq, instBEqValue.beq, hinner]

/-- A value with NaN inside equals nothing. -/
theorem datum_ne_nan_of_beq {v w : Value} (h : (v == w) = true) {n : Binary64}
    (hn : v.innermost = .number n) : n.datum ≠ .nan := by
  induction v generalizing w with
  | number m =>
    obtain rfl := Value.number.inj hn
    cases w <;> simp only [BEq.beq, instBEqValue.beq, Bool.false_eq_true] at h
    exact Binary64.datum_ne_nan_of_same h
  | note remark value ih =>
    cases w <;> simp only [BEq.beq, instBEqValue.beq, Bool.false_eq_true, Bool.and_eq_true] at h
    exact ih h.2 hn
  | _ => cases hn

end Value

end CairoForge
