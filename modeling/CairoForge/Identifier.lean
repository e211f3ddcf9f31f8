/-!
# Identifiers

Free text becomes an identifier of the generated language: what cannot start an
identifier is dropped from the front, and the words left by the characters that
cannot be part of one are joined in camel case (`my token` gives `myToken`).

## Main definitions

* `canStart`, `isWordChar` — the two character classes of an identifier.
* `StartsIdentifier` — the first of them, as it is written down.
* `joinWords` — joins the words of a text, raising the letter after each gap.
* `identifier` — the identifier of a text.

All classes and case changes are those of ASCII: every other character counts as
a gap between words.
-/

namespace CairoForge

/-- A character that may stand first in an identifier. -/
def canStart (c : Char) : Bool :=
  c.isAlpha || c == '$' || c == '_'

/-- A character of `[A-Za-z$_]`. -/
def StartsIdentifier (c : Char) : Prop :=
  ('A' ≤ c ∧ c ≤ 'Z') ∨ ('a' ≤ c ∧ c ≤ 'z') ∨ c = '$' ∨ c = '_'

instance : DecidablePred StartsIdentifier := fun _ =>
  inferInstanceAs (Decidable (_ ∨ _))

/-- A character that may stand anywhere but first in an identifier. -/
def isWordChar (c : Char) : Bool :=
  c.isAlphanum || c == '_' || c == '$'

/-- The word characters of a text in order. A character is raised to upper case
when it follows a gap, and the first one also when `raise` is set. -/
def joinWords (raise : Bool) : List Char → List Char
  | [] => []
  | c :: rest =>
    if isWordChar c then
      (if raise then c.toUpper else c) :: joinWords false rest
    else
      joinWords true rest

/-- The identifier made of a text, empty if no character of the text can start one. -/
def identifier (text : String) (capitalize : Bool) : String :=
  String.ofList (joinWords capitalize (text.toList.dropWhile (!canStart ·)))

theorem canStart_iff {c : Char} : canStart c = true ↔ StartsIdentifier c := by
  have hupper : c.isUpper = true ↔ 'A' ≤ c ∧ c ≤ 'Z' := decide_eq_true_iff
  have hlower : c.isLower = true ↔ 'a' ≤ c ∧ c ≤ 'z' :=
    Bool.and_eq_true_iff.trans (and_congr decide_eq_true_iff decide_eq_true_iff)
  have halpha : c.isAlpha = (c.isUpper || c.isLower) := rfl
  simp only [canStart, halpha, Bool.or_eq_true, beq_iff_eq, hupper, hlower, StartsIdentifier,
    or_assoc]

/-- A word character stays, raised if that is asked for. -/
theorem joinWords_cons_of_isWordChar {c : Char} (h : isWordChar c = true) (raise : Bool)
    (rest : List Char) :
    joinWords raise (c :: rest) =
      (if raise then c.toUpper else c) :: joinWords false rest := by
  simp [joinWords, h]

/-- A gap raises the character after it, whatever came before. -/
theorem joinWords_cons_of_not_isWordChar {c : Char} (h : isWordChar c = false) (raise : Bool)
    (rest : List Char) : joinWords raise (c :: rest) = joinWords true rest := by
  simp [joinWords, h]

/-- What may stand first may stand anywhere. -/
theorem isWordChar_of_canStart {c : Char} (h : canStart c = true) : isWordChar c = true := by
  simp only [canStart, isWordChar, Char.isAlphanum, Bool.or_eq_true] at h ⊢
  grind

/-- A text has no identifier just when nothing in it can start one. -/
theorem identifier_isEmpty_iff {text : String} {capitalize : Bool} :
    (identifier text capitalize).isEmpty = true ↔ ∀ c ∈ text.toList, canStart c = false := by
  rw [identifier, String.isEmpty_iff, String.ofList_eq_empty_iff]
  induction text.toList with
  | nil => simp [joinWords]
  | cons c rest ih =>
    cases h : canStart c with
    | true => simp [h, joinWords_cons_of_isWordChar (isWordChar_of_canStart h)]
    | false => simp [h, ih]

end CairoForge
