import Mathlib.Computability.Language
import Mathlib.Data.Char
import Mathlib.Order.Interval.Set.Basic

/-!
# Grammars of short texts

What a name or a key may look like is said by a regular language over characters: classes of
characters, set one behind the other, repeated or left out. A text follows a grammar as a whole,
from its first character to its last.

## Main definitions

* `Grammar.oneOf` — one character of a class.
* `Grammar.wordOf` — a character of one class and then any number of another.
* `Follows` — a text follows a grammar.

## Main results

* `Grammar.cons_mem_wordOf`, `Grammar.mem_optional_mul`, `Grammar.mem_singleton_mul` — what the
  parts of a grammar allow.
* `Grammar.isLower_iff`, `Grammar.isUpper_iff`, `Grammar.isDigit_iff` — the classes as ranges.
-/

namespace CairoForge

open scoped Computability

/-- **A text follows a grammar** when all of its characters together are a word of it. -/
def Follows (text : String) (grammar : Language Char) : Prop :=
  text.toList ∈ grammar

namespace Grammar

/-- One character of a class. -/
def oneOf (chars : Set Char) : Language Char :=
  {word | ∃ c ∈ chars, word = [c]}

/-- A character of one class, and behind it any number of another. -/
def wordOf (first rest : Set Char) : Language Char :=
  oneOf first * (oneOf rest)∗

variable {chars first rest : Set Char} {c : Char} {cs : List Char} {g h : Language Char}

/-! ## Classes -/

theorem isLower_iff : c.isLower = true ↔ c ∈ Set.Icc 'a' 'z' :=
  Bool.and_eq_true_iff.trans (and_congr decide_eq_true_iff decide_eq_true_iff)

theorem isUpper_iff : c.isUpper = true ↔ c ∈ Set.Icc 'A' 'Z' :=
  decide_eq_true_iff

theorem isDigit_iff : c.isDigit = true ↔ c ∈ Set.Icc '0' '9' :=
  Bool.and_eq_true_iff.trans (and_congr decide_eq_true_iff decide_eq_true_iff)

/-! ## Words -/

/-- A class repeated allows any text of its characters. -/
theorem mem_kstar_oneOf : cs ∈ (oneOf chars)∗ ↔ ∀ c ∈ cs, c ∈ chars := by
  rw [Language.mem_kstar]
  constructor
  · rintro ⟨parts, rfl, hparts⟩ c hc
    -- a part is one character, and so is what it adds to the text
    obtain ⟨part, hpart, hmem⟩ := List.mem_flatten.mp hc
    obtain ⟨d, hd, rfl⟩ := hparts part hpart
    exact List.mem_singleton.mp hmem ▸ hd
  · intro hcs
    refine ⟨cs.map fun c => [c], by simp [← List.flatMap_def], fun part hpart => ?_⟩
    obtain ⟨c, hc, rfl⟩ := List.mem_map.mp hpart
    exact ⟨c, hcs c hc, rfl⟩

theorem cons_mem_wordOf : c :: cs ∈ wordOf first rest ↔ c ∈ first ∧ ∀ d ∈ cs, d ∈ rest := by
  rw [wordOf, Language.mem_mul]
  constructor
  · rintro ⟨_, ⟨d, hd, rfl⟩, tail, htail, hsplit⟩
    obtain ⟨rfl, rfl⟩ := List.cons.inj hsplit
    exact ⟨hd, mem_kstar_oneOf.mp htail⟩
  · rintro ⟨hc, hcs⟩
    exact ⟨[c], ⟨c, hc, rfl⟩, cs, mem_kstar_oneOf.mpr hcs, rfl⟩

theorem nil_notMem_wordOf : [] ∉ wordOf first rest := by
  rw [wordOf, Language.mem_mul]
  rintro ⟨_, ⟨d, -, rfl⟩, tail, -, hsplit⟩
  cases hsplit

/-- A part that may be left out stands in front of the rest or does not. -/
theorem mem_optional_mul : cs ∈ (1 + g) * h ↔ cs ∈ h ∨ cs ∈ g * h := by
  rw [add_mul, one_mul, Language.mem_add]

/-- A given text stands in front of the rest. -/
theorem mem_singleton_mul {opening : List Char} :
    cs ∈ ({opening} : Language Char) * h ↔ ∃ rest ∈ h, cs = opening ++ rest := by
  rw [Language.mem_mul]
  constructor
  · rintro ⟨_, rfl, rest, hrest, rfl⟩
    exact ⟨rest, hrest, rfl⟩
  · rintro ⟨rest, hrest, rfl⟩
    exact ⟨opening, rfl, rest, hrest, rfl⟩

end Grammar

end CairoForge
