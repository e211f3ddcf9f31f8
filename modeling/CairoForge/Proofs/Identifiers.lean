import CairoForge.Identifier
import CairoForge.Proofs.TextGrammars
import Mathlib.Data.List.TakeWhile

/-!
# The identifier of a text

Making an identifier of a text is a normal form: what comes out follows the grammar of identifiers,
and what follows the grammar comes out as it went in. In between nothing is invented. The word
characters of the text stand in the identifier in their order, from the first that can start one,
and the only change is that a letter behind a gap is raised.

## Main definitions

* `startChars`, `wordChars`, `identifierGrammar` — what an identifier looks like.
* `IsIdentifier` — an identifier, capitalized if that is asked for.
* `IsRaised` — the place in a text where a character is raised.
* `Joins` — a text with its gaps closed.

## Main results

* `joinWords_append` — a text is joined piece by piece.
* `joins_joinWords` — joining closes the gaps and does nothing else.
* `identifier_of_isIdentifier` — identifiers are fixed points.
* `identifier_normalizes` — the identifier of a text is a normal form.
-/

namespace CairoForge

variable {text name : String} {raise capitalize : Bool} {c first : Char} {cs rest : List Char}

/-! ## What an identifier looks like -/

/-- The characters that an identifier starts with: `[A-Za-z$_]`. -/
def startChars : Set Char :=
  {c | StartsIdentifier c}

/-- The characters that an identifier is made of: `[A-Za-z0-9_$]`. -/
def wordChars : Set Char :=
  Set.Icc 'A' 'Z' ∪ Set.Icc 'a' 'z' ∪ Set.Icc '0' '9' ∪ {'_', '$'}

/-- **The grammar of identifiers**: `[A-Za-z$_][A-Za-z0-9_$]*`. -/
def identifierGrammar : Language Char :=
  Grammar.wordOf startChars wordChars

/-- A text that is an identifier, and a capitalized one if that is asked for. -/
structure IsIdentifier (capitalize : Bool) (name : String) : Prop where
  follows : Follows name identifierGrammar
  capitalized : capitalize = true → ∀ first ∈ name.toList.head?, first ∉ Set.Icc 'a' 'z'

theorem canStart_iff_mem : canStart c = true ↔ c ∈ startChars :=
  canStart_iff

theorem isWordChar_iff : isWordChar c = true ↔ c ∈ wordChars := by
  have halphanum : c.isAlphanum = (c.isUpper || c.isLower || c.isDigit) := rfl
  simp only [isWordChar, halphanum, Bool.or_eq_true, beq_iff_eq, Grammar.isUpper_iff,
    Grammar.isLower_iff, Grammar.isDigit_iff, wordChars, Set.mem_union, Set.mem_insert_iff,
    Set.mem_singleton_iff, or_assoc]

instance : DecidablePred (· ∈ wordChars) := fun _ => decidable_of_iff _ isWordChar_iff

theorem decide_mem_wordChars (c : Char) : decide (c ∈ wordChars) = isWordChar c := by
  rw [Bool.eq_iff_iff, decide_eq_true_iff, isWordChar_iff]

/-- Only small letters change when they are raised. -/
theorem toUpper_eq_self (h : c ∉ Set.Icc 'a' 'z') : c.toUpper = c :=
  dif_neg fun hsmall => h ⟨hsmall.1, hsmall.2⟩

/-- A small letter is raised to a capital. -/
theorem toUpper_mem_Icc (h : c ∈ Set.Icc 'a' 'z') : c.toUpper ∈ Set.Icc 'A' 'Z' := by
  have hraised : c.toUpper.val = c.val + ('A'.val - 'a'.val) := by
    have hsmall : c.val ≥ 'a'.val ∧ c.val ≤ 'z'.val := h
    delta Char.toUpper
    rw [dif_pos hsmall]
  have hfirst : 97 ≤ c.val.toNat := UInt32.le_iff_toNat_le.mp h.1
  have hlast : c.val.toNat ≤ 122 := UInt32.le_iff_toNat_le.mp h.2
  -- in numbers, the capital is thirty-two below its small letter
  have hcapital : c.toUpper.val.toNat = c.val.toNat - 32 := by
    have hstep : ('A'.val - 'a'.val).toNat = 2 ^ 32 - 32 := by decide
    rw [hraised, UInt32.toNat_add, hstep]
    omega
  refine ⟨UInt32.le_iff_toNat_le.mpr ?_, UInt32.le_iff_toNat_le.mpr ?_⟩
  · change 65 ≤ c.toUpper.val.toNat
    omega
  · change c.toUpper.val.toNat ≤ 90
    omega

theorem toUpper_notMem_Icc (c : Char) : c.toUpper ∉ Set.Icc 'a' 'z' := by
  by_cases hlower : c ∈ Set.Icc 'a' 'z'
  · exact fun h => absurd (h.1.trans (toUpper_mem_Icc hlower).2) (by decide)
  · rwa [toUpper_eq_self hlower]

/-- A raised character is still one of an identifier, and starts one if it did before. -/
theorem isWordChar_toUpper : isWordChar c.toUpper = isWordChar c := by
  by_cases hlower : c ∈ Set.Icc 'a' 'z'
  · rw [Bool.eq_iff_iff, isWordChar_iff, isWordChar_iff]
    exact iff_of_true (.inl (.inl (.inl (toUpper_mem_Icc hlower)))) (.inl (.inl (.inr hlower)))
  · rw [toUpper_eq_self hlower]

theorem canStart_toUpper : canStart c.toUpper = canStart c := by
  by_cases hlower : c ∈ Set.Icc 'a' 'z'
  · rw [Bool.eq_iff_iff, canStart_iff, canStart_iff]
    exact iff_of_true (.inl (toUpper_mem_Icc hlower)) (.inr (.inl hlower))
  · rw [toUpper_eq_self hlower]

theorem follows_ofList_cons : Follows (String.ofList (first :: rest)) identifierGrammar ↔
    canStart first = true ∧ ∀ c ∈ rest, isWordChar c = true := by
  simp only [Follows, String.toList_ofList, identifierGrammar, Grammar.cons_mem_wordOf,
    canStart_iff_mem, isWordChar_iff]

/-! ## Joining piece by piece -/

/-- Is the next character raised, behind these? Only the last of them counts, if there is one. -/
def raisesNext (raise : Bool) (before : List Char) : Bool :=
  before.foldl (fun _ c => !isWordChar c) raise

/-- **A text is joined piece by piece**: all that a piece leaves to the next is whether to raise. -/
theorem joinWords_append (raise : Bool) (before after : List Char) :
    joinWords raise (before ++ after) =
      joinWords raise before ++ joinWords (raisesNext raise before) after := by
  induction before generalizing raise with
  | nil => rfl
  | cons c before ih =>
    -- a word character leaves no gap behind it, and every other character leaves one
    rw [List.cons_append, raisesNext, List.foldl_cons]
    cases h : isWordChar c with
    | true =>
      rw [joinWords_cons_of_isWordChar h, joinWords_cons_of_isWordChar h, ih, List.cons_append]
      rfl
    | false =>
      rw [joinWords_cons_of_not_isWordChar h, joinWords_cons_of_not_isWordChar h, ih]
      rfl

/-- No word character is lost and no other one is kept. -/
theorem length_joinWords (raise : Bool) (cs : List Char) :
    (joinWords raise cs).length = cs.countP (· ∈ wordChars) := by
  simp only [decide_mem_wordChars]
  induction cs generalizing raise with
  | nil => rfl
  | cons c rest ih =>
    cases h : isWordChar c with
    | true =>
      rw [joinWords_cons_of_isWordChar h, List.length_cons, ih, List.countP_cons_of_pos h]
    | false =>
      rw [joinWords_cons_of_not_isWordChar h, ih, List.countP_cons_of_neg (by simp [h])]

theorem isWordChar_of_mem_joinWords (h : c ∈ joinWords raise cs) : isWordChar c = true := by
  induction cs generalizing raise with
  | nil => cases h
  | cons d rest ih =>
    cases hd : isWordChar d with
    | true =>
      rw [joinWords_cons_of_isWordChar hd] at h
      rcases List.mem_cons.mp h with rfl | hrest
      · split
        · exact isWordChar_toUpper.trans hd
        · exact hd
      · exact ih hrest
    | false =>
      rw [joinWords_cons_of_not_isWordChar hd] at h
      exact ih h

/-- Where there is no gap there is nothing to do. -/
theorem joinWords_of_forall_isWordChar (h : ∀ c ∈ cs, isWordChar c = true) :
    joinWords false cs = cs := by
  induction cs with
  | nil => rfl
  | cons c rest ih =>
    obtain ⟨hc, hrest⟩ := List.forall_mem_cons.mp h
    rw [joinWords_cons_of_isWordChar hc, ih hrest]
    rfl

/-! ## Gaps closed -/

/-- **Where a character is raised**: behind a run of characters that no identifier has, and at the
very front if that is asked for. -/
def IsRaised (capitalize : Bool) (before : List Char) : Prop :=
  (before = [] ∧ capitalize = true) ∨ ∃ c ∈ before.getLast?, c ∉ wordChars

/-- **A text with its gaps closed.** Each word character of the text has its place, which is how
many of them stand before it, and no place is left for anything else. A character is raised where
it stands behind a gap, and is otherwise what it was. -/
structure Joins (capitalize : Bool) (cs joined : List Char) : Prop where
  length : joined.length = cs.countP (· ∈ wordChars)
  raised : ∀ before c after, cs = before ++ c :: after → c ∈ wordChars →
    IsRaised capitalize before → joined[before.countP (· ∈ wordChars)]? = some c.toUpper
  unchanged : ∀ before c after, cs = before ++ c :: after → c ∈ wordChars →
    ¬IsRaised capitalize before → joined[before.countP (· ∈ wordChars)]? = some c

theorem raisesNext_iff (before : List Char) :
    raisesNext capitalize before = true ↔ IsRaised capitalize before := by
  rcases List.eq_nil_or_concat before with rfl | ⟨before, c, rfl⟩
  · simp [raisesNext, IsRaised]
  · simp [raisesNext, IsRaised, ← isWordChar_iff]

/-- **Joining closes the gaps and does nothing else.** -/
theorem joins_joinWords (capitalize : Bool) (cs : List Char) :
    Joins capitalize cs (joinWords capitalize cs) := by
  have hplace : ∀ before c after, cs = before ++ c :: after → c ∈ wordChars →
      (joinWords capitalize cs)[before.countP (· ∈ wordChars)]? =
        some (if raisesNext capitalize before then c.toUpper else c) := by
    rintro before c after rfl hc
    -- what stands before the character fills the places before its own
    rw [joinWords_append, joinWords_cons_of_isWordChar (isWordChar_iff.mpr hc),
      ← length_joinWords capitalize before, List.getElem?_append_right (Nat.le_refl _),
      Nat.sub_self, List.getElem?_cons_zero]
  refine ⟨length_joinWords capitalize cs, ?_, ?_⟩
  · intro before c after hsplit hc hraised
    rw [hplace before c after hsplit hc, if_pos ((raisesNext_iff before).mpr hraised)]
  · intro before c after hsplit hc hraised
    rw [hplace before c after hsplit hc, if_neg (mt (raisesNext_iff before).mp hraised)]

/-! ## Identifiers -/

/-- An identifier begins with the first character that can start one. -/
theorem exists_kept (text : String) : ∃ dropped kept, text.toList = dropped ++ kept ∧
    (∀ c ∈ dropped, c ∉ startChars) ∧ (∀ c ∈ kept.head?, c ∈ startChars) ∧
      ∀ capitalize, (identifier text capitalize).toList = joinWords capitalize kept := by
  refine ⟨_, _, List.takeWhile_append_dropWhile.symm, fun c hc => ?_, fun c hc => ?_,
    fun capitalize => String.toList_ofList⟩
  · have hskipped := List.mem_takeWhile_imp hc
    rw [← canStart_iff_mem]
    simpa using hskipped
  · have hfirst := List.head?_dropWhile_not (!canStart ·) text.toList
    rw [Option.mem_def.mp hc] at hfirst
    rw [← canStart_iff_mem]
    simpa using hfirst

/-- Asking for a capital decides about the first character and nothing else. -/
theorem identifier_cases (text : String) :
    (∀ capitalize, identifier text capitalize = "") ∨
      ∃ first rest, canStart first = true ∧ (∀ c ∈ rest, isWordChar c = true) ∧
        ∀ capitalize, identifier text capitalize =
          String.ofList ((if capitalize then first.toUpper else first) :: rest) := by
  obtain ⟨-, kept, -, -, hfirst, hjoined⟩ := exists_kept text
  have hofList : ∀ capitalize, identifier text capitalize =
      String.ofList (joinWords capitalize kept) := fun capitalize => by
    rw [← hjoined, String.ofList_toList]
  cases kept with
  | nil => exact .inl hofList
  | cons first rest =>
    -- the flag is spent on the first character, so what follows is joined without it
    have hstart : canStart first = true := canStart_iff_mem.mpr (hfirst first rfl)
    refine .inr ⟨first, joinWords false rest, hstart, fun c => isWordChar_of_mem_joinWords,
      fun capitalize => ?_⟩
    rw [hofList, joinWords_cons_of_isWordChar (isWordChar_of_canStart hstart)]

/-- An identifier stays what it is but for its first character. -/
theorem identifier_ofList_cons (hfirst : canStart first = true)
    (hrest : ∀ c ∈ rest, isWordChar c = true) (capitalize : Bool) :
    identifier (String.ofList (first :: rest)) capitalize =
      String.ofList ((if capitalize then first.toUpper else first) :: rest) := by
  -- nothing is dropped in front, and there is no gap behind
  have hkept : (first :: rest).dropWhile (!canStart ·) = first :: rest :=
    List.dropWhile_cons_of_neg (by simp [hfirst])
  rw [identifier, String.toList_ofList, hkept,
    joinWords_cons_of_isWordChar (isWordChar_of_canStart hfirst),
    joinWords_of_forall_isWordChar hrest]

/-- **Identifiers are fixed points**, capitalized ones also where a capital is asked for. -/
theorem identifier_of_isIdentifier (h : IsIdentifier capitalize name) :
    identifier name capitalize = name := by
  obtain ⟨cs, rfl⟩ : ∃ cs, name = String.ofList cs := ⟨_, String.ofList_toList.symm⟩
  obtain ⟨hfollows, hcapital⟩ := h
  cases cs with
  | nil => exact absurd hfollows Grammar.nil_notMem_wordOf
  | cons first rest =>
    obtain ⟨hfirst, hrest⟩ := follows_ofList_cons.mp hfollows
    rw [identifier_ofList_cons hfirst hrest]
    cases capitalize with
    | false => rfl
    | true =>
      rw [if_pos rfl, toUpper_eq_self (hcapital rfl first (by simp))]

/-- What comes out is an identifier, unless nothing does. -/
theorem isIdentifier_identifier (h : identifier text capitalize ≠ "") :
    IsIdentifier capitalize (identifier text capitalize) := by
  rcases identifier_cases text with hempty | ⟨first, rest, hfirst, hrest, hname⟩
  · exact absurd (hempty capitalize) h
  · rw [hname]
    refine ⟨follows_ofList_cons.mpr ⟨?_, hrest⟩, ?_⟩
    · split
      · exact canStart_toUpper.trans hfirst
      · exact hfirst
    · rintro rfl c hc
      rw [String.toList_ofList, List.head?_cons, if_pos rfl, Option.mem_some_iff] at hc
      rw [← hc]
      exact toUpper_notMem_Icc first

/-- A capital can be asked for later. -/
theorem identifier_identifier_true (text : String) :
    identifier (identifier text false) true = identifier text true := by
  rcases identifier_cases text with hempty | ⟨first, rest, hfirst, hrest, hname⟩
  · rw [hempty false, hempty true]
    rfl
  · rw [hname false, hname true]
    exact identifier_ofList_cons hfirst hrest true

/-- **The identifier of a text is a normal form.** It is empty if no character of the text can start
an identifier, and otherwise follows the grammar of identifiers, with a capital if that is asked
for. What is an identifier already is left alone, so asking again changes nothing, and a capital
can be asked for later. The identifier holds the word characters of the text from the first that
can start one, in their order and all of them; those behind a gap are raised, and so is the first
if a capital is asked for, and nothing else is changed. -/
theorem identifier_normalizes (text : String) (capitalize : Bool) :
    (identifier text capitalize = "" ↔ ∀ c ∈ text.toList, c ∉ startChars) ∧
    (identifier text capitalize ≠ "" → IsIdentifier capitalize (identifier text capitalize)) ∧
    (∀ name, IsIdentifier capitalize name → identifier name capitalize = name) ∧
    identifier (identifier text capitalize) capitalize = identifier text capitalize ∧
    identifier (identifier text false) true = identifier text true ∧
    ∃ dropped kept, text.toList = dropped ++ kept ∧ (∀ c ∈ dropped, c ∉ startChars) ∧
      (∀ c ∈ kept.head?, c ∈ startChars) ∧
      Joins capitalize kept (identifier text capitalize).toList := by
  refine ⟨?_, isIdentifier_identifier, fun name => identifier_of_isIdentifier, ?_,
    identifier_identifier_true text, ?_⟩
  · rw [← String.isEmpty_iff, identifier_isEmpty_iff]
    simp only [← canStart_iff_mem, Bool.not_eq_true]
  · by_cases hempty : identifier text capitalize = ""
    · rw [hempty]
      rfl
    · exact identifier_of_isIdentifier (isIdentifier_identifier hempty)
  · obtain ⟨dropped, kept, hsplit, hdropped, hfirst, hjoined⟩ := exists_kept text
    exact ⟨dropped, kept, hsplit, hdropped, hfirst,
      hjoined capitalize ▸ joins_joinWords capitalize kept⟩

example : identifier "42 my-super__tøken!" true = "MySuper__tKen" := by decide

end CairoForge
