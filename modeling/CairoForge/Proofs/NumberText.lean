import CairoForge.Binary64.Text
import CairoForge.Proofs.RoundingIntervals
import Mathlib.Data.List.TakeWhile

/-!
# Numbers and their text

The text of a finite number has a value of its own, that of the decimal which it writes out, however
the digits are laid out. This decimal is rounded to the number and to no other one, so two finite
numbers of one text are the same word, in any style.

## Main definitions

* `writtenValue` — the value of digits with a point and an exponent.
* `IsNumberChar`, `IsUnsigned`, `IsSigned` — what numbers are written with.
* `Binary64.IsFinite` — neither an infinity nor NaN.

## Main results

* `NumberStyle.writtenValue_decimal` — the text of a decimal has the value of the decimal.
* `Binary64.eq_of_text_eq` — finite numbers of one text are the same.
-/

namespace CairoForge

/-- The exponent that stands behind digits. -/
def writtenExponent : List Char → ℤ
  | 'e' :: '+' :: ds => Nat.ofDigitChars 10 ds 0
  | 'e' :: '-' :: ds => -Nat.ofDigitChars 10 ds 0
  | _ => 0

/-- **The value of digits with a point and an exponent.** -/
def writtenValue (cs : List Char) : ℚ :=
  let digits := cs.takeWhile (· ≠ 'e')
  let fraction := (digits.dropWhile (· ≠ '.')).drop 1
  Nat.ofDigitChars 10 (digits.filter (· ≠ '.')) 0 *
    10 ^ (writtenExponent (cs.dropWhile (· ≠ 'e')) - fraction.length)

/-- Characters that are decimal digits. -/
def AreDigits (cs : List Char) : Prop :=
  ∀ c ∈ cs, c.isDigit = true

theorem areDigits_decimalDigits (n : Nat) : AreDigits (decimalDigits n) := fun _ hc =>
  Nat.isDigit_of_mem_toDigits (by decide) (by decide) hc

theorem areDigits_replicate (n : Nat) : AreDigits (List.replicate n '0') := by
  intro c hc
  rw [List.eq_of_mem_replicate hc]
  rfl

theorem AreDigits.append {cs ds : List Char} (hcs : AreDigits cs) (hds : AreDigits ds) :
    AreDigits (cs ++ ds) := fun c hc =>
  (List.mem_append.mp hc).elim (hcs c) (hds c)

theorem AreDigits.sublist {cs ds : List Char} (hds : AreDigits ds) (h : cs.Sublist ds) :
    AreDigits cs := fun c hc =>
  hds c (h.subset hc)

theorem AreDigits.ne {cs : List Char} (hcs : AreDigits cs) {c d : Char} (hc : c ∈ cs)
    (hd : d.isDigit = false) : c ≠ d := by
  rintro rfl
  rw [hcs c hc] at hd
  cases hd

/-! ## The value of a layout -/

/-- Characters of a kind are taken up to the first one of another kind, and the rest is left. -/
theorem takeWhile_dropWhile_append {p : Char → Prop} [DecidablePred p] {cs tail : List Char}
    (hcs : ∀ c ∈ cs, p c) (htail : ∀ c ∈ tail.head?, ¬ p c) :
    (cs ++ tail).takeWhile (fun c => decide (p c)) = cs ∧
      (cs ++ tail).dropWhile (fun c => decide (p c)) = tail := by
  have hall : ∀ c ∈ cs, decide (p c) = true := fun c hc => decide_eq_true (hcs c hc)
  rw [List.takeWhile_append_of_pos hall, List.dropWhile_append_of_pos hall]
  cases tail with
  | nil => simp
  | cons c rest => simp [htail c rfl]

theorem noExponent : ∀ c ∈ ([] : List Char).head?, c = 'e' := nofun

section Layouts

variable {ds fraction tail : List Char} (hds : AreDigits ds) (hfraction : AreDigits fraction)
  (htail : ∀ c ∈ tail.head?, c = 'e')

include hds htail

/-- Digits without a point. -/
theorem writtenValue_whole :
    writtenValue (ds ++ tail) = Nat.ofDigitChars 10 ds 0 * 10 ^ writtenExponent tail := by
  have hne : ∀ c ∈ ds, c ≠ 'e' := fun c hc => hds.ne hc rfl
  have hpoint : ∀ c ∈ ds, c ≠ '.' := fun c hc => hds.ne hc rfl
  obtain ⟨htake, hdrop⟩ := takeWhile_dropWhile_append (p := (· ≠ 'e')) hne
    fun c hc => not_not_intro (htail c hc)
  have hfilter : ds.filter (· ≠ '.') = ds := List.filter_eq_self.mpr (by simpa using hpoint)
  have hnone : ds.dropWhile (· ≠ '.') = [] := List.dropWhile_eq_nil_iff.mpr (by simpa using hpoint)
  simp only [writtenValue, htake, hdrop, hfilter, hnone]
  simp

include hfraction

/-- Digits with a point between them. -/
theorem writtenValue_point :
    writtenValue (ds ++ '.' :: fraction ++ tail) =
      Nat.ofDigitChars 10 (ds ++ fraction) 0 * 10 ^ (writtenExponent tail - fraction.length) := by
  -- neither part holds the mark of an exponent, which ends the digits
  have hne : ∀ c ∈ ds ++ '.' :: fraction, c ≠ 'e' := by
    intro c hc
    rcases List.mem_append.mp hc with hc | hc
    · exact hds.ne hc rfl
    · rcases List.mem_cons.mp hc with rfl | hc
      · decide
      · exact hfraction.ne hc rfl
  obtain ⟨htake, hdrop⟩ := takeWhile_dropWhile_append (p := (· ≠ 'e')) hne
    fun c hc => not_not_intro (htail c hc)
  have hpoint : ∀ c ∈ ds ++ fraction, c ≠ '.' := fun c hc => (hds.append hfraction).ne hc rfl
  have hstop : ∀ c ∈ ('.' :: fraction).head?, ¬ c ≠ '.' := by simp
  -- the point is the only one, so the digits are what it is left out of
  have hfilter : (ds ++ '.' :: fraction).filter (· ≠ '.') = ds ++ fraction := by
    rw [List.filter_append, List.filter_cons_of_neg (by simp), ← List.filter_append]
    exact List.filter_eq_self.mpr (by simpa using hpoint)
  obtain ⟨-, hfrom⟩ := takeWhile_dropWhile_append (p := (· ≠ '.'))
    (fun c hc => hpoint c (List.mem_append_left _ hc)) hstop
  simp only [writtenValue, htake, hdrop, hfilter, hfrom, List.drop_one, List.tail_cons]

end Layouts

/-- An exponent is read as it was written. -/
theorem writtenExponent_decimalText (n : ℤ) :
    writtenExponent ('e' :: ((if n < 0 then "" else "+") ++ decimalText n).toList) = n := by
  by_cases h : n < 0
  · have htext : ((if n < 0 then "" else "+") ++ decimalText n).toList =
        '-' :: Nat.toDigits 10 n.natAbs := by
      simp [h, decimalText, decimalDigits]
    rw [htext, writtenExponent, Nat.ofDigitChars_ten_toDigits]
    omega
  · have htext : ((if n < 0 then "" else "+") ++ decimalText n).toList =
        '+' :: Nat.toDigits 10 n.natAbs := by
      simp [h, decimalText, decimalDigits]
    rw [htext, writtenExponent, Nat.ofDigitChars_ten_toDigits]
    omega

theorem hyphen_or_isDigit_of_mem_decimalText {n : ℤ} {c : Char} (hc : c ∈ (decimalText n).toList) :
    c = '-' ∧ n < 0 ∨ c.isDigit = true := by
  rw [decimalText, String.toList_append, String.toList_ofList] at hc
  rcases List.mem_append.mp hc with hc | hc
  · split at hc
    · next hn => exact .inl ⟨List.mem_singleton.mp hc, hn⟩
    · cases hc
  · exact .inr (areDigits_decimalDigits _ c hc)

theorem hyphen_mem_decimalText_iff {n : ℤ} : '-' ∈ (decimalText n).toList ↔ n < 0 := by
  constructor
  · intro h
    rcases hyphen_or_isDigit_of_mem_decimalText h with ⟨-, hn⟩ | hdigit
    · exact hn
    · cases hdigit
  · intro h
    simp [decimalText, h]

theorem decimalText_injective : Function.Injective decimalText := by
  intro n n' h
  have hsign : n < 0 ↔ n' < 0 := by
    rw [← hyphen_mem_decimalText_iff, ← hyphen_mem_decimalText_iff, h]
  rw [← writtenExponent_decimalText n, ← writtenExponent_decimalText n', h]
  simp only [hsign]

namespace NumberStyle

variable (style : NumberStyle) {ds : List Char}

/-- Digits written without an exponent have the value of their decimal. -/
theorem writtenValue_plain (hds : AreDigits ds) (e : ℤ) :
    writtenValue (style.plain ds e).toList = Nat.ofDigitChars 10 ds 0 * 10 ^ e := by
  rw [plain]
  split
  -- zeros behind the digits
  · next he =>
    obtain ⟨n, rfl⟩ := Int.eq_ofNat_of_zero_le he
    have hdigits := hds.append (areDigits_replicate n)
    have hvalue : Nat.ofDigitChars 10 (ds ++ List.replicate n '0') 0 =
        10 ^ n * Nat.ofDigitChars 10 ds 0 := by
      rw [Nat.ofDigitChars_append, Nat.ofDigitChars_replicate_zero]
    cases style.keepPoint with
    | false =>
      have h := writtenValue_whole hdigits noExponent
      rw [hvalue] at h
      simp only [zeros, Int.toNat_natCast, String.toList_append, String.toList_ofList]
      refine h.trans ?_
      simp [writtenExponent, mul_comm]
    | true =>
      have h := writtenValue_point hdigits (areDigits_replicate 1) noExponent
      rw [Nat.ofDigitChars_append, hvalue] at h
      simp only [zeros, Int.toNat_natCast, String.toList_append, String.toList_ofList]
      rw [List.append_nil] at h
      refine h.trans ?_
      simp [writtenExponent, Nat.ofDigitChars_cons]
      ring
  · next he =>
    obtain ⟨n, hn⟩ := Int.eq_ofNat_of_zero_le (show 0 ≤ -e by omega)
    obtain rfl : e = -(n : ℤ) := by omega
    split
    -- a point between the digits
    · next hlength =>
      have hn : n ≤ ds.length := by omega
      have h := writtenValue_point (hds.sublist (List.take_sublist (ds.length - n) ds))
        (hds.sublist (List.drop_sublist (ds.length - n) ds)) noExponent
      rw [List.append_nil, List.take_append_drop, List.length_drop, Nat.sub_sub_self hn] at h
      simp only [neg_neg, Int.toNat_natCast, String.toList_append, String.toList_ofList,
        List.append_assoc]
      refine h.trans ?_
      simp [writtenExponent]
    -- a point and zeros in front of the digits
    · next hlength =>
      have h := writtenValue_point (areDigits_replicate 1)
        ((areDigits_replicate (n - ds.length)).append hds) noExponent
      have hn : n - ds.length + ds.length = n := by omega
      rw [List.append_nil, ← List.append_assoc, Nat.ofDigitChars_append, List.length_append,
        List.length_replicate, hn, Nat.ofDigitChars_append, Nat.ofDigitChars_replicate_zero] at h
      simp only [neg_neg, Int.toNat_natCast, zeros, String.toList_append, String.toList_ofList,
        List.append_assoc]
      refine h.trans ?_
      simp [writtenExponent, Nat.ofDigitChars_cons]

/-- Digits written with an exponent have the value of their decimal. -/
theorem writtenValue_scientific (hds : AreDigits ds) (hne : ds ≠ []) (lead : ℤ) :
    writtenValue (scientific ds lead).toList =
      Nat.ofDigitChars 10 ds 0 * 10 ^ (lead - (ds.length - 1)) := by
  obtain ⟨first, fraction, rfl⟩ := List.exists_cons_of_ne_nil hne
  have hfirst : AreDigits [first] := hds.sublist (List.singleton_sublist.mpr List.mem_cons_self)
  have hfraction : AreDigits fraction := hds.sublist (List.sublist_cons_self first fraction)
  have hexponent := writtenExponent_decimalText lead
  have htail : ∀ rest : List Char, ∀ c ∈ ('e' :: rest).head?, c = 'e' := fun rest => by simp
  rw [scientific]
  -- a single digit is written without a point
  cases fraction with
  | nil =>
    have h := writtenValue_whole hfirst
      (htail ((if lead < 0 then "" else "+") ++ decimalText lead).toList)
    rw [hexponent] at h
    refine Eq.trans (congrArg writtenValue ?_) (h.trans ?_)
    · simp
    · simp
  | cons second fraction =>
    have h := writtenValue_point hfirst hfraction
      (htail ((if lead < 0 then "" else "+") ++ decimalText lead).toList)
    rw [hexponent] at h
    refine Eq.trans (congrArg writtenValue ?_) (h.trans ?_)
    · simp
    · simp

/-- **The text of a decimal has the value of the decimal.** -/
theorem writtenValue_decimal (d : Decimal) : writtenValue (style.decimal d).toList = d.value := by
  have hds := areDigits_decimalDigits d.digits
  have hne : decimalDigits d.digits ≠ [] := Nat.toDigits_ne_nil
  have hvalue : Nat.ofDigitChars 10 (decimalDigits d.digits) 0 = d.digits :=
    Nat.ofDigitChars_ten_toDigits
  rw [decimal]
  split
  · rw [style.writtenValue_plain hds, hvalue, Decimal.value]
  · rw [writtenValue_scientific hds hne, hvalue, Decimal.value]
    congr 2
    ring

end NumberStyle

/-! ## Characters of numbers -/

/-- A character that numbers are written with. -/
def IsNumberChar (c : Char) : Prop :=
  c.isDigit = true ∨ c = '.' ∨ c = 'e' ∨ c = '+' ∨ c = '-'

instance : DecidablePred IsNumberChar := fun _ =>
  inferInstanceAs (Decidable (_ ∨ _))

-- runs along the list, not over all characters
theorem isNumberChar_of_all {cs : List Char} (h : (cs.all fun c => IsNumberChar c) = true) :
    ∀ c ∈ cs, IsNumberChar c :=
  fun c hc => of_decide_eq_true (List.all_eq_true.mp h c hc)

/-- Text that starts with a digit and goes on with characters of numbers. -/
structure IsUnsigned (cs : List Char) : Prop where
  starts : ∃ first rest, cs = first :: rest ∧ first.isDigit = true
  chars : ∀ c ∈ cs, IsNumberChar c

theorem AreDigits.isUnsigned {ds : List Char} (hds : AreDigits ds) (hne : ds ≠ []) :
    IsUnsigned ds := by
  obtain ⟨first, rest, rfl⟩ := List.exists_cons_of_ne_nil hne
  exact ⟨⟨first, rest, rfl, hds first List.mem_cons_self⟩, fun c hc => .inl (hds c hc)⟩

theorem IsUnsigned.append {cs tail : List Char} (h : IsUnsigned cs)
    (htail : ∀ c ∈ tail, IsNumberChar c) : IsUnsigned (cs ++ tail) := by
  obtain ⟨⟨first, rest, rfl, hfirst⟩, hchars⟩ := h
  refine ⟨⟨first, rest ++ tail, rfl, hfirst⟩, fun c hc => ?_⟩
  exact (List.mem_append.mp hc).elim (hchars c) (htail c)

/-- Text with a sign in front of it, or none. -/
def IsSigned (cs : List Char) : Prop :=
  ∃ negative unsigned, cs = (if negative = true then ['-'] else []) ++ unsigned ∧
    IsUnsigned unsigned

theorem IsSigned.starts {cs : List Char} (h : IsSigned cs) :
    ∃ first rest, cs = first :: rest ∧ (first = '-' ∨ first.isDigit = true) := by
  obtain ⟨negative, unsigned, rfl, hunsigned⟩ := h
  obtain ⟨first, rest, rfl, hfirst⟩ := hunsigned.starts
  cases negative with
  | false => exact ⟨first, rest, rfl, .inr hfirst⟩
  | true => exact ⟨'-', first :: rest, rfl, .inl rfl⟩

theorem IsSigned.chars {cs : List Char} (h : IsSigned cs) : ∀ c ∈ cs, IsNumberChar c := by
  obtain ⟨negative, unsigned, rfl, hunsigned⟩ := h
  intro c hc
  rcases List.mem_append.mp hc with hc | hc
  · cases negative with
    | false => cases hc
    | true =>
      obtain rfl := List.mem_singleton.mp hc
      decide
  · exact hunsigned.chars c hc

theorem isSigned_decimalText (n : ℤ) : IsSigned (decimalText n).toList := by
  refine ⟨decide (n < 0), decimalDigits n.natAbs, ?_,
    (areDigits_decimalDigits _).isUnsigned Nat.toDigits_ne_nil⟩
  rw [decimalText, String.toList_append, String.toList_ofList]
  by_cases h : n < 0 <;> simp [h]

namespace NumberStyle

variable (style : NumberStyle) {ds : List Char}

theorem isUnsigned_plain (hds : AreDigits ds) (hne : ds ≠ []) (e : ℤ) :
    IsUnsigned (style.plain ds e).toList := by
  rw [plain]
  -- the point stands behind all digits, between them or before them
  split
  · simp only [zeros, String.toList_append, String.toList_ofList]
    refine ((hds.isUnsigned hne).append fun c hc => .inl (areDigits_replicate _ c hc)).append ?_
    split <;> exact isNumberChar_of_all (by decide)
  · split
    · next hlength =>
      have htake : ds.take (ds.length - (-e).toNat) ≠ [] := by
        rw [Ne, List.take_eq_nil_iff, not_or]
        exact ⟨by omega, hne⟩
      simp only [String.toList_append, String.toList_ofList]
      have hwhole := (hds.sublist (List.take_sublist _ ds)).isUnsigned htake
      exact (hwhole.append (isNumberChar_of_all (by decide))).append
        fun c hc => .inl (hds c (List.mem_of_mem_drop hc))
    · simp only [zeros, String.toList_append, String.toList_ofList]
      have hzero : IsUnsigned ("0.".toList) :=
        ⟨⟨'0', ['.'], rfl, rfl⟩, isNumberChar_of_all (by decide)⟩
      exact (hzero.append fun c hc => .inl (areDigits_replicate _ c hc)).append
        fun c hc => .inl (hds c hc)

theorem isUnsigned_scientific (hds : AreDigits ds) (hne : ds ≠ []) (lead : ℤ) :
    IsUnsigned (scientific ds lead).toList := by
  obtain ⟨first, fraction, rfl⟩ := List.exists_cons_of_ne_nil hne
  have hfirst : AreDigits [first] := hds.sublist (List.singleton_sublist.mpr List.mem_cons_self)
  have hfraction : ∀ c ∈ fraction, IsNumberChar c := fun c hc => .inl (hds c (.tail _ hc))
  rw [scientific]
  simp only [String.toList_append, String.toList_ofList]
  refine ((((hfirst.isUnsigned (by simp)).append ?_).append
    (isNumberChar_of_all (by decide))).append ?_).append (isSigned_decimalText lead).chars
  · split
    · exact isNumberChar_of_all (by decide)
    · have hpoint : ∀ c ∈ ".".toList, IsNumberChar c := isNumberChar_of_all (by decide)
      rw [String.toList_append]
      exact fun c hc => (List.mem_append.mp hc).elim (hpoint c) fun hc =>
        hfraction c (by simpa using hc)
  · split <;> exact isNumberChar_of_all (by decide)

theorem point_mem_plain (hpoint : style.keepPoint = true) (ds : List Char) (e : ℤ) :
    '.' ∈ (style.plain ds e).toList := by
  rw [plain, hpoint]
  split
  · simp
  · split <;> simp

/-- Where points are kept a number has a point or an exponent. -/
theorem point_or_exponent_mem_decimal (hpoint : style.keepPoint = true) (d : Decimal) :
    '.' ∈ (style.decimal d).toList ∨ 'e' ∈ (style.decimal d).toList := by
  rw [decimal]
  split
  · exact .inl (style.point_mem_plain hpoint _ _)
  · refine .inr ?_
    simp [scientific]

theorem isUnsigned_decimal (d : Decimal) : IsUnsigned (style.decimal d).toList := by
  have hds := areDigits_decimalDigits d.digits
  have hne : decimalDigits d.digits ≠ [] := Nat.toDigits_ne_nil
  rw [decimal]
  split
  · exact style.isUnsigned_plain hds hne _
  · exact isUnsigned_scientific hds hne _

end NumberStyle

/-! ## Words -/

namespace Binary64

variable {style : NumberStyle} {x y : Binary64}

/-- A number that is neither an infinity nor NaN. -/
def IsFinite (x : Binary64) : Prop :=
  ∃ negative m q, x.datum = .finite negative m q

/-- The text of a finite number without its sign. -/
def unsignedText (style : NumberStyle) (m : Nat) (q : Int) : String :=
  if m = 0 then style.plain ['0'] 0
  else style.decimal ((Magnitude.ofBinary64 m q).shortest style.tie).trim

theorem toList_text_of_datum {negative : Bool} {m : Nat} {q : Int}
    (h : x.datum = .finite negative m q) :
    (x.text style).toList =
      (if negative then ['-'] else []) ++ (unsignedText style m q).toList := by
  rw [text, h, unsignedText, String.toList_append]
  cases negative <;> rfl

theorem isUnsigned_unsignedText (style : NumberStyle) (m : Nat) (q : Int) :
    IsUnsigned (unsignedText style m q).toList := by
  rw [unsignedText]
  split
  · exact style.isUnsigned_plain (areDigits_replicate 1) (by simp) 0
  · exact style.isUnsigned_decimal _

theorem isSigned_text (hx : x.IsFinite) : IsSigned (x.text style).toList := by
  obtain ⟨negative, m, q, hx⟩ := hx
  exact ⟨negative, _, toList_text_of_datum hx, isUnsigned_unsignedText style m q⟩

theorem point_or_exponent_mem_text (hpoint : style.keepPoint = true) (hx : x.IsFinite) :
    '.' ∈ (x.text style).toList ∨ 'e' ∈ (x.text style).toList := by
  obtain ⟨negative, m, q, hx⟩ := hx
  have hunsigned : '.' ∈ (unsignedText style m q).toList ∨
      'e' ∈ (unsignedText style m q).toList := by
    rw [unsignedText]
    split
    · exact .inl (style.point_mem_plain hpoint _ _)
    · exact style.point_or_exponent_mem_decimal hpoint _
  rw [toList_text_of_datum hx, List.mem_append, List.mem_append]
  exact hunsigned.imp .inr .inr

/-- Where points are kept no number is written like an integer. -/
theorem text_ne_decimalText (hpoint : style.keepPoint = true) (hx : x.IsFinite) (n : ℤ) :
    x.text style ≠ decimalText n := by
  intro h
  have hmark := point_or_exponent_mem_text hpoint hx
  rw [h] at hmark
  rcases hmark with hmem | hmem <;>
    rcases hyphen_or_isDigit_of_mem_decimalText hmem with ⟨hc, -⟩ | hc <;> cases hc

/-- The text of a zero has the value zero, any other one a value that is rounded to its number. -/
theorem writtenValue_unsignedText (style : NumberStyle) (m : Nat) (q : Int) :
    (m = 0 ∧ writtenValue (unsignedText style m q).toList = 0) ∨
      (m ≠ 0 ∧ 0 < writtenValue (unsignedText style m q).toList ∧
        (Magnitude.ofBinary64 m q).Rounds (writtenValue (unsignedText style m q).toList)) := by
  rw [unsignedText]
  by_cases hm : m = 0
  · refine .inl ⟨hm, ?_⟩
    have hzero : AreDigits ['0'] := areDigits_replicate 1
    rw [if_pos hm, style.writtenValue_plain hzero]
    simp [Nat.ofDigitChars_cons]
  · refine .inr ⟨hm, ?_⟩
    rw [if_neg hm, style.writtenValue_decimal, Decimal.value_trim]
    have hrounds := (Magnitude.ofBinary64 m q).rounds_shortest style.tie (Nat.pos_of_ne_zero hm)
    exact ⟨hrounds.pos (Nat.pos_of_ne_zero hm), hrounds⟩

/-- Texts without a sign are equal where those of the numbers are, and so are the signs. -/
theorem unsignedText_eq_of_text_eq {negative negative' : Bool} {m m' : Nat} {q q' : Int}
    (hx : x.datum = .finite negative m q) (hy : y.datum = .finite negative' m' q')
    (h : x.text style = y.text style) :
    negative = negative' ∧ unsignedText style m q = unsignedText style m' q' := by
  have htexts := congrArg String.toList h
  rw [toList_text_of_datum hx, toList_text_of_datum hy] at htexts
  obtain ⟨first, rest, hfirst, hdigit⟩ := (isUnsigned_unsignedText style m q).starts
  obtain ⟨first', rest', hfirst', hdigit'⟩ := (isUnsigned_unsignedText style m' q').starts
  -- a text without a sign starts with a digit
  cases negative <;> cases negative' <;>
    simp only [if_true, Bool.false_eq_true, if_false, List.nil_append, List.cons_append] at htexts
  · exact ⟨rfl, String.toList_inj.mp htexts⟩
  · rw [hfirst] at htexts
    obtain rfl := (List.cons.inj htexts).1
    cases hdigit
  · rw [hfirst'] at htexts
    obtain rfl := (List.cons.inj htexts).1
    cases hdigit'
  · exact ⟨rfl, String.toList_inj.mp (List.cons.inj htexts).2⟩

/-- **Finite numbers of one text are the same word.** The two zeros have two texts. -/
theorem eq_of_text_eq (hx : x.IsFinite) (hy : y.IsFinite) (h : x.text style = y.text style) :
    x = y := by
  obtain ⟨negative, m, q, hx⟩ := hx
  obtain ⟨negative', m', q', hy⟩ := hy
  obtain ⟨rfl, htexts⟩ := unsignedText_eq_of_text_eq hx hy h
  have hvalue := writtenValue_unsignedText style m q
  have hvalue' := writtenValue_unsignedText style m' q'
  rw [← htexts] at hvalue'
  -- both texts have one value, which is rounded to one number at most
  have hsame : m = m' ∧ q = q' := by
    rcases hvalue with ⟨rfl, hzero⟩ | ⟨hm, hpos, hrounds⟩
    · rcases hvalue' with ⟨rfl, -⟩ | ⟨-, hpos', -⟩
      · exact ⟨rfl, (q_of_datum_zero hx).trans (q_of_datum_zero hy).symm⟩
      · exact absurd hzero hpos'.ne'
    · rcases hvalue' with ⟨-, hzero'⟩ | ⟨hm', -, hrounds'⟩
      · exact absurd hzero' hpos.ne'
      · exact Magnitude.eq_of_rounds (inFormat_of_datum hx hm) (inFormat_of_datum hy hm') hrounds
          hrounds'
  obtain ⟨rfl, rfl⟩ := hsame
  exact eq_of_datum_eq hx hy

end Binary64

end CairoForge
