import CairoForge.Proofs.SpelledJson

/-!
# Accepted JSON

What the grammar spells is read as it says, wherever it stands. The reader sees one character at a
time and the grammar knows where values end; the two meet in numbers, which end only before the
character behind them. So a value has been read as soon as every character that may follow finds it
complete.

## Main definitions

* `Scan.feed` — reads several characters.
* `Scan.Holds` — a value has been read, as every character behind it will find.

## Main results

* `TextScan.feed?_text`, `Scan.holds_numeral` — strings and numbers are read from what spells them.
* `Scan.holds_spelled` — a value is read from what spells it.
* `Transcript.ofText_spelled` — a text is read as what it spells.
* `Spells.unique` — the text of a value decides what is read of it.
-/

namespace CairoForge

/-! ## Strings -/

namespace TextScan

/-- Reads characters that do not end the string. -/
def feed? (t : TextScan) : List Char → Option TextScan
  | [] => some t
  | c :: rest =>
    match t.step c with
    | .more t => t.feed? rest
    | _ => none

theorem feed?_append (t : TextScan) (cs rest : List Char) :
    t.feed? (cs ++ rest) = (t.feed? cs).bind (·.feed? rest) := by
  induction cs generalizing t with
  | nil => rfl
  | cons c cs ih =>
    rw [List.cons_append, feed?, feed?]
    cases t.step c with
    | more t => exact ih t
    | closed t => rfl
    | broken cause => rfl

/-- Hexadecimal digits take one byte. -/
theorem utf8Size_of_hexValue? {c : Char} {d : Nat} (h : hexValue? c = some d) : c.utf8Size = 1 := by
  have hle : c.val ≤ 'f'.val := by
    unfold hexValue? at h
    split_ifs at h with hdigit hlower hupper
    · have hrange : c.val ≥ 48 ∧ c.val ≤ 57 := by simpa [Char.isDigit] using hdigit
      exact UInt32.le_trans hrange.2 (by decide)
    · exact hlower.2
    · exact UInt32.le_trans hupper.2 (by decide)
  exact Char.utf8Size_eq_one_iff.mpr (UInt32.le_trans hle (by decide))

/-- Digits that spell a unit, and not the last ones. -/
theorem feed?_digits {t : TextScan} {bytes value : Nat} {high? : Option Nat}
    (ht : t.escape = .hex bytes (some value) high?) {ds : List Char} {after : Nat}
    (hds : ds.foldlM (fun value c => (hexValue? c).map (16 * value + ·)) value = some after)
    (hbytes : bytes + ds.length < 4) :
    t.feed? ds = some { t with escape := .hex (bytes + ds.length) (some after) high? } := by
  induction ds generalizing t bytes value with
  | nil =>
    obtain rfl := Option.some.inj hds
    rw [feed?, List.length_nil, Nat.add_zero, ← ht]
  | cons c ds ih =>
    rw [List.foldlM_cons] at hds
    obtain ⟨next, hnext, hds⟩ := Option.bind_eq_some_iff.mp hds
    obtain ⟨d, hd, rfl⟩ := Option.map_eq_some_iff.mp hnext
    rw [List.length_cons] at hbytes
    -- the fourth digit is never reached here, so the unit stays open
    have hmore : bytes + 1 < 4 := by omega
    have hstep : t.step c =
        .more { t with escape := .hex (bytes + 1) (some (16 * value + d)) high? } := by
      simp only [step, ht, Option.bind_some, hd, utf8Size_of_hexValue? hd, Option.map_some,
        if_pos hmore]
    rw [feed?, hstep]
    dsimp only
    rw [ih rfl hds (by omega), List.length_cons, Nat.add_assoc, Nat.add_comm 1]

/-- **A unit is read** from its four digits. -/
theorem feed?_unit {t : TextScan} {high? : Option Nat} (ht : t.escape = .hex 0 (some 0) high?)
    {ds : List Char} {value : Nat} (hds : SpellsUnit ds value) :
    t.feed? ds = some (t.unit value high?) := by
  obtain ⟨hlength, hvalue⟩ := hds
  -- only the last of the four digits closes the unit
  rcases List.eq_nil_or_concat ds with rfl | ⟨firsts, c, rfl⟩
  · cases hlength
  · rw [List.concat_eq_append] at hlength hvalue ⊢
    rw [List.length_append, List.length_singleton] at hlength
    rw [hexNumber?, List.foldlM_append] at hvalue
    obtain ⟨first, hfirst, hlast⟩ := Option.bind_eq_some_iff.mp hvalue
    rw [List.foldlM_cons] at hlast
    obtain ⟨_, hlast, hend⟩ := Option.bind_eq_some_iff.mp hlast
    obtain ⟨d, hd, rfl⟩ := Option.map_eq_some_iff.mp hlast
    obtain rfl := Option.some.inj hend
    have hdone : ¬ 0 + firsts.length + c.utf8Size < 4 := by
      have hsize := utf8Size_of_hexValue? hd
      omega
    rw [feed?_append, feed?_digits ht hfirst (by omega), Option.bind_some, feed?]
    simp only [step, Option.bind_some, hd, Option.map_some, if_neg hdone]
    rfl

/-- **A character is read** from what spells it. -/
theorem feed?_char {t : TextScan} (ht : t.escape = .plain) {ds : List Char} {c : Char}
    (hds : SpellsChar ds c) : t.feed? ds = some (t.push c) := by
  have hopened : ∀ ds, t.feed? ('\\' :: 'u' :: ds) =
      feed? { t with escape := .hex 0 (some 0) none } ds := by
    intro ds
    simp only [feed?, step, ht]
    rfl
  cases hds with
  | plain hquote hbackslash hcontrol =>
    simp only [feed?, step, ht, stepPlain, hquote, hbackslash, Nat.not_lt.mpr hcontrol, if_false]
  | short h =>
    simp only [shortEscapes, List.mem_cons, Prod.mk.injEq, List.not_mem_nil, or_false] at h
    rcases h with ⟨rfl, rfl⟩ | ⟨rfl, rfl⟩ | ⟨rfl, rfl⟩ | ⟨rfl, rfl⟩ | ⟨rfl, rfl⟩ | ⟨rfl, rfl⟩ |
      ⟨rfl, rfl⟩ | ⟨rfl, rfl⟩
    all_goals
      simp only [feed?, step, ht]
      rfl
  | unit hds hhigh hlow =>
    rw [hopened, feed?_unit rfl hds]
    simp [unit, hhigh, hlow, push]
  | pair hhighs hhigh hlows hlow =>
    -- the first half waits for a second one, which is opened like a unit of its own
    rw [hopened, feed?_append, feed?_unit rfl hhighs, Option.bind_some]
    have hpair : ∀ high ds, feed? { t with escape := .pairBackslash high } ('\\' :: 'u' :: ds) =
        feed? { t with escape := .hex 0 (some 0) (some high) } ds := by
      intro high ds
      simp only [feed?, step, if_true]
    simp only [unit, hhigh, if_true]
    rw [hpair, feed?_unit rfl hlows]
    simp [unit, hlow, push]

/-- **The characters of a string are read** one after the other. -/
theorem feed?_text {cs text : List Char} (h : SpellsText cs text) :
    feed? {} cs = some { chars := text.reverse } := by
  induction h with
  | nil => rfl
  | snoc _ hds ih =>
    rw [feed?_append, ih, Option.bind_some, feed?_char rfl hds, push, List.reverse_append]
    rfl

end TextScan

/-! ## Characters of a text -/

namespace Scan

variable {rounding : Rounding}

/-- Reads characters one after the other. -/
def feed (rounding : Rounding) (s : Scan) (cs : List Char) : Scan :=
  cs.foldl (step rounding) s

@[simp] theorem feed_nil (s : Scan) : s.feed rounding [] = s := rfl

theorem feed_cons (s : Scan) (c : Char) (cs : List Char) :
    s.feed rounding (c :: cs) = (s.step rounding c).feed rounding cs := rfl

theorem feed_append (s : Scan) (cs rest : List Char) :
    s.feed rounding (cs ++ rest) = (s.feed rounding cs).feed rounding rest :=
  List.foldl_append

/-- Blanks are passed over. -/
theorem feed_blanks {s : Scan} (hs : skipsBlank s.mode = true) {cs : List Char}
    (hcs : ∀ c ∈ cs, isBlank c = true) : s.feed rounding cs = s := by
  induction cs with
  | nil => rfl
  | cons c cs ih =>
    obtain ⟨hc, hcs⟩ := List.forall_mem_cons.mp hcs
    have hstep : s.step rounding c = s := by rw [step, hs, hc, Bool.and_self, if_pos rfl]
    rw [feed_cons, hstep, ih hcs]

/-- What is read of a string that goes on is read wherever the string stands. -/
theorem feed_string {mode : TextScan → Mode} {stack : List Frame}
    (hmode : ∀ t c next, t.step c = .more next →
      step rounding ⟨mode t, stack⟩ c = ⟨mode next, stack⟩)
    {t after : TextScan} {cs : List Char} (h : t.feed? cs = some after) :
    feed rounding ⟨mode t, stack⟩ cs = ⟨mode after, stack⟩ := by
  induction cs generalizing t with
  | nil => rw [← Option.some.inj h, feed_nil]
  | cons c cs ih =>
    rw [TextScan.feed?] at h
    cases hstep : t.step c with
    | more next =>
      rw [hstep] at h
      rw [feed_cons, hmode t c next hstep, ih h]
    | closed _ | broken _ =>
      rw [hstep] at h
      cases h

/-! ## Complete values -/

/-- May the character stand behind a value? -/
def endsValue (c : Char) : Bool :=
  isBlank c || c == ',' || c == ']' || c == '\x7d'

/-- **A value has been read**, as every character that may stand behind it will find, and the end
of the text. A number is complete only then. -/
structure Holds (rounding : Rounding) (r : Reading) (stack : List Frame) (s : Scan) : Prop where
  step : ∀ c, endsValue c = true → s.step rounding c = (complete r stack).step rounding c
  finish : s.finish rounding = (complete r stack).finish rounding

theorem holds_complete (r : Reading) (stack : List Frame) :
    Holds rounding r stack (complete r stack) := ⟨fun _ _ => rfl, rfl⟩

/-- Behind a value the text goes on as behind a complete one. -/
theorem Holds.feed {r : Reading} {stack : List Frame} {s : Scan} (h : Holds rounding r stack s)
    {c : Char} (hc : endsValue c = true) (cs : List Char) :
    s.feed rounding (c :: cs) = (complete r stack).feed rounding (c :: cs) := by
  rw [feed_cons, feed_cons, h.step c hc]

/-- May a value stand next? -/
def awaitsValue : Mode → Bool
  | .value | .firstItem | .nextItem => true
  | _ => false

/-- A value may start with any character but a blank and the end of an array. -/
theorem step_start {mode : Mode} (hmode : awaitsValue mode = true) (stack : List Frame) {c : Char}
    (hblank : isBlank c = false) (hbracket : c ≠ ']') :
    step rounding ⟨mode, stack⟩ c = stepValue stack c := by
  cases mode with
  | value | firstItem | nextItem => simp [step, hblank, hbracket]
  | _ => cases hmode

/-- A blank may stand behind a value. -/
theorem endsValue_of_isBlank {c : Char} (h : isBlank c = true) : endsValue c = true := by
  simp [endsValue, h]

/-- A value whose last character completes it. -/
theorem holds_of_feed {mode : Mode} (hmode : awaitsValue mode = true) {stack : List Frame}
    {r : Reading} {chars cs : List Char} {c : Char} (hchars : chars = c :: cs)
    (hblank : isBlank c = false) (hbracket : c ≠ ']')
    (h : feed rounding (stepValue stack c) cs = complete r stack) :
    Holds rounding r stack (feed rounding ⟨mode, stack⟩ chars) := by
  rw [hchars, feed_cons, step_start hmode stack hblank hbracket, h]
  exact holds_complete r stack

end Scan

/-! ## Numbers -/

namespace Numeral

theorem foldl_pushWhole (n : Numeral) (ds : List Char) :
    ds.foldl pushWhole n = { n with whole := n.whole ++ ds } := by
  induction ds generalizing n with
  | nil => simp
  | cons c ds ih => simp [ih, pushWhole]

theorem foldl_pushFraction (n : Numeral) (ds : List Char) :
    ds.foldl pushFraction n = { n with fraction := n.fraction ++ ds } := by
  induction ds generalizing n with
  | nil => simp
  | cons c ds ih => simp [ih, pushFraction]

theorem foldl_pushExponent (n : Numeral) (ds : List Char) :
    ds.foldl pushExponent n =
      { n with
        exponent? := n.exponent?.map fun (negative, before) => (negative, before ++ ds) } := by
  induction ds generalizing n with
  | nil => simp
  | cons c ds ih => simp [ih, pushExponent, Function.comp_def]

end Numeral

namespace Scan

variable {rounding : Rounding}

theorem ne_of_isDigit {c other : Char} (hdigit : c.isDigit = true)
    (hother : other.isDigit = false) : c ≠ other := by
  rintro rfl
  rw [hdigit] at hother
  cases hother

theorem step_number {phase next : NumberPhase} {n after : Numeral} {c : Char}
    (h : n.step phase c = .more next after) (stack : List Frame) :
    step rounding ⟨.number phase n, stack⟩ c = ⟨.number next after, stack⟩ := by
  simp only [step, skipsBlank, Bool.false_and, Bool.false_eq_true, if_false, h]

/-- A digit starts a number wherever a value may stand. -/
theorem step_digit {mode : Mode} (hmode : awaitsValue mode = true) (stack : List Frame) {c : Char}
    (hdigit : c.isDigit = true) :
    step rounding ⟨mode, stack⟩ c = step rounding ⟨.number .sign {}, stack⟩ c := by
  have hblank : isBlank c = false := by
    simp [isBlank, ne_of_isDigit hdigit]
  rw [step_start hmode stack hblank (ne_of_isDigit hdigit rfl)]
  have hmore : ∃ phase n, Numeral.step .sign {} c = .more phase n := by
    by_cases hzero : c = '0'
    · exact ⟨_, _, by rw [Numeral.step, if_pos hzero]⟩
    · exact ⟨_, _, by rw [Numeral.step, if_neg hzero, if_pos hdigit]⟩
  obtain ⟨phase, n, hmore⟩ := hmore
  rw [step_number hmore]
  unfold stepValue
  split <;> first | cases hdigit | rw [hmore]

/-- A character that may stand behind a value ends a number. -/
theorem ended_of_endsValue {n : Numeral} {phase : NumberPhase}
    (hphase : Numeral.mayEnd phase = true) {c : Char} (hc : endsValue c = true) :
    n.step phase c = .ended := by
  have hcases : c = ' ' ∨ c = '\n' ∨ c = '\t' ∨ c = '\r' ∨ c = ',' ∨ c = ']' ∨ c = '\x7d' := by
    simpa [endsValue, isBlank, or_assoc] using hc
  cases phase with
  | zero | whole | fraction | exponent =>
    rcases hcases with rfl | rfl | rfl | rfl | rfl | rfl | rfl <;> rfl
  | sign | point | mark | exponentSign => cases hphase

/-- Behind a complete value a character belongs to what is open around it. -/
theorem step_complete (r : Reading) (stack : List Frame) (c : Char) :
    (complete r stack).step rounding c = (complete r stack).stepBehind c := by
  by_cases hc : isBlank c = true
  · rcases stack with _ | ⟨items | ⟨members, name?⟩, outer⟩ <;>
      simp [complete, step, stepBehind, skipsBlank, hc]
  · rcases stack with _ | ⟨items | ⟨members, name?⟩, outer⟩ <;>
      simp [complete, step, stepBehind, skipsBlank, hc]

/-- A number has been read although it is not complete before the next character. -/
theorem holds_number {n : Numeral} {phase : NumberPhase} (hphase : Numeral.mayEnd phase = true)
    (stack : List Frame) :
    Holds rounding (.number (n.quantity? rounding)) stack ⟨.number phase n, stack⟩ where
  step c hc := by
    rw [step_complete]
    simp only [step, skipsBlank, Bool.false_and, Bool.false_eq_true, if_false,
      ended_of_endsValue hphase hc]
  finish := by
    simp only [finish, hphase, if_true]
    rcases stack with _ | ⟨items | ⟨members, name?⟩, outer⟩ <;> rfl

/-- Digits that go on with a part of a number. -/
theorem feed_part {phase : NumberPhase} {push : Numeral → Char → Numeral}
    (hpush : ∀ (n : Numeral) (c : Char), c.isDigit = true → n.step phase c = .more phase (push n c))
    (stack : List Frame) (n : Numeral) {ds : List Char} (hds : ∀ c ∈ ds, c.isDigit = true) :
    feed rounding ⟨.number phase n, stack⟩ ds = ⟨.number phase (ds.foldl push n), stack⟩ := by
  induction ds generalizing n with
  | nil => rfl
  | cons c ds ih =>
    obtain ⟨hc, hds⟩ := List.forall_mem_cons.mp hds
    rw [feed_cons, step_number (hpush n c hc), ih _ hds, List.foldl_cons]

/-- Digits that start a part of a number and go on with it. -/
theorem feed_digitsOf {start phase : NumberPhase} (push : Numeral → Char → Numeral)
    (hpush : ∀ (n : Numeral) (c : Char), c.isDigit = true → n.step phase c = .more phase (push n c))
    (stack : List Frame) (n : Numeral) {ds : List Char} (hds : IsDigits ds)
    (hstart : ∀ c, ds.head? = some c → c.isDigit = true → n.step start c = .more phase (push n c)) :
    feed rounding ⟨.number start n, stack⟩ ds = ⟨.number phase (ds.foldl push n), stack⟩ := by
  obtain ⟨hne, hds⟩ := hds
  obtain ⟨first, ds, rfl⟩ := List.exists_cons_of_ne_nil hne
  obtain ⟨hfirst, hds⟩ := List.forall_mem_cons.mp hds
  rw [feed_cons, step_number (hstart first rfl hfirst), feed_part hpush stack _ hds,
    List.foldl_cons]

/-- The whole part of a number. -/
theorem feed_whole {ds : List Char} (hds : IsWhole ds) (negative : Bool) (stack : List Frame) :
    ∃ phase, (phase = .zero ∨ phase = .whole) ∧
      feed rounding ⟨.number .sign { negative }, stack⟩ ds =
        ⟨.number phase { negative, whole := ds }, stack⟩ := by
  rcases hds with rfl | ⟨hdigits, hfirst⟩
  · exact ⟨.zero, .inl rfl, rfl⟩
  · refine ⟨.whole, .inr rfl, ?_⟩
    rw [feed_digitsOf Numeral.pushWhole ?_ stack _ hdigits ?_, Numeral.foldl_pushWhole]
    · rfl
    · intro n c hc
      rw [Numeral.step, if_pos hc]
    · intro c hhead hc
      have hzero : c ≠ '0' := fun hzero => hfirst (hzero ▸ hhead)
      rw [Numeral.step, if_neg hzero, if_pos hc]

/-- The fraction of a number. -/
theorem feed_fraction {cs ds : List Char} (hcs : SpellsFraction cs ds) {phase : NumberPhase}
    (hphase : phase = .zero ∨ phase = .whole) (negative : Bool) (whole : List Char)
    (stack : List Frame) :
    ∃ next, (next = .zero ∨ next = .whole ∨ next = .fraction) ∧
      feed rounding ⟨.number phase { negative, whole }, stack⟩ cs =
        ⟨.number next { negative, whole, fraction := ds }, stack⟩ := by
  cases hcs with
  | none => exact ⟨phase, hphase.imp_right .inl, rfl⟩
  | digits hds =>
    refine ⟨.fraction, .inr (.inr rfl), ?_⟩
    have hpoint : Numeral.step phase { negative, whole } '.' =
        .more .point { negative, whole } := by
      rcases hphase with rfl | rfl <;> rfl
    have hdigit : ∀ (n : Numeral) (c : Char), c.isDigit = true →
        n.step .point c = .more .fraction (n.pushFraction c) ∧
          n.step .fraction c = .more .fraction (n.pushFraction c) := by
      intro n c hc
      exact ⟨by rw [Numeral.step, if_pos hc], by rw [Numeral.step, if_pos hc]⟩
    rw [feed_cons, step_number hpoint, feed_digitsOf _ (fun n c hc => (hdigit n c hc).2) stack _ hds
      (fun c _ hc => (hdigit _ c hc).1), Numeral.foldl_pushFraction]
    rfl

/-- The exponent of a number. -/
theorem feed_exponent {cs : List Char} {exponent? : Option (Bool × List Char)}
    (hcs : SpellsExponent cs exponent?) {phase : NumberPhase}
    (hphase : phase = .zero ∨ phase = .whole ∨ phase = .fraction) (negative : Bool)
    (whole fraction : List Char) (stack : List Frame) :
    ∃ next, Numeral.mayEnd next = true ∧
      feed rounding ⟨.number phase { negative, whole, fraction }, stack⟩ cs =
        ⟨.number next { negative, whole, fraction, exponent? }, stack⟩ := by
  have hmarked : ∀ mark, mark = 'e' ∨ mark = 'E' →
      Numeral.step phase { negative, whole, fraction } mark =
        .more .mark { negative, whole, fraction, exponent? := some (false, []) } := by
    rintro mark (rfl | rfl) <;> rcases hphase with rfl | rfl | rfl <;> rfl
  -- a digit has one effect in the three phases behind the mark
  have hdigit : ∀ (n : Numeral) (c : Char), c.isDigit = true →
      n.step .exponent c = .more .exponent (n.pushExponent c) ∧
      n.step .exponentSign c = .more .exponent (n.pushExponent c) ∧
        n.step .mark c = .more .exponent (n.pushExponent c) := by
    intro n c hc
    refine ⟨by rw [Numeral.step, if_pos hc], by rw [Numeral.step, if_pos hc], ?_⟩
    rw [Numeral.step, if_neg (ne_of_isDigit hc rfl), if_neg (ne_of_isDigit hc rfl), if_pos hc]
  have hdigits : ∀ {start}, start = .exponentSign ∨ start = .mark → ∀ {ds}, IsDigits ds → ∀ sign,
      feed rounding
          ⟨.number start { negative, whole, fraction, exponent? := some (sign, []) }, stack⟩ ds =
        ⟨.number .exponent { negative, whole, fraction, exponent? := some (sign, ds) },
          stack⟩ := by
    intro start hstart ds hds sign
    rw [feed_digitsOf _ (fun n c hc => (hdigit n c hc).1) stack _ hds, Numeral.foldl_pushExponent]
    · rfl
    · rcases hstart with rfl | rfl
      · exact fun c _ hc => (hdigit _ c hc).2.1
      · exact fun c _ hc => (hdigit _ c hc).2.2
  -- the spellings differ in what stands between the mark and the digits
  cases hcs with
  | none =>
    refine ⟨phase, ?_, rfl⟩
    rcases hphase with rfl | rfl | rfl <;> rfl
  | plain hmark hds =>
    refine ⟨.exponent, rfl, ?_⟩
    rw [feed_cons, step_number (hmarked _ hmark), hdigits (.inr rfl) hds]
  | plus hmark hds =>
    refine ⟨.exponent, rfl, ?_⟩
    rw [feed_cons, step_number (hmarked _ hmark), feed_cons, step_number rfl,
      hdigits (.inl rfl) hds]
  | minus hmark hds =>
    refine ⟨.exponent, rfl, ?_⟩
    rw [feed_cons, step_number (hmarked _ hmark), feed_cons, step_number rfl,
      hdigits (.inl rfl) hds]

/-- **A number is read** from its parts, although it ends only before the next character. -/
theorem holds_numeral {cs : List Char} {n : Numeral} (hcs : SpellsNumeral cs n) {mode : Mode}
    (hmode : awaitsValue mode = true) (stack : List Frame) :
    Holds rounding (.number (n.quantity? rounding)) stack (feed rounding ⟨mode, stack⟩ cs) := by
  obtain ⟨hwhole, hfraction, hexponent⟩ := hcs
  rename_i negative whole fractionText fraction exponentText exponent?
  -- a sign leads to where a number without one starts
  have hsign : ∀ rest, feed rounding ⟨mode, stack⟩ (signText negative ++ whole ++ rest) =
      feed rounding ⟨.number .sign { negative }, stack⟩ (whole ++ rest) := by
    intro rest
    obtain ⟨c, digits, rfl, hc⟩ := hwhole.exists_cons
    cases negative with
    | true =>
      rw [signText, if_pos rfl, List.singleton_append, List.cons_append, feed_cons,
        step_start hmode stack rfl (by decide)]
      rfl
    | false =>
      rw [signText, if_neg (by decide), List.nil_append, List.cons_append, feed_cons, feed_cons,
        step_digit hmode stack hc]
  -- each part leaves a phase from which the next one may go on
  obtain ⟨first, hfirst, hwhole⟩ := feed_whole hwhole negative stack
  obtain ⟨second, hsecond, hfraction⟩ := feed_fraction hfraction hfirst negative whole stack
  obtain ⟨last, hlast, hexponent⟩ := feed_exponent hexponent hsecond negative whole fraction stack
  rw [List.append_assoc, hsign, feed_append, hwhole, feed_append, hfraction, hexponent]
  exact holds_number hlast stack

/-! ## Values -/

theorem skipsBlank_complete (r : Reading) (stack : List Frame) :
    skipsBlank (complete r stack).mode = true := by
  rcases stack with _ | ⟨items | ⟨members, name?⟩, outer⟩ <;> rfl

/-- Blanks behind a value leave it as it is. -/
theorem Holds.feed_gap {r : Reading} {stack : List Frame} {s : Scan} (h : Holds rounding r stack s)
    {gap : List Char} (hgap : IsGap gap) : Holds rounding r stack (s.feed rounding gap) := by
  cases gap with
  | nil => exact h
  | cons c rest =>
    rw [h.feed (endsValue_of_isBlank (hgap c List.mem_cons_self)),
      feed_blanks (skipsBlank_complete r stack) hgap]
    exact holds_complete r stack

theorem skipsBlank_of_awaitsValue {mode : Mode} (hmode : awaitsValue mode = true) :
    skipsBlank mode = true := by
  cases mode with
  | value | firstItem | nextItem => rfl
  | _ => cases hmode

/-- What a name and its colon lead to. -/
theorem feed_spelledName {mode : Mode} (hmode : mode = .firstName ∨ mode = .nextName)
    {before cs : List Char} {name : String} (hbefore : IsGap before) (hcs : SpellsName cs name)
    (members : List (MemberName × Reading)) (name? : Option MemberName) (outer : List Frame) :
    feed rounding ⟨mode, .object members name? :: outer⟩ (before ++ cs) =
      ⟨.value, .object members (some (.ok name)) :: outer⟩ := by
  obtain ⟨hcs, hgap⟩ := hcs
  rename_i cs text gap
  have hblank : feed rounding ⟨mode, .object members name? :: outer⟩ before =
      ⟨mode, .object members name? :: outer⟩ := by
    refine feed_blanks ?_ hbefore
    rcases hmode with rfl | rfl <;> rfl
  have hopened : step rounding ⟨mode, .object members name? :: outer⟩ '"' =
      ⟨.name {}, .object members name? :: outer⟩ := by
    rcases hmode with rfl | rfl <;> rfl
  have hcontent : TextScan.name { chars := text.reverse } = .ok (String.ofList text) := by
    simp [TextScan.name, TextScan.content]
  have hname : feed rounding ⟨.name {}, .object members name? :: outer⟩ cs =
      ⟨.name { chars := text.reverse }, .object members name? :: outer⟩ := by
    refine feed_string (fun t c next hstep => ?_) (TextScan.feed?_text hcs)
    simp only [step, skipsBlank, Bool.false_and, Bool.false_eq_true, if_false, hstep]
  have hclosed : step rounding
      ⟨.name { chars := text.reverse }, .object members name? :: outer⟩ '"' =
      ⟨.colon, .object members (some (.ok (String.ofList text))) :: outer⟩ := by
    rw [← hcontent]
    rfl
  -- blanks, the first quote, the name, the last quote, blanks and the colon
  rw [feed_append, hblank, feed_cons, hopened, feed_append, hname, feed_cons, hclosed, feed_append,
    feed_blanks rfl hgap]
  rfl

/-- What the characters between the quotes of a string lead to. -/
theorem feed_spelledText {cs text : List Char} (hcs : SpellsText cs text) (stack : List Frame) :
    feed rounding ⟨.text {}, stack⟩ (cs ++ ['"']) =
      complete (.text (String.ofList text)) stack := by
  have hcontent : TextScan.value { chars := text.reverse } = .text (String.ofList text) := by
    simp [TextScan.value, TextScan.content]
  rw [feed_append, feed_string ?_ (TextScan.feed?_text hcs), ← hcontent]
  · rfl
  · intro t c next hstep
    simp only [step, skipsBlank, Bool.false_and, Bool.false_eq_true, if_false, hstep]

/-- **The items of an array have been read** behind its bracket: they are there when it ends, and
when another one follows. -/
structure ReadsItems (rounding : Rounding) (cs : List Char) (items : List Reading) : Prop where
  close : ∀ outer, feed rounding ⟨.firstItem, .array [] :: outer⟩ (cs ++ [']']) =
    complete (.array items none) outer
  comma : items ≠ [] → ∀ outer, feed rounding ⟨.firstItem, .array [] :: outer⟩ (cs ++ [',']) =
    ⟨.nextItem, .array items.reverse :: outer⟩

/-- **The members of an object have been read** behind its brace. -/
structure ReadsMembers (rounding : Rounding) (cs : List Char)
    (members : List (MemberName × Reading)) : Prop where
  close : ∀ outer, feed rounding ⟨.firstName, .object [] none :: outer⟩ (cs ++ ['\x7d']) =
    complete (.object members none) outer
  comma : members ≠ [] →
    ∀ outer, feed rounding ⟨.firstName, .object [] none :: outer⟩ (cs ++ [',']) =
      ⟨.nextName, .object members.reverse none :: outer⟩

mutual

/-- **A value is read** from what spells it, wherever it stands. -/
theorem holds_spelled : ∀ {cs : List Char} {r : Reading}, Spells rounding cs r →
    ∀ {mode : Mode}, awaitsValue mode = true → ∀ stack,
      Holds rounding r stack (feed rounding ⟨mode, stack⟩ cs)
  | _, _, .null => fun hmode _ => holds_of_feed hmode rfl rfl (by decide) rfl
  | _, _, .yes => fun hmode _ => holds_of_feed hmode rfl rfl (by decide) rfl
  | _, _, .no => fun hmode _ => holds_of_feed hmode rfl rfl (by decide) rfl
  | _, _, .number hcs => fun hmode stack => holds_numeral hcs hmode stack
  | _, _, .text hcs => fun hmode stack =>
    holds_of_feed hmode rfl rfl (by decide) (feed_spelledText hcs stack)
  | _, _, .array hcs => fun hmode stack =>
    holds_of_feed hmode rfl rfl (by decide) ((readsItems hcs).close stack)
  | _, _, .object hcs => fun hmode stack =>
    holds_of_feed hmode rfl rfl (by decide) ((readsMembers hcs).close stack)

/-- A value between blanks is read. -/
theorem holds_padded : ∀ {cs : List Char} {value : Spelled}, SpellsPadded rounding cs value →
    ∀ {mode : Mode}, awaitsValue mode = true → ∀ stack,
      Holds rounding value.reading stack (feed rounding ⟨mode, stack⟩ cs)
  | _, _, .padded hbefore hvalue hafter => fun hmode stack => by
    rw [feed_append, feed_append, feed_blanks (skipsBlank_of_awaitsValue hmode) hbefore]
    exact (holds_spelled hvalue hmode stack).feed_gap hafter

theorem readsItems : ∀ {cs : List Char} {items : List Reading}, SpellsItems rounding cs items →
    ReadsItems rounding cs items
  | _, _, .none hgap => by
    refine ⟨fun outer => ?_, fun hne => absurd rfl hne⟩
    rw [feed_append, feed_blanks rfl hgap]
    rfl
  | _, _, .one hitem => by
    have hread := fun outer => holds_padded hitem (rfl : awaitsValue .firstItem = true)
      (.array [] :: outer)
    refine ⟨fun outer => ?_, fun _ outer => ?_⟩
    · rw [feed_append]
      exact (hread outer).step _ rfl
    · rw [feed_append]
      exact (hread outer).step _ rfl
  | _, _, @SpellsItems.more _ cs item items value hcs hne hitem => by
    have hcomma := (readsItems hcs).comma hne
    have hread := fun outer => holds_padded hitem (rfl : awaitsValue .nextItem = true)
      (.array items.reverse :: outer)
    -- the comma completes the item before it, whether that was a number or not
    have hbehind : ∀ c outer, feed rounding ⟨.firstItem, .array [] :: outer⟩
        (cs ++ ',' :: item ++ [c]) =
          (feed rounding ⟨.nextItem, .array items.reverse :: outer⟩ item).step rounding c := by
      intro c outer
      rw [feed_append, List.append_cons, feed_append, hcomma]
      rfl
    refine ⟨fun outer => ?_, fun _ outer => ?_⟩
    · rw [hbehind, (hread outer).step _ rfl, ← List.reverse_reverse items, ← List.reverse_cons,
        List.reverse_reverse]
      rfl
    · rw [hbehind, (hread outer).step _ rfl, List.reverse_append]
      rfl

theorem readsMembers : ∀ {cs : List Char} {members : List (String × Spelled)},
    SpellsMembers rounding cs members → ReadsMembers rounding cs (readingsOf members)
  | _, _, .none hgap => by
    refine ⟨fun outer => ?_, fun hne => absurd rfl hne⟩
    rw [feed_append, feed_blanks rfl hgap]
    rfl
  | _, _, @SpellsMembers.one _ before nameText item name value hbefore hname hitem => by
    have hread := fun outer => holds_padded hitem (rfl : awaitsValue .value = true)
      (.object [] (some (.ok name)) :: outer)
    have hbehind : ∀ c outer, feed rounding ⟨.firstName, .object [] none :: outer⟩
        (before ++ (nameText ++ item) ++ [c]) =
          (feed rounding ⟨.value, .object [] (some (.ok name)) :: outer⟩ item).step rounding c := by
      intro c outer
      rw [← List.append_assoc before, feed_append, feed_append,
        feed_spelledName (.inl rfl) hbefore hname]
      rfl
    refine ⟨fun outer => ?_, fun _ outer => ?_⟩
    · rw [hbehind, (hread outer).step _ rfl]
      rfl
    · rw [hbehind, (hread outer).step _ rfl]
      rfl
  | _, _, @SpellsMembers.more _ cs before nameText item members name value hcs hne hbefore hname
      hitem => by
    -- the comma closes the members before, and the next name starts behind it
    have hcomma := (readsMembers hcs).comma (by simpa [readingsOf] using hne)
    have hread := fun outer => holds_padded hitem (rfl : awaitsValue .value = true)
      (.object (readingsOf members).reverse (some (.ok name)) :: outer)
    have hreadings : readingsOf (members ++ [(name, value)]) =
        readingsOf members ++ [(.ok name, value.reading)] := by
      simp [readingsOf]
    have hbehind : ∀ c outer, feed rounding ⟨.firstName, .object [] none :: outer⟩
        (cs ++ ',' :: (before ++ (nameText ++ item)) ++ [c]) =
          (feed rounding ⟨.value, .object (readingsOf members).reverse (some (.ok name)) :: outer⟩
            item).step rounding c := by
      intro c outer
      rw [feed_append, List.append_cons, feed_append, hcomma, ← List.append_assoc before,
        feed_append, feed_spelledName (.inr rfl) hbefore hname]
      rfl
    refine ⟨fun outer => ?_, fun _ outer => ?_⟩
    · rw [hbehind, (hread outer).step _ rfl, hreadings, ← List.reverse_reverse (readingsOf members),
        ← List.reverse_cons, List.reverse_reverse]
      rfl
    · rw [hbehind, (hread outer).step _ rfl, hreadings, List.reverse_append]
      rfl

end

end Scan

/-- **A text is read** as what it spells. -/
theorem Transcript.ofText_spelled {rounding : Rounding} {text : String} {value : Spelled}
    (h : SpellsPadded rounding text.toList value) :
    ofText rounding text = ⟨value.reading, none⟩ :=
  (Scan.holds_padded h (rfl : Scan.awaitsValue .value = true) []).finish

/-- What a value is read as is decided by its text. -/
theorem Spells.unique {rounding : Rounding} {cs : List Char} {r r' : Reading}
    (h : Spells rounding cs r) (h' : Spells rounding cs r') :
    r = r' := by
  have hmode : Scan.awaitsValue .value = Bool.true := rfl
  have hread := (Scan.holds_spelled h hmode []).finish
  have hread' := (Scan.holds_spelled h' hmode []).finish
  exact (Transcript.mk.inj (hread.symm.trans hread')).1

end CairoForge
