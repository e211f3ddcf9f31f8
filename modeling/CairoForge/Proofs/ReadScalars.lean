import CairoForge.Proofs.AcceptedJson

/-!
# Read numbers and strings

Where the reading of a number or a string stands is what its characters spell so far. One more
character keeps that true, unless the string turns out to hold a unit that stands for no character;
such a string is read to its end, but cannot be used.

## Main definitions

* `Numeral.Behind`, `TextScan.Behind` — the characters behind which the reading of a number or a
  string stands.
* `TextScan.Doomed` — a string that cannot be used.

## Main results

* `Numeral.Behind.step`, `TextScan.Behind.step` — one more character.
* `Numeral.Behind.spells`, `TextScan.Behind.closed` — the end of a number and of a string.
-/

namespace CairoForge

/-! ## Numbers -/

namespace Numeral

/-- **The characters behind which the reading of a number stands.** -/
inductive Behind : NumberPhase → Numeral → List Char → Prop
  | sign (negative : Bool) : Behind .sign { negative } (signText negative)
  | zero (negative : Bool) :
    Behind .zero { negative, whole := ['0'] } (signText negative ++ ['0'])
  | whole (negative : Bool) {ds : List Char} (hds : IsDigits ds) (hfirst : ds.head? ≠ some '0') :
    Behind .whole { negative, whole := ds } (signText negative ++ ds)
  | point (negative : Bool) {whole : List Char} (hwhole : IsWhole whole) :
    Behind .point { negative, whole } (signText negative ++ whole ++ ['.'])
  | fraction (negative : Bool) {whole fraction : List Char} (hwhole : IsWhole whole)
    (hds : IsDigits fraction) :
    Behind .fraction { negative, whole, fraction } (signText negative ++ whole ++ '.' :: fraction)
  | mark {cs : List Char} {n : Numeral} {c : Char} (hcs : SpellsNumeral cs n)
    (hnone : n.exponent? = none) (hmark : c = 'e' ∨ c = 'E') :
    Behind .mark { n with exponent? := some (false, []) } (cs ++ [c])
  | exponentSign {cs : List Char} {n : Numeral} {c sign : Char} (hcs : SpellsNumeral cs n)
    (hnone : n.exponent? = none) (hmark : c = 'e' ∨ c = 'E') (hsign : sign = '+' ∨ sign = '-') :
    Behind .exponentSign { n with exponent? := some (decide (sign = '-'), []) } (cs ++ [c, sign])
  | exponent {cs text ds : List Char} {n : Numeral} {negative : Bool} (hcs : SpellsNumeral cs n)
    (hnone : n.exponent? = none) (htext : SpellsExponent text (some (negative, ds))) :
    Behind .exponent { n with exponent? := some (negative, ds) } (cs ++ text)

/-- **A number is spelled** where it may end. -/
theorem Behind.spells {phase : NumberPhase} {n : Numeral} {cs : List Char} (h : Behind phase n cs)
    (hend : mayEnd phase = true) : SpellsNumeral cs n := by
  cases h with
  | zero negative =>
    simpa using @SpellsNumeral.parts negative _ _ _ _ _ (.inl rfl) .none .none
  | whole negative hds hfirst =>
    simpa using @SpellsNumeral.parts negative _ _ _ _ _ (.inr ⟨hds, hfirst⟩) .none .none
  | fraction negative hwhole hds =>
    simpa using @SpellsNumeral.parts negative _ _ _ _ _ hwhole (.digits hds) .none
  | exponent hcs hnone htext =>
    cases hcs with
    | parts hwhole hfraction hexponent =>
      obtain rfl := hnone
      cases hexponent
      simpa using SpellsNumeral.parts hwhole hfraction htext
  | sign | point | mark | exponentSign => cases hend

/-- A number goes on with a point behind its whole part, and with the mark of an exponent. -/
theorem Behind.stepOn {phase next : NumberPhase} {n after : Numeral} {cs : List Char}
    (h : Behind phase n cs) (hphase : phase = .zero ∨ phase = .whole ∨ phase = .fraction) {c : Char}
    (hpoint : phase = .fraction → c ≠ '.') (hstep : n.stepOn c = .more next after) :
    Behind next after (cs ++ [c]) := by
  have hspells := h.spells (by rcases hphase with rfl | rfl | rfl <;> rfl)
  have hnone : n.exponent? = none := by
    rcases hphase with rfl | rfl | rfl <;> cases h <;> rfl
  rw [Numeral.stepOn] at hstep
  split_ifs at hstep with hc hmark
  · obtain ⟨rfl, rfl⟩ := NumberStep.more.inj hstep
    subst hc
    cases h with
    | zero negative => exact .point negative (.inl rfl)
    | whole negative hds hfirst => exact .point negative (.inr ⟨hds, hfirst⟩)
    | fraction => exact absurd rfl (hpoint rfl)
    | sign | point | mark | exponentSign | exponent => simp at hphase
  · obtain ⟨rfl, rfl⟩ := NumberStep.more.inj hstep
    exact .mark hspells hnone hmark

/-- **One more character of a number.** -/
theorem Behind.step {phase next : NumberPhase} {n after : Numeral} {cs : List Char}
    (h : Behind phase n cs) {c : Char} (hstep : n.step phase c = .more next after) :
    Behind next after (cs ++ [c]) := by
  -- a digit goes on with the part it stands in, any other character opens the next part
  cases phase with
  | sign =>
    rw [Numeral.step] at hstep
    cases h with
    | sign negative =>
      split_ifs at hstep with hzero hdigit
      · obtain ⟨rfl, rfl⟩ := NumberStep.more.inj hstep
        subst hzero
        exact .zero negative
      · obtain ⟨rfl, rfl⟩ := NumberStep.more.inj hstep
        exact .whole negative (IsDigits.singleton hdigit) (by simpa using hzero)
  | zero =>
    rw [Numeral.step] at hstep
    split_ifs at hstep
    exact h.stepOn (.inl rfl) (by simp) hstep
  | whole =>
    rw [Numeral.step] at hstep
    split_ifs at hstep with hdigit
    · obtain ⟨rfl, rfl⟩ := NumberStep.more.inj hstep
      cases h with
      | @whole negative ds hds hfirst =>
        obtain ⟨first, rest, rfl⟩ := List.exists_cons_of_ne_nil hds.1
        simpa [pushWhole] using Behind.whole negative (hds.snoc hdigit) hfirst
    · exact h.stepOn (.inr (.inl rfl)) (by simp) hstep
  | point =>
    rw [Numeral.step] at hstep
    split_ifs at hstep with hdigit
    obtain ⟨rfl, rfl⟩ := NumberStep.more.inj hstep
    cases h with
    | point negative hwhole =>
      simpa [pushFraction] using Behind.fraction negative hwhole (IsDigits.singleton hdigit)
  | fraction =>
    rw [Numeral.step] at hstep
    split_ifs at hstep with hdigit hpoint
    · obtain ⟨rfl, rfl⟩ := NumberStep.more.inj hstep
      cases h with
      | fraction negative hwhole hds =>
        simpa [pushFraction] using Behind.fraction negative hwhole (hds.snoc hdigit)
    · exact h.stepOn (.inr (.inr rfl)) (fun _ => hpoint) hstep
  | mark =>
    rw [Numeral.step] at hstep
    cases h with
    | @mark cs n mark hcs hnone hmark =>
      split_ifs at hstep with hplus hminus hdigit
      · obtain ⟨rfl, rfl⟩ := NumberStep.more.inj hstep
        subst hplus
        simpa using Behind.exponentSign hcs hnone hmark (.inl rfl)
      · obtain ⟨rfl, rfl⟩ := NumberStep.more.inj hstep
        subst hminus
        simpa using Behind.exponentSign hcs hnone hmark (.inr rfl)
      · obtain ⟨rfl, rfl⟩ := NumberStep.more.inj hstep
        simpa [pushExponent] using
          Behind.exponent hcs hnone (.plain hmark (IsDigits.singleton hdigit))
  | exponentSign =>
    rw [Numeral.step] at hstep
    split_ifs at hstep with hdigit
    obtain ⟨rfl, rfl⟩ := NumberStep.more.inj hstep
    cases h with
    | exponentSign hcs hnone hmark hsign =>
      rcases hsign with rfl | rfl
      · simpa [pushExponent] using
          Behind.exponent hcs hnone (.plus hmark (IsDigits.singleton hdigit))
      · simpa [pushExponent] using
          Behind.exponent hcs hnone (.minus hmark (IsDigits.singleton hdigit))
  | exponent =>
    rw [Numeral.step] at hstep
    split_ifs at hstep with hdigit
    obtain ⟨rfl, rfl⟩ := NumberStep.more.inj hstep
    cases h with
    | exponent hcs hnone htext =>
      simpa [pushExponent] using Behind.exponent hcs hnone (htext.snoc hdigit)

end Numeral

/-! ## Strings -/

namespace TextScan

/-- What stands before the digits of a unit: the text so far, or a first unit as well. -/
inductive Opens : List Char → List Char → Option Nat → Prop
  | first {cs text : List Char} (hcs : SpellsText cs text) : Opens (cs ++ ['\\', 'u']) text none
  | second {cs text ds : List Char} {high : Nat} (hcs : SpellsText cs text)
    (hds : SpellsUnit ds high) (hhigh : isHigh high = true) :
    Opens (cs ++ ('\\' :: 'u' :: (ds ++ ['\\', 'u']))) text (some high)

/-- **The characters behind which the reading of a string stands**, as long as they spell one. -/
inductive Behind : TextScan → List Char → Prop
  | plain {cs text : List Char} (hcs : SpellsText cs text) : Behind ⟨text.reverse, .plain, none⟩ cs
  | backslash {cs text : List Char} (hcs : SpellsText cs text) :
    Behind ⟨text.reverse, .backslash, none⟩ (cs ++ ['\\'])
  | hex {cs text ds : List Char} {high? : Option Nat} {value : Nat} (hcs : Opens cs text high?)
    (hlength : ds.length < 4) (hds : hexNumber? ds = some value) :
    Behind ⟨text.reverse, .hex ds.length (some value) high?, none⟩ (cs ++ ds)
  | pairBackslash {cs text ds : List Char} {high : Nat} (hcs : SpellsText cs text)
    (hds : SpellsUnit ds high) (hhigh : isHigh high = true) :
    Behind ⟨text.reverse, .pairBackslash high, none⟩ (cs ++ '\\' :: 'u' :: ds)
  | pairLetter {cs text ds : List Char} {high : Nat} (hcs : SpellsText cs text)
    (hds : SpellsUnit ds high) (hhigh : isHigh high = true) :
    Behind ⟨text.reverse, .pairLetter high, none⟩ (cs ++ '\\' :: 'u' :: (ds ++ ['\\']))

/-- The string cannot be used: it has a flaw, or is about to break. -/
def Doomed (t : TextScan) : Prop :=
  t.flaw? ≠ none ∨ ∃ bytes high?, t.escape = .hex bytes none high?

theorem Behind.step_plain {cs text : List Char} (h : SpellsText cs text) {c : Char}
    {next : TextScan} (hstep : stepPlain ⟨text.reverse, .plain, none⟩ c = .more next) :
    Behind next (cs ++ [c]) := by
  rw [stepPlain] at hstep
  split_ifs at hstep with hquote hbackslash hcontrol
  · obtain rfl := TextStep.more.inj hstep
    subst hbackslash
    exact .backslash h
  · obtain rfl := TextStep.more.inj hstep
    have hnext := Behind.plain (h.snoc (.plain hquote hbackslash (Nat.not_lt.mp hcontrol)))
    rwa [List.reverse_append] at hnext

theorem Behind.step_backslash {cs text : List Char} (h : SpellsText cs text) {c : Char}
    {next : TextScan} (hstep : stepBackslash ⟨text.reverse, .backslash, none⟩ c = .more next) :
    Behind next (cs ++ ['\\'] ++ [c]) := by
  have hshort : ∀ {d}, (c, d) ∈ shortEscapes →
      Behind (push ⟨text.reverse, .backslash, none⟩ d) (cs ++ ['\\'] ++ [c]) := by
    intro d hd
    have hnext := Behind.plain (h.snoc (.short hd))
    rw [List.reverse_append] at hnext
    simpa [push] using hnext
  unfold stepBackslash at hstep
  split at hstep
  all_goals try obtain rfl := TextStep.more.inj hstep
  iterate 8 exact hshort (by decide)
  · have hshort : ([] : List Char).length < 4 := by decide
    simpa using Behind.hex (.first h) hshort rfl
  · cases hstep

theorem hexNumber?_snoc {ds : List Char} {value d : Nat} (hds : hexNumber? ds = some value)
    {c : Char} (hd : hexValue? c = some d) : hexNumber? (ds ++ [c]) = some (16 * value + d) := by
  rw [hexNumber?] at hds
  simp [hexNumber?, List.foldlM_append, hds, hd]

/-- A unit behind its last digit. -/
theorem Behind.unit {cs text ds : List Char} {high? : Option Nat} {value : Nat}
    (hcs : Opens cs text high?) (hds : SpellsUnit ds value) {escape : EscapeState} :
    Behind (TextScan.unit ⟨text.reverse, escape, none⟩ value high?) (cs ++ ds) ∨
      Doomed (TextScan.unit ⟨text.reverse, escape, none⟩ value high?) := by
  have hpush : ∀ {spelled : List Char} {c : Char}, SpellsText spelled (text ++ [c]) →
      Behind (push ⟨text.reverse, escape, none⟩ c) spelled := by
    intro spelled c h
    simpa [push] using Behind.plain h
  -- half of a pair waits for its other half; a half that cannot have one is a flaw
  cases hcs with
  | first hcs =>
    unfold TextScan.unit
    dsimp only
    split_ifs with hhigh hlow
    · exact .inl (by simpa using Behind.pairBackslash hcs hds hhigh)
    · exact .inr (.inl (by simp [flawed]))
    · refine .inl (hpush ?_)
      simpa using hcs.snoc (.unit hds (by simpa using hhigh) (by simpa using hlow))
  | second hcs hhighs hhigh =>
    unfold TextScan.unit
    dsimp only
    split_ifs with hlow
    · refine .inl (hpush ?_)
      simpa using hcs.snoc (.pair hhighs hhigh hds hlow)
    · exact .inr (.inl (by simp [flawed]))

/-- A flaw stays. -/
theorem flaw?_of_stepPlain {t next : TextScan} {c : Char} (h : t.stepPlain c = .more next) :
    next.flaw? = t.flaw? := by
  unfold stepPlain at h
  split_ifs at h <;> obtain rfl := TextStep.more.inj h <;> rfl

theorem flaw?_of_stepBackslash {t next : TextScan} {c : Char} (h : t.stepBackslash c = .more next) :
    next.flaw? = t.flaw? := by
  unfold stepBackslash at h
  split at h <;> first | (obtain rfl := TextStep.more.inj h; rfl) | cases h

/-- **One more character of a string.** -/
theorem Behind.step {t next : TextScan} {cs : List Char} (h : Behind t cs) {c : Char}
    (hstep : t.step c = .more next) : Behind next (cs ++ [c]) ∨ Doomed next := by
  cases h with
  | plain hcs => exact .inl (.step_plain hcs hstep)
  | backslash hcs => exact .inl (.step_backslash hcs hstep)
  | @hex cs text ds high? value hcs hlength hds =>
    simp only [TextScan.step, Option.bind_some] at hstep
    cases hd : hexValue? c with
    | none =>
      -- the escape will be refused at its last character
      rw [hd, Option.map_none] at hstep
      split_ifs at hstep
      · obtain rfl := TextStep.more.inj hstep
        exact .inr (.inr ⟨_, _, rfl⟩)
    | some d =>
      have hvalue := hexNumber?_snoc hds hd
      have hlast : (ds ++ [c]).length = ds.length + 1 := by simp
      rw [hd, Option.map_some, utf8Size_of_hexValue? hd] at hstep
      rw [List.append_assoc]
      split_ifs at hstep with hmore
      · obtain rfl := TextStep.more.inj hstep
        rw [← hlast]
        exact .inl (.hex hcs (hlast ▸ hmore) hvalue)
      · obtain rfl := TextStep.more.inj hstep
        exact Behind.unit hcs ⟨by omega, hvalue⟩
  -- anything but the start of a second unit leaves the first one alone, which is a flaw
  | pairBackslash hcs hds hhigh =>
    simp only [TextScan.step] at hstep
    split_ifs at hstep with hc
    · obtain rfl := TextStep.more.inj hstep
      subst hc
      exact .inl (by simpa using Behind.pairLetter hcs hds hhigh)
    · refine .inr (.inl ?_)
      rw [flaw?_of_stepPlain hstep]
      simp [flawed]
  | pairLetter hcs hds hhigh =>
    simp only [TextScan.step] at hstep
    split_ifs at hstep with hc
    · obtain rfl := TextStep.more.inj hstep
      subst hc
      have hshort : ([] : List Char).length < 4 := by decide
      exact .inl (by simpa using Behind.hex (.second hcs hds hhigh) hshort rfl)
    · refine .inr (.inl ?_)
      rw [flaw?_of_stepBackslash hstep]
      simp [flawed]

theorem flaw?_unit_ne_none {t : TextScan} (h : t.flaw? ≠ none) (value : Nat) (high? : Option Nat) :
    (t.unit value high?).flaw? ≠ none := by
  cases high? with
  | none => unfold TextScan.unit; dsimp only; split_ifs <;> simp [push, flawed, h]
  | some high => unfold TextScan.unit; dsimp only; split_ifs <;> simp [push, flawed, h]

/-- A string that cannot be used stays so. -/
theorem Doomed.step {t next : TextScan} (h : Doomed t) {c : Char} (hstep : t.step c = .more next) :
    Doomed next := by
  unfold TextScan.step at hstep
  split at hstep
  · next hescape =>
    refine .inl (flaw?_of_stepPlain hstep ▸ h.resolve_right ?_)
    simp [hescape]
  · next hescape =>
    refine .inl (flaw?_of_stepBackslash hstep ▸ h.resolve_right ?_)
    simp [hescape]
  · next bytes value? high? hescape =>
    -- a flaw stays, and an escape without a value gets none from more digits
    rcases h with hflaw | ⟨_, _, hnone⟩
    · dsimp only at hstep
      split_ifs at hstep
      · obtain rfl := TextStep.more.inj hstep
        exact .inl hflaw
      · split at hstep
        · obtain rfl := TextStep.more.inj hstep
          exact .inl (flaw?_unit_ne_none hflaw _ _)
        · cases hstep
    · obtain ⟨rfl, rfl, rfl⟩ := EscapeState.hex.inj (hescape.symm.trans hnone)
      rw [Option.bind_none] at hstep
      dsimp only at hstep
      split_ifs at hstep
      · obtain rfl := TextStep.more.inj hstep
        exact .inr ⟨_, _, rfl⟩
  · next high hescape =>
    split_ifs at hstep
    · obtain rfl := TextStep.more.inj hstep
      exact .inl (h.resolve_right (by simp [hescape]))
    · refine .inl ?_
      rw [flaw?_of_stepPlain hstep]
      simp [flawed]
  · next high hescape =>
    split_ifs at hstep
    · obtain rfl := TextStep.more.inj hstep
      exact .inl (h.resolve_right (by simp [hescape]))
    · refine .inl ?_
      rw [flaw?_of_stepBackslash hstep]
      simp [flawed]

theorem stepPlain_eq_closed_iff {t last : TextScan} {c : Char} :
    t.stepPlain c = .closed last ↔ c = '"' ∧ last = t := by
  unfold stepPlain
  split_ifs with hquote <;> simp [hquote, eq_comm]

theorem stepBackslash_ne_closed {t last : TextScan} {c : Char} :
    t.stepBackslash c ≠ .closed last := by
  unfold stepBackslash
  split <;> simp

/-- **A string is closed** between escapes, or behind a unit that is missing its second half. -/
theorem closed_of_step {t last : TextScan} {c : Char} (hstep : t.step c = .closed last) :
    c = '"' ∧ (t.escape = .plain ∧ last = t ∨ last.flaw? ≠ none) := by
  unfold TextScan.step at hstep
  split at hstep
  · next hescape =>
    obtain ⟨rfl, rfl⟩ := stepPlain_eq_closed_iff.mp hstep
    exact ⟨rfl, .inl ⟨hescape, rfl⟩⟩
  · exact absurd hstep stepBackslash_ne_closed
  · dsimp only at hstep
    split_ifs at hstep
    split at hstep <;> cases hstep
  · split_ifs at hstep
    obtain ⟨rfl, rfl⟩ := stepPlain_eq_closed_iff.mp hstep
    exact ⟨rfl, .inr (by simp [flawed])⟩
  · split_ifs at hstep
    exact absurd hstep stepBackslash_ne_closed

/-- **The closing quote of a string.** -/
theorem Behind.closed {t last : TextScan} {cs : List Char} (h : Behind t cs) {c : Char}
    (hstep : t.step c = .closed last) :
    (∃ text, SpellsText cs text ∧ last = ⟨text.reverse, .plain, none⟩) ∨ last.flaw? ≠ none := by
  rcases (closed_of_step hstep).2 with ⟨hplain, rfl⟩ | hflaw
  · cases h with
    | plain hcs => exact .inl ⟨_, hcs, rfl⟩
    | backslash | hex | pairBackslash | pairLetter => cases hplain
  · exact .inr hflaw

theorem Doomed.closed {t last : TextScan} (h : Doomed t) {c : Char}
    (hstep : t.step c = .closed last) : last.flaw? ≠ none := by
  rcases (closed_of_step hstep).2 with ⟨hplain, rfl⟩ | hflaw
  · exact h.resolve_right (by simp [hplain])
  · exact hflaw

end TextScan

end CairoForge
