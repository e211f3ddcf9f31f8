import CairoForge.Proofs.SpoiledReadings

/-!
# Read JSON

What the reader takes for JSON is JSON: a text that is read without a fault, and whose value can be
kept, is spelled by the grammar. Where reading stands is described by what the characters read so
far spell, up to the containers that are open; one more character keeps that true, or spoils what
is read.

## Main definitions

* `Awaits`, `AwaitsName` — the characters behind which a value or a name is to stand.
* `Scan.Behind` — the characters behind which reading stands.

## Main results

* `Scan.Behind.step` — one more character.
* `Scan.Leads.feed` — all characters of a text.
* `Transcript.spelled_of_ofText` — what is read without a fault is spelled by the text.
-/

namespace CairoForge

/-! ## Containers -/

section

variable (rounding : Rounding)

mutual

/-- **The characters behind which a value is to stand**, given what is open around it. -/
inductive Awaits : List Frame → List Char → Prop
  | root {gap : List Char} (hgap : IsGap gap) : Awaits [] gap
  | firstItem {outer : List Frame} {cs gap : List Char} (houter : Awaits outer cs)
    (hgap : IsGap gap) : Awaits (.array [] :: outer) (cs ++ '[' :: gap)
  | nextItem {outer : List Frame} {cs content gap : List Char} {items : List Reading}
    (houter : Awaits outer cs) (hitems : SpellsItems rounding content items) (hne : items ≠ [])
    (hgap : IsGap gap) :
    Awaits (.array items.reverse :: outer) (cs ++ '[' :: (content ++ ',' :: gap))
  | member {outer : List Frame} {cs nameText gap : List Char} {members : List (String × Spelled)}
    {name : String} (hmembers : AwaitsName members outer cs) (hname : SpellsName nameText name)
    (hgap : IsGap gap) :
    Awaits (.object (readingsOf members).reverse (some (.ok name)) :: outer)
      (cs ++ (nameText ++ gap))

/-- The characters behind which a name is to stand, given the members before it. -/
inductive AwaitsName : List (String × Spelled) → List Frame → List Char → Prop
  | first {outer : List Frame} {cs gap : List Char} (houter : Awaits outer cs) (hgap : IsGap gap) :
    AwaitsName [] outer (cs ++ '\x7b' :: gap)
  | next {outer : List Frame} {cs content gap : List Char} {members : List (String × Spelled)}
    (houter : Awaits outer cs) (hmembers : SpellsMembers rounding content members)
    (hne : members ≠ []) (hgap : IsGap gap) :
    AwaitsName members outer (cs ++ '\x7b' :: (content ++ ',' :: gap))

end

/-- **The characters behind which reading stands**, as long as they can be kept. -/
inductive Scan.Behind : Scan → List Char → Prop
  | value {stack : List Frame} {cs : List Char} (h : Awaits rounding stack cs) :
    Behind ⟨.value, stack⟩ cs
  | firstItem {outer : List Frame} {cs gap : List Char} (houter : Awaits rounding outer cs)
    (hgap : IsGap gap) : Behind ⟨.firstItem, .array [] :: outer⟩ (cs ++ '[' :: gap)
  | nextItem {stack : List Frame} {cs : List Char} (h : Awaits rounding stack cs) :
    Behind ⟨.nextItem, stack⟩ cs
  | firstName {outer : List Frame} {cs gap : List Char} (houter : Awaits rounding outer cs)
    (hgap : IsGap gap) : Behind ⟨.firstName, .object [] none :: outer⟩ (cs ++ '\x7b' :: gap)
  | nextName {outer : List Frame} {cs : List Char} {members : List (String × Spelled)}
    (h : AwaitsName rounding members outer cs) :
    Behind ⟨.nextName, .object (readingsOf members).reverse none :: outer⟩ cs
  | items {outer : List Frame} {cs content : List Char} {items : List Reading}
    (houter : Awaits rounding outer cs) (hitems : SpellsItems rounding content items)
    (hne : items ≠ []) :
    Behind ⟨.separator, .array items.reverse :: outer⟩ (cs ++ '[' :: content)
  | members {outer : List Frame} {cs content : List Char} {members : List (String × Spelled)}
    (houter : Awaits rounding outer cs) (hmembers : SpellsMembers rounding content members)
    (hne : members ≠ []) :
    Behind ⟨.separator, .object (readingsOf members).reverse none :: outer⟩
      (cs ++ '\x7b' :: content)
  | name {outer : List Frame} {cs part : List Char} {members : List (String × Spelled)}
    {t : TextScan} (h : AwaitsName rounding members outer cs) (ht : t.Behind part) :
    Behind ⟨.name t, .object (readingsOf members).reverse none :: outer⟩ (cs ++ '"' :: part)
  | colon {outer : List Frame} {cs part text gap : List Char} {members : List (String × Spelled)}
    (h : AwaitsName rounding members outer cs) (htext : SpellsText part text) (hgap : IsGap gap) :
    Behind ⟨.colon,
        .object (readingsOf members).reverse (some (.ok (String.ofList text))) :: outer⟩
      (cs ++ '"' :: (part ++ '"' :: gap))
  | text {stack : List Frame} {cs part : List Char} {t : TextScan} (h : Awaits rounding stack cs)
    (ht : t.Behind part) : Behind ⟨.text t, stack⟩ (cs ++ '"' :: part)
  | number {stack : List Frame} {cs part : List Char} {phase : NumberPhase} {n : Numeral}
    (h : Awaits rounding stack cs) (hn : Numeral.Behind phase n part) :
    Behind ⟨.number phase n, stack⟩ (cs ++ part)
  | word {stack : List Frame} {cs part rest : List Char} {next : Char} {r : Reading}
    (h : Awaits rounding stack cs) (hword : Spells rounding (part ++ next :: rest) r) :
    Behind ⟨.word next rest r, stack⟩ (cs ++ part)
  | ended {cs value : List Char} {r : Reading} (h : SpellsPadded rounding cs ⟨value, r⟩) :
    Behind ⟨.ended ⟨r, none⟩, []⟩ cs

end

variable {rounding : Rounding}

/-! ## Blanks -/

theorem Awaits.blank {stack : List Frame} {cs : List Char} (h : Awaits rounding stack cs) {c : Char}
    (hc : Scan.isBlank c = true) : Awaits rounding stack (cs ++ [c]) := by
  cases h with
  | root hgap => exact .root (hgap.append (.singleton hc))
  | firstItem houter hgap => simpa using Awaits.firstItem houter (hgap.append (.singleton hc))
  | nextItem houter hitems hne hgap =>
    simpa using Awaits.nextItem houter hitems hne (hgap.append (.singleton hc))
  | member hmembers hname hgap =>
    simpa using Awaits.member hmembers hname (hgap.append (.singleton hc))

theorem AwaitsName.blank {members : List (String × Spelled)} {outer : List Frame} {cs : List Char}
    (h : AwaitsName rounding members outer cs) {c : Char} (hc : Scan.isBlank c = true) :
    AwaitsName rounding members outer (cs ++ [c]) := by
  cases h with
  | first houter hgap => simpa using AwaitsName.first houter (hgap.append (.singleton hc))
  | next houter hmembers hne hgap =>
    simpa using AwaitsName.next houter hmembers hne (hgap.append (.singleton hc))

namespace Scan

/-! ## One more character -/

/-- A blank that is passed over. -/
theorem Behind.blank {s : Scan} {cs : List Char} (h : s.Behind rounding cs)
    (hskips : skipsBlank s.mode = true) {c : Char} (hc : isBlank c = true) :
    s.Behind rounding (cs ++ [c]) := by
  cases h with
  | value h => exact .value (h.blank hc)
  | firstItem houter hgap => simpa using Behind.firstItem houter (hgap.append (.singleton hc))
  | nextItem h => exact .nextItem (h.blank hc)
  | firstName houter hgap => simpa using Behind.firstName houter (hgap.append (.singleton hc))
  | nextName h => exact .nextName (h.blank hc)
  | items houter hitems hne => simpa using Behind.items houter (hitems.gap (.singleton hc)) hne
  | members houter hmembers hne =>
    simpa using Behind.members houter (hmembers.gap (.singleton hc)) hne
  | colon h htext hgap => simpa using Behind.colon h htext (hgap.append (.singleton hc))
  | ended h => exact .ended (h.gap (.singleton hc))
  | name | text | number | word => cases hskips

/-- **A value that is complete** joins what is open around it. -/
theorem Behind.complete {stack : List Frame} {cs value : List Char} {r : Reading}
    (h : Awaits rounding stack cs) (hvalue : Spells rounding value r) :
    (complete r stack).Behind rounding (cs ++ value) := by
  have hpadded : ∀ {gap}, IsGap gap → SpellsPadded rounding (gap ++ value) ⟨value, r⟩ := by
    intro gap hgap
    simpa using SpellsPadded.padded hgap hvalue IsGap.nil
  -- the value joins the frame that waits for it
  cases h with
  | root hgap => exact .ended (hpadded hgap)
  | firstItem houter hgap =>
    simpa [Scan.complete] using Behind.items houter (.one (hpadded hgap)) (List.cons_ne_nil _ _)
  | @nextItem outer _ content gap items houter hitems hne hgap =>
    have hnext := Behind.items houter (.more hitems hne (hpadded hgap)) (by simp)
    simpa [Scan.complete] using hnext
  | member hmembers hname hgap =>
    cases hmembers with
    | first houter hbefore =>
      have hnext := Behind.members houter (.one hbefore hname (hpadded hgap)) (List.cons_ne_nil _ _)
      simpa [Scan.complete, readingsOf] using hnext
    | next houter hmembers hne hbefore =>
      have hmore := SpellsMembers.more hmembers hne hbefore hname (hpadded hgap)
      have hnext := Behind.members houter hmore (by simp)
      simpa [Scan.complete, readingsOf] using hnext

/-- Reading has come to the end of the characters, or to something that cannot be kept. -/
def Leads (rounding : Rounding) (s : Scan) (cs : List Char) : Prop :=
  s.Behind rounding cs ∨ s.IsSpoiled

/-- The first character of a value. -/
theorem leads_stepValue {stack : List Frame} {cs : List Char} (h : Awaits rounding stack cs)
    (c : Char) : (stepValue stack c).Leads rounding (cs ++ [c]) := by
  unfold stepValue
  split
  · exact .inl (.word h .null)
  · exact .inl (.word h .yes)
  · exact .inl (.word h .no)
  · exact .inl (.number h (.sign true))
  · exact .inl (.text h (.plain .nil))
  · exact .inl (.firstItem h IsGap.nil)
  · exact .inl (.firstName h IsGap.nil)
  · split
    · next hstep => exact .inl (.number h ((Numeral.Behind.sign false).step hstep))
    · exact .inr (isSpoiled_faultInValue _ _)

/-- The first character of a name. -/
theorem leads_stepName {outer : List Frame} {cs : List Char} {members : List (String × Spelled)}
    (h : AwaitsName rounding members outer cs) (c : Char) :
    (stepName (.object (readingsOf members).reverse none :: outer) c).Leads rounding
      (cs ++ [c]) := by
  rw [stepName]
  split_ifs with hc
  · subst hc
    exact .inl (.name h (.plain .nil))
  · exact .inr (isSpoiled_faultBetween _ _)

/-- A character behind items. -/
theorem leads_stepSeparator_items {outer : List Frame} {cs content : List Char}
    {items : List Reading} (houter : Awaits rounding outer cs)
    (hitems : SpellsItems rounding content items) (hne : items ≠ []) (c : Char) :
    (stepSeparator (.array items.reverse :: outer) c).Leads rounding
      (cs ++ '[' :: content ++ [c]) := by
  unfold stepSeparator
  dsimp only
  split_ifs with hcomma hclose
  · subst hcomma
    exact .inl (by simpa using Behind.nextItem (.nextItem houter hitems hne IsGap.nil))
  · subst hclose
    exact .inl (by simpa using Behind.complete houter (.array hitems))
  · exact .inr (isSpoiled_faultBetween _ _)

/-- A character behind members. -/
theorem leads_stepSeparator_members {outer : List Frame} {cs content : List Char}
    {members : List (String × Spelled)} (houter : Awaits rounding outer cs)
    (hmembers : SpellsMembers rounding content members) (hne : members ≠ []) (c : Char) :
    (stepSeparator (.object (readingsOf members).reverse none :: outer) c).Leads rounding
      (cs ++ '\x7b' :: content ++ [c]) := by
  unfold stepSeparator
  dsimp only
  split_ifs with hcomma hclose
  · subst hcomma
    exact .inl (by simpa using Behind.nextName (.next houter hmembers hne IsGap.nil))
  · subst hclose
    exact .inl (by simpa using Behind.complete houter (.object hmembers))
  · exact .inr (isSpoiled_faultBetween _ _)

/-- A character behind a value. -/
theorem leads_stepBehind {s : Scan} {cs : List Char} (h : s.Behind rounding cs)
    (hmode : s.mode = .separator ∨ ∃ t, s.mode = .ended t) (c : Char) :
    (s.stepBehind c).Leads rounding (cs ++ [c]) := by
  have hpassed : isBlank c = true → skipsBlank s.mode = true → s.stepBehind c = s →
      (s.stepBehind c).Leads rounding (cs ++ [c]) := by
    intro hblank hskips hsame
    rw [hsame]
    exact .inl (h.blank hskips hblank)
  -- blanks are passed over; anything else has to separate or to end
  by_cases hblank : isBlank c = true
  · cases h with
    | items => exact hpassed hblank rfl (by simp [stepBehind, hblank])
    | members => exact hpassed hblank rfl (by simp [stepBehind, hblank])
    | ended => exact hpassed hblank rfl (by simp [stepBehind, hblank])
    | _ => simp at hmode
  · cases h with
    | items houter hitems hne =>
      simpa [stepBehind, hblank] using leads_stepSeparator_items houter hitems hne c
    | members houter hmembers hne =>
      simpa [stepBehind, hblank] using leads_stepSeparator_members houter hmembers hne c
    | ended h => exact .inr (by simp [stepBehind, hblank, IsSpoiled])
    | _ => simp at hmode

theorem mode_complete (r : Reading) (stack : List Frame) :
    (complete r stack).mode = .separator ∨ ∃ t, (complete r stack).mode = .ended t := by
  rcases stack with _ | ⟨items | ⟨members, name?⟩, outer⟩
  · exact .inr ⟨_, rfl⟩
  · exact .inl rfl
  · exact .inl rfl

/-- A number that has ended might have ended where it stood. -/
theorem mayEnd_of_ended {phase : NumberPhase} {n : Numeral} {c : Char}
    (h : n.step phase c = .ended) : Numeral.mayEnd phase = true := by
  cases phase with
  | zero | whole | fraction | exponent => rfl
  | sign | point | mark | exponentSign =>
    rw [Numeral.step] at h
    split_ifs at h

/-- A character of a name. -/
theorem leads_step_name {outer : List Frame} {cs part : List Char}
    {members : List (String × Spelled)} {t : TextScan} (h : AwaitsName rounding members outer cs)
    (ht : t.Behind part) (c : Char) :
    (Scan.step rounding ⟨.name t, .object (readingsOf members).reverse none :: outer⟩ c).Leads
      rounding (cs ++ '"' :: part ++ [c]) := by
  simp only [Scan.step, skipsBlank, Bool.false_and, Bool.false_eq_true, if_false]
  split
  · next next hstep =>
    rcases ht.step hstep with hnext | hnext
    · exact .inl (by simpa using Behind.name h hnext)
    · exact .inr (.inl hnext)
  · next last hstep =>
    obtain ⟨rfl, -⟩ := TextScan.closed_of_step hstep
    rcases ht.closed hstep with ⟨text, htext, rfl⟩ | hflaw
    · have hname : TextScan.name ⟨text.reverse, .plain, none⟩ = .ok (String.ofList text) := by
        simp [TextScan.name, TextScan.content]
      rw [hname]
      exact .inl (by simpa [closeName] using Behind.colon h htext IsGap.nil)
    · exact .inr (isSpoiled_closeName (.inl (name_eq_error hflaw)))
  · exact .inr (isSpoiled_faultBetween _ _)

/-- A character of a string. -/
theorem leads_step_text {stack : List Frame} {cs part : List Char} {t : TextScan}
    (h : Awaits rounding stack cs) (ht : t.Behind part) (c : Char) :
    (Scan.step rounding ⟨.text t, stack⟩ c).Leads rounding (cs ++ '"' :: part ++ [c]) := by
  simp only [Scan.step, skipsBlank, Bool.false_and, Bool.false_eq_true, if_false]
  split
  · next next hstep =>
    rcases ht.step hstep with hnext | hnext
    · exact .inl (by simpa using Behind.text h hnext)
    · exact .inr (.inl hnext)
  · next last hstep =>
    obtain ⟨rfl, -⟩ := TextScan.closed_of_step hstep
    rcases ht.closed hstep with ⟨text, htext, rfl⟩ | hflaw
    · have hvalue : TextScan.value ⟨text.reverse, .plain, none⟩ = .text (String.ofList text) := by
        simp [TextScan.value, TextScan.content]
      rw [hvalue]
      exact .inl (by simpa using Behind.complete h (.text htext))
    · exact .inr (isSpoiled_complete (.inl (unkept_value hflaw)))
  · exact .inr (isSpoiled_faultInValue _ _)

/-- A character of a number, or the one behind it. -/
theorem leads_step_number {stack : List Frame} {cs part : List Char} {phase : NumberPhase}
    {n : Numeral} (h : Awaits rounding stack cs) (hn : Numeral.Behind phase n part) (c : Char) :
    (Scan.step rounding ⟨.number phase n, stack⟩ c).Leads rounding (cs ++ part ++ [c]) := by
  simp only [Scan.step, skipsBlank, Bool.false_and, Bool.false_eq_true, if_false]
  split
  · next hstep => exact .inl (by simpa using Behind.number h (hn.step hstep))
  · next hstep =>
    have hvalue := Behind.complete h (.number (hn.spells (mayEnd_of_ended hstep)))
    exact leads_stepBehind hvalue (mode_complete _ _) c
  · exact .inr (isSpoiled_faultInValue _ _)

/-- A character of a word. -/
theorem leads_step_word {stack : List Frame} {cs part rest : List Char} {next : Char} {r : Reading}
    (h : Awaits rounding stack cs) (hword : Spells rounding (part ++ next :: rest) r) (c : Char) :
    (Scan.step rounding ⟨.word next rest r, stack⟩ c).Leads rounding (cs ++ part ++ [c]) := by
  simp only [Scan.step, skipsBlank, Bool.false_and, Bool.false_eq_true, if_false]
  split_ifs with hc
  · subst hc
    cases rest with
    | nil => exact .inl (by simpa using Behind.complete h hword)
    | cons next rest => exact .inl (by simpa using Behind.word h (by simpa using hword))
  · exact .inr (isSpoiled_faultInValue _ _)

/-- **One more character.** -/
theorem Behind.step {s : Scan} {cs : List Char} (h : s.Behind rounding cs) (c : Char) :
    (s.step rounding c).Leads rounding (cs ++ [c]) := by
  by_cases hblank : (skipsBlank s.mode && isBlank c) = true
  · rw [Scan.step, if_pos hblank]
    obtain ⟨hskips, hc⟩ := Bool.and_eq_true_iff.mp hblank
    exact .inl (h.blank hskips hc)
  rw [Scan.step, if_neg hblank]
  -- the character ends an empty array or object, starts a value or a name, or spoils the reading
  cases h with
  | value h => exact leads_stepValue h c
  | firstItem houter hgap =>
    dsimp only
    split_ifs with hc
    · subst hc
      refine .inl ?_
      simpa [stepSeparator] using Behind.complete houter (.array (.none hgap))
    · exact leads_stepValue (.firstItem houter hgap) c
  | nextItem h =>
    dsimp only
    split_ifs
    · exact .inr (isSpoiled_faultBetween _ _)
    · exact leads_stepValue h c
  | firstName houter hgap =>
    dsimp only
    split_ifs with hc
    · subst hc
      refine .inl ?_
      simpa [stepSeparator, readingsOf] using Behind.complete houter (.object (.none hgap))
    · exact leads_stepName (.first houter hgap) c
  | nextName h =>
    dsimp only
    split_ifs
    · exact .inr (isSpoiled_faultBetween _ _)
    · exact leads_stepName h c
  | items houter hitems hne => exact leads_stepBehind (.items houter hitems hne) (.inl rfl) c
  | members houter hmembers hne =>
    exact leads_stepBehind (.members houter hmembers hne) (.inl rfl) c
  | name h ht => exact leads_step_name h ht c
  | colon h htext hgap =>
    dsimp only
    split_ifs with hc
    · subst hc
      exact .inl (by simpa using Behind.value (.member h (.name htext hgap) IsGap.nil))
    · exact .inr (isSpoiled_faultInValue _ _)
  | text h ht => exact leads_step_text h ht c
  | number h hn => exact leads_step_number h hn c
  | word h hword => exact leads_step_word h hword c
  | ended h => exact leads_stepBehind (.ended h) (.inr ⟨_, rfl⟩) c

/-- **All characters of a text**, one after the other. -/
theorem Leads.feed {s : Scan} {cs : List Char} (h : s.Leads rounding cs) (ds : List Char) :
    (s.feed rounding ds).Leads rounding (cs ++ ds) := by
  induction ds generalizing s cs with
  | nil => rwa [List.append_nil]
  | cons c ds ih =>
    rw [feed_cons, List.append_cons]
    refine ih ?_
    rcases h with h | h
    · exact h.step c
    · exact .inr (h.step c)

/-- **The end of a text** that was read without a fault. -/
theorem Behind.spelled {s : Scan} {cs : List Char} (h : s.Behind rounding cs) {r : Reading}
    (hfinish : s.finish rounding = ⟨r, none⟩) :
    ∃ value, SpellsPadded rounding cs ⟨value, r⟩ := by
  rcases finish_eq_ok hfinish with hmode | ⟨phase, n, hmode, hend, hstack, rfl⟩
  · cases h with
    | ended h =>
      obtain rfl := (Transcript.mk.inj (Mode.ended.inj hmode)).1
      exact ⟨_, h⟩
    | _ => cases hmode
  · cases h with
    | @number stack cs part phase' n' h hn =>
      obtain ⟨rfl, rfl⟩ := Mode.number.inj hmode
      obtain rfl : stack = [] := hstack
      have hvalue := Behind.complete h (.number (hn.spells hend))
      cases hvalue with
      | ended h => exact ⟨_, h⟩
    | _ => cases hmode

end Scan

/-- **What is read without a fault is spelled** by the text, if it can be kept. -/
theorem Transcript.spelled_of_ofText {rounding : Rounding} {text : String} {r : Reading}
    {depth : Nat} (h : ofText rounding text = ⟨r, none⟩) (hkeep : r.keep depth = .ok ()) :
    ∃ value, SpellsPadded rounding text.toList ⟨value, r⟩ := by
  have hstart : Scan.start.Leads rounding [] := .inl (.value (.root IsGap.nil))
  rcases hstart.feed text.toList with hbehind | hspoiled
  · exact hbehind.spelled h
  · exact absurd hkeep (hspoiled.unkept h depth)

end CairoForge
