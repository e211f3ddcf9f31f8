import CairoForge.Proofs.DecodedMembers
import CairoForge.Proofs.ReadScalars

/-!
# Spoiled readings

A string whose units stand for no character is read like any other, and so is what it stands in;
but nothing of that can be kept. What cannot be kept stays so, however the text goes on, and turns
up in what was read in the end.

## Main definitions

* `Reading.Unkept` — a value that cannot be kept, however deep it stands.
* `Scan.IsSpoiled` — the value that is being read cannot be kept.

## Main results

* `Reading.keep_array_eq_ok_iff`, `Reading.keep_object_eq_ok_iff` — what can be kept.
* `Scan.IsSpoiled.step` — what cannot be kept stays so.
* `Scan.IsSpoiled.unkept` — what cannot be kept is not kept in the end.
-/

namespace CairoForge

/-! ## What cannot be kept -/

namespace Reading

/-- The value cannot be kept, however deep it stands. -/
def Unkept (r : Reading) : Prop :=
  ∀ depth, r.keep depth ≠ .ok ()

theorem keepItems_eq_ok_iff {depth : Nat} {items : List Reading} :
    keepItems depth items = .ok () ↔ ∀ r ∈ items, r.keep depth = .ok () := by
  induction items with
  | nil => simp [keepItems]
  | cons item rest ih =>
    rw [keepItems, bind_eq_ok_iff, List.forall_mem_cons]
    constructor
    · rintro ⟨⟨⟩, hitem, hrest⟩
      exact ⟨hitem, ih.mp hrest⟩
    · rintro ⟨hitem, hrest⟩
      exact ⟨(), hitem, ih.mpr hrest⟩

theorem keepMembers_eq_ok_iff {depth : Nat} {members : List (MemberName × Reading)} :
    keepMembers depth members = .ok () ↔
      ∀ member ∈ members, (∃ name, member.1 = .ok name) ∧ member.2.keep depth = .ok () := by
  induction members with
  | nil => simp [keepMembers]
  | cons member rest ih =>
    rw [keepMembers, bind_eq_ok_iff, List.forall_mem_cons]
    simp only [MemberName.use_eq_ok_iff, bind_eq_ok_iff]
    constructor
    · rintro ⟨name, hname, ⟨⟩, hvalue, hrest⟩
      exact ⟨⟨⟨name, hname⟩, hvalue⟩, ih.mp hrest⟩
    · rintro ⟨⟨⟨name, hname⟩, hvalue⟩, hrest⟩
      exact ⟨name, hname, (), hvalue, ih.mpr hrest⟩

/-- An array is kept item by item, one deeper. -/
theorem keep_array_eq_ok_iff {depth : Nat} {items : List Reading} {stop? : Option Fault} :
    keep depth (.array items stop?) = .ok () ↔
      depth < maxDepth ∧ (∀ r ∈ items, r.keep (depth + 1) = .ok ()) ∧ stop? = none := by
  rw [keep]
  split_ifs with hdepth
  · rw [bind_eq_ok_iff, ← keepItems_eq_ok_iff, ← endsWith_eq_ok_iff]
    constructor
    · rintro ⟨⟨⟩, hitems, hstop⟩
      exact ⟨hdepth, hitems, hstop⟩
    · rintro ⟨-, hitems, hstop⟩
      exact ⟨(), hitems, hstop⟩
  · simp [hdepth]

/-- An object is kept member by member, one deeper. -/
theorem keep_object_eq_ok_iff {depth : Nat} {members : List (MemberName × Reading)}
    {stop? : Option Fault} :
    keep depth (.object members stop?) = .ok () ↔
      depth < maxDepth ∧
        (∀ member ∈ members, (∃ name, member.1 = .ok name) ∧
          member.2.keep (depth + 1) = .ok ()) ∧ stop? = none := by
  rw [keep]
  split_ifs with hdepth
  · rw [bind_eq_ok_iff, ← keepMembers_eq_ok_iff, ← endsWith_eq_ok_iff]
    constructor
    · rintro ⟨⟨⟩, hmembers, hstop⟩
      exact ⟨hdepth, hmembers, hstop⟩
    · rintro ⟨-, hmembers, hstop⟩
      exact ⟨(), hmembers, hstop⟩
  · simp [hdepth]

end Reading

/-! ## What stays so -/

/-- The container holds something that cannot be kept. -/
def Frame.IsSpoiled : Frame → Prop
  | .array items => ∃ r ∈ items, r.Unkept
  | .object members name? =>
    (∃ member ∈ members, (∃ cause, member.1 = .error cause) ∨ member.2.Unkept) ∨
      ∃ cause, name? = some (.error cause)

/-- The container between its values. -/
def Frame.unnamed : Frame → Frame
  | .array items => .array items
  | .object members _ => .object members none

namespace Scan

/-- Something that is open around a value cannot be kept. -/
def SpoiledAround (stack : List Frame) : Prop :=
  ∃ frame ∈ stack, frame.IsSpoiled

/-- Something that is open between values cannot be kept. -/
def SpoiledBetween : List Frame → Prop
  | [] => False
  | frame :: outer => frame.unnamed.IsSpoiled ∨ SpoiledAround outer

/-- **What is read cannot be kept**, however the text goes on. -/
def IsSpoiled (s : Scan) : Prop :=
  match s.mode with
  | .ended t => t.rest? ≠ none ∨ t.root.Unkept
  | .firstName | .nextName | .separator => SpoiledBetween s.stack
  | .name t => t.Doomed ∨ SpoiledBetween s.stack
  | .text t => t.Doomed ∨ SpoiledAround s.stack
  | _ => SpoiledAround s.stack

theorem rest?_faultInValue (cause : Fault) (stack : List Frame) :
    (faultInValue cause stack).rest? = some cause := rfl

theorem rest?_faultBetween (cause : Fault) (stack : List Frame) :
    (faultBetween cause stack).rest? = some cause := by
  rcases stack with _ | ⟨items | ⟨members, name?⟩, outer⟩ <;> rfl

theorem isSpoiled_faultInValue (cause : Fault) (stack : List Frame) :
    (halt (faultInValue cause stack)).IsSpoiled :=
  .inl (by simp [rest?_faultInValue])

theorem isSpoiled_faultBetween (cause : Fault) (stack : List Frame) :
    (halt (faultBetween cause stack)).IsSpoiled :=
  .inl (by simp [rest?_faultBetween])

theorem spoiledAround_cons {frame : Frame} {outer : List Frame} :
    SpoiledAround (frame :: outer) ↔ frame.IsSpoiled ∨ SpoiledAround outer := by
  simp [SpoiledAround]

/-- A value that cannot be kept spoils what it joins. -/
theorem isSpoiled_complete {r : Reading} {stack : List Frame}
    (h : r.Unkept ∨ SpoiledAround stack) : (complete r stack).IsSpoiled := by
  cases stack with
  | nil => exact .inr (h.resolve_right (by simp [SpoiledAround]))
  | cons frame outer =>
    rw [spoiledAround_cons] at h
    cases frame with
    | array items =>
      rcases h with hr | ⟨bad, hbad, hunkept⟩ | houter
      · exact .inl ⟨r, List.mem_cons_self, hr⟩
      · exact .inl ⟨bad, List.mem_cons_of_mem _ hbad, hunkept⟩
      · exact .inr houter
    | object members name? =>
      rcases h with hr | (⟨bad, hbad, hunkept⟩ | ⟨cause, rfl⟩) | houter
      · exact .inl (.inl ⟨_, List.mem_cons_self, .inr hr⟩)
      · exact .inl (.inl ⟨bad, List.mem_cons_of_mem _ hbad, hunkept⟩)
      · exact .inl (.inl ⟨_, List.mem_cons_self, .inl ⟨cause, rfl⟩⟩)
      · exact .inr houter

theorem isSpoiled_stepValue {stack : List Frame} (h : SpoiledAround stack) (c : Char) :
    (stepValue stack c).IsSpoiled := by
  unfold stepValue
  split
  · exact h
  · exact h
  · exact h
  · exact h
  · exact .inr h
  · exact spoiledAround_cons.mpr (.inr h)
  · exact .inr h
  · split
    · exact h
    · exact isSpoiled_faultInValue _ _

theorem isSpoiled_stepSeparator {stack : List Frame} (h : SpoiledBetween stack) (c : Char) :
    (stepSeparator stack c).IsSpoiled := by
  -- a bad part spoils the array or the object that it ends up in
  rcases stack with _ | ⟨items | ⟨members, name?⟩, outer⟩
  · exact h.elim
  · unfold stepSeparator
    dsimp only
    split_ifs
    · exact spoiledAround_cons.mpr h
    · refine isSpoiled_complete (h.imp_left ?_)
      rintro ⟨bad, hbad, hunkept⟩ depth hkeep
      exact hunkept _ ((Reading.keep_array_eq_ok_iff.mp hkeep).2.1 bad (List.mem_reverse.mpr hbad))
    · exact isSpoiled_faultBetween _ _
  · unfold stepSeparator
    dsimp only
    split_ifs
    · exact h
    · refine isSpoiled_complete (h.imp_left ?_)
      rintro (⟨bad, hbad, hunkept⟩ | ⟨cause, hcause⟩) depth hkeep
      · obtain ⟨⟨name, hname⟩, hvalue⟩ :=
          (Reading.keep_object_eq_ok_iff.mp hkeep).2.1 bad (List.mem_reverse.mpr hbad)
        rcases hunkept with ⟨cause, hcause⟩ | hunkept
        · cases hname.symm.trans hcause
        · exact hunkept _ hvalue
      · cases hcause
    · exact isSpoiled_faultBetween _ _

theorem isSpoiled_closeName {name : MemberName} {stack : List Frame}
    (h : (∃ cause, name = .error cause) ∨ SpoiledBetween stack) :
    (closeName name stack).IsSpoiled := by
  rcases stack with _ | ⟨items | ⟨members, name?⟩, outer⟩
  · exact isSpoiled_faultBetween _ _
  · exact isSpoiled_faultBetween _ _
  · refine spoiledAround_cons.mpr ?_
    rcases h with ⟨cause, rfl⟩ | (hmembers | ⟨_, hcause⟩) | houter
    · exact .inl (.inr ⟨cause, rfl⟩)
    · exact .inl (.inl hmembers)
    · cases hcause
    · exact .inr houter

theorem unkept_value {t : TextScan} (h : t.flaw? ≠ none) : t.value.Unkept := by
  obtain ⟨flaw, hflaw⟩ := Option.ne_none_iff_exists'.mp h
  intro depth
  simp [TextScan.value, hflaw, Reading.keep]

theorem name_eq_error {t : TextScan} (h : t.flaw? ≠ none) : ∃ cause, t.name = .error cause := by
  obtain ⟨flaw, hflaw⟩ := Option.ne_none_iff_exists'.mp h
  exact ⟨flaw, by simp [TextScan.name, hflaw]⟩

theorem isSpoiled_stepName {stack : List Frame} (h : SpoiledBetween stack) (c : Char) :
    (stepName stack c).IsSpoiled := by
  rw [stepName]
  split_ifs
  · exact .inr h
  · exact isSpoiled_faultBetween _ _

/-- A character behind a value that cannot be kept, or that stands in what cannot be kept. -/
theorem isSpoiled_stepBehind {s : Scan} (h : s.IsSpoiled) (c : Char) :
    (s.stepBehind c).IsSpoiled := by
  obtain ⟨mode, stack⟩ := s
  unfold stepBehind
  cases mode with
  | separator =>
    dsimp only
    split_ifs
    · exact h
    · exact isSpoiled_stepSeparator h c
  | ended t =>
    obtain ⟨r, _ | cause⟩ := t
    · dsimp only
      split_ifs
      · exact h
      · exact .inl (by simp)
    · exact h
  | _ => exact h

variable {rounding : Rounding}

/-- **What cannot be kept stays so.** -/
theorem IsSpoiled.step {s : Scan} (h : s.IsSpoiled) (c : Char) : (s.step rounding c).IsSpoiled := by
  by_cases hblank : (skipsBlank s.mode && isBlank c) = true
  · rwa [Scan.step, if_pos hblank]
  rw [Scan.step, if_neg hblank]
  obtain ⟨mode, stack⟩ := s
  -- the flaw is on the stack or in what is read; either way it is passed on
  cases mode with
  | value => exact isSpoiled_stepValue h c
  | firstItem =>
    dsimp only
    split_ifs with hc
    · rcases stack with _ | ⟨items | ⟨members, name?⟩, outer⟩
      · exact isSpoiled_faultInValue _ _
      · have hbetween : SpoiledBetween (.array items :: outer) := spoiledAround_cons.mp h
        exact isSpoiled_stepSeparator hbetween c
      · subst hc
        exact isSpoiled_faultBetween _ _
    · exact isSpoiled_stepValue h c
  | nextItem =>
    dsimp only
    split_ifs
    · exact isSpoiled_faultBetween _ _
    · exact isSpoiled_stepValue h c
  | firstName =>
    dsimp only
    split_ifs
    · exact isSpoiled_stepSeparator h c
    · exact isSpoiled_stepName h c
  | nextName =>
    dsimp only
    split_ifs
    · exact isSpoiled_faultBetween _ _
    · exact isSpoiled_stepName h c
  | colon =>
    dsimp only
    split_ifs
    · exact h
    · exact isSpoiled_faultInValue _ _
  | separator => exact isSpoiled_stepBehind h c
  | ended t => exact isSpoiled_stepBehind h c
  | name t =>
    dsimp only
    split
    · next hstep => exact h.imp_left (·.step hstep)
    · next hstep => exact isSpoiled_closeName (h.imp_left fun ht => name_eq_error (ht.closed hstep))
    · exact isSpoiled_faultBetween _ _
  | text t =>
    dsimp only
    split
    · next hstep => exact h.imp_left (·.step hstep)
    · next hstep => exact isSpoiled_complete (h.imp_left fun ht => unkept_value (ht.closed hstep))
    · exact isSpoiled_faultInValue _ _
  | number phase n =>
    dsimp only
    split
    · exact h
    · exact isSpoiled_stepBehind (isSpoiled_complete (.inr h)) c
    · exact isSpoiled_faultInValue _ _
  | word next rest r =>
    dsimp only
    split_ifs
    · cases rest with
      | nil => exact isSpoiled_complete (.inr h)
      | cons next rest => exact h
    · exact isSpoiled_faultInValue _ _

/-- **A text read without a fault** has ended behind its value, or in the number that is its
value. -/
theorem finish_eq_ok {s : Scan} {r : Reading} (h : s.finish rounding = ⟨r, none⟩) :
    s.mode = .ended ⟨r, none⟩ ∨ ∃ phase n, s.mode = .number phase n ∧
      Numeral.mayEnd phase = true ∧ s.stack = [] ∧ r = .number (n.quantity? rounding) := by
  obtain ⟨mode, stack⟩ := s
  have hrest := congrArg Transcript.rest? h
  -- outside a number that may end, the end of the text leaves a fault
  cases mode with
  | ended t => exact .inl (congrArg Mode.ended h)
  | number phase n =>
    refine .inr ⟨phase, n, rfl, ?_⟩
    unfold finish at h hrest
    dsimp only at h hrest
    split_ifs at h hrest with hend
    · rcases stack with _ | ⟨items | ⟨members, name?⟩, outer⟩
      · exact ⟨hend, rfl, (congrArg Transcript.root h).symm⟩
      · cases hrest
      · cases hrest
    · cases hrest
  | value | nextItem | word | colon | text => cases hrest
  | nextName | firstItem | firstName | separator | name =>
    exact absurd hrest (by simp [finish, rest?_faultBetween])

/-- What cannot be kept is not kept in the end. -/
theorem IsSpoiled.unkept {s : Scan} (h : s.IsSpoiled) {r : Reading}
    (hfinish : s.finish rounding = ⟨r, none⟩) : r.Unkept := by
  obtain ⟨mode, stack⟩ := s
  rcases finish_eq_ok hfinish with hmode | ⟨phase, n, hmode, -, hstack, -⟩
  · subst hmode
    exact h.resolve_left (by simp)
  · subst hmode hstack
    obtain ⟨_, hnone, -⟩ := h
    cases hnone

end Scan

end CairoForge
