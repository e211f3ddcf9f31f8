import Mathlib.Data.List.Forall2

/-!
# Lists related element by element

What two lists of one length share when their elements are related one by one. Two contracts are
compared in this way, and so are two sources.

## Main results

* `mapM_congr_forall₂` — traversals that agree element by element agree.
* `mapM_eq_error_iff` — a traversal is refused where the first of its elements is.
* `forall₂_intercalate` — related groups are related when they are joined.
* `eq_of_append_cons_eq`, `eq_of_intercalate_eq` — parts that hold no separator are told from what
  they are joined to.
-/

namespace CairoForge

variable {α β : Type} {R : α → β → Prop} {l : List α} {l' : List β}

theorem isEmpty_eq_of_forall₂ (h : List.Forall₂ R l l') : l.isEmpty = l'.isEmpty := by
  cases h <;> rfl

theorem forall₂_self {S : α → α → Prop} (hrefl : ∀ a, S a a) (as : List α) :
    List.Forall₂ S as as :=
  List.forall₂_same.mpr fun a _ => hrefl a

theorem exists_of_mem_forall₂ (h : List.Forall₂ R l l') {a : α} (ha : a ∈ l) :
    ∃ b ∈ l', R a b := by
  induction h with
  | nil => cases ha
  | @cons first other _ _ hfirst _ ih =>
    rcases List.mem_cons.mp ha with rfl | hrest
    · exact ⟨other, List.mem_cons_self, hfirst⟩
    · obtain ⟨b, hb, hab⟩ := ih hrest
      exact ⟨b, List.mem_cons_of_mem _ hb, hab⟩

theorem forall₂_mem_of_length_eq (h : l.length = l'.length) :
    List.Forall₂ (fun a b => a ∈ l ∧ b ∈ l') l l' :=
  List.forall₂_iff_zip.mpr ⟨h, fun hmem => List.of_mem_zip hmem⟩

theorem forall₂_of_beq [BEq α] {first second : List α} (h : (first == second) = true) :
    List.Forall₂ (fun a b => (a == b) = true) first second := by
  induction first generalizing second with
  | nil =>
    cases second with
    | nil => exact .nil
    | cons b rest => cases h
  | cons a rest ih =>
    cases second with
    | nil => cases h
    | cons b rest' =>
      rw [List.cons_beq_cons, Bool.and_eq_true] at h
      exact .cons h.1 (ih h.2)

theorem beq_self_of_forall_mem [BEq α] {as : List α} (h : ∀ a ∈ as, (a == a) = true) :
    (as == as) = true := by
  induction as with
  | nil => rfl
  | cons a rest ih =>
    obtain ⟨ha, hrest⟩ := List.forall_mem_cons.mp h
    rw [List.cons_beq_cons, ha, ih hrest]
    rfl

/-- Lists are equal when related elements of theirs are. -/
theorem eq_of_forall₂ {S : α → α → Prop} {first second : List α} (h : List.Forall₂ S first second)
    (heq : ∀ a ∈ first, ∀ b ∈ second, S a b → a = b) : first = second := by
  induction h with
  | nil => rfl
  | cons hab _ ih =>
    rw [heq _ List.mem_cons_self _ List.mem_cons_self hab, ih fun a ha b hb =>
      heq a (List.mem_cons_of_mem _ ha) b (List.mem_cons_of_mem _ hb)]

/-! ## Traversals -/

theorem map_congr_forall₂ {γ : Type} {f : α → γ} {g : β → γ}
    (h : List.Forall₂ (fun a b => f a = g b) l l') : l.map f = l'.map g := by
  rw [← List.forall₂_eq_eq_eq, List.forall₂_map_left_iff, List.forall₂_map_right_iff]
  exact h

theorem mapM_congr_forall₂ {γ ε : Type} {f : α → Except ε γ} {g : β → Except ε γ}
    (h : List.Forall₂ (fun a b => f a = g b) l l') : l.mapM f = l'.mapM g := by
  induction h with
  | nil => rfl
  | cons hab _ ih => rw [List.mapM_cons, List.mapM_cons, hab, ih]

theorem mapM_cons_eq_ok {γ ε : Type} {f : α → Except ε γ} {a : α} {cs : List γ}
    (h : (a :: l).mapM f = .ok cs) :
    ∃ c rest, f a = .ok c ∧ l.mapM f = .ok rest ∧ cs = c :: rest := by
  rw [List.mapM_cons] at h
  cases hc : f a with
  | error refusal =>
    rw [hc] at h
    cases h
  | ok c =>
    cases hrest : l.mapM f with
    | error refusal =>
      rw [hc, hrest] at h
      cases h
    | ok rest =>
      rw [hc, hrest] at h
      exact ⟨c, rest, rfl, rfl, (Except.ok.inj h).symm⟩

/-- A traversal has the results of the elements, in order, and succeeds where all of them do. -/
theorem mapM_eq_ok_iff_forall₂ {γ ε : Type} {f : α → Except ε γ} {cs : List γ} :
    l.mapM f = .ok cs ↔ List.Forall₂ (fun a c => f a = .ok c) l cs := by
  constructor
  · intro h
    induction l generalizing cs with
    | nil =>
      obtain rfl := Except.ok.inj h
      exact .nil
    | cons a rest ih =>
      obtain ⟨c, others, hc, hothers, rfl⟩ := mapM_cons_eq_ok h
      exact .cons hc (ih hothers)
  · intro h
    induction h with
    | nil => rfl
    | cons hc _ ih =>
      rw [List.mapM_cons, hc, ih]
      rfl

/-- A traversal is refused where the first of its elements is. -/
theorem mapM_eq_error_iff {γ ε : Type} {f : α → Except ε γ} {refusal : ε} :
    l.mapM f = .error refusal ↔
      ∃ before a after, l = before ++ a :: after ∧ (∀ b ∈ before, ∃ c, f b = .ok c) ∧
        f a = .error refusal := by
  constructor
  · intro h
    induction l with
    | nil => cases h
    | cons first rest ih =>
      rw [List.mapM_cons] at h
      cases hfirst : f first with
      | error other =>
        rw [hfirst] at h
        obtain rfl := Except.error.inj h
        exact ⟨[], first, rest, rfl, nofun, hfirst⟩
      | ok c =>
        -- the refusal comes from the rest
        cases hrest : rest.mapM f with
        | ok cs =>
          rw [hfirst, hrest] at h
          cases h
        | error other =>
          rw [hfirst, hrest] at h
          obtain rfl := Except.error.inj h
          obtain ⟨before, a, after, rfl, hbefore, ha⟩ := ih hrest
          exact ⟨first :: before, a, after, rfl,
            List.forall_mem_cons.mpr ⟨⟨c, hfirst⟩, hbefore⟩, ha⟩
  · rintro ⟨before, a, after, rfl, hbefore, ha⟩
    induction before with
    | nil =>
      rw [List.nil_append, List.mapM_cons, ha]
      rfl
    | cons first rest ih =>
      obtain ⟨⟨c, hc⟩, hrest⟩ := List.forall_mem_cons.mp hbefore
      rw [List.cons_append, List.mapM_cons, hc, ih hrest]
      rfl

/-- What is never refused succeeds. -/
theorem exists_eq_ok_iff {γ ε : Type} {x : Except ε γ} :
    (∃ c, x = .ok c) ↔ ∀ refusal, x ≠ .error refusal := by
  cases x with
  | error refusal => simp
  | ok c => simp

/-- A traversal succeeds where each of its elements does. -/
theorem exists_mapM_eq_ok_iff {γ ε : Type} {f : α → Except ε γ} :
    (∃ cs, l.mapM f = .ok cs) ↔ ∀ a ∈ l, ∃ c, f a = .ok c := by
  constructor
  · rintro ⟨cs, h⟩ a ha
    obtain ⟨c, -, hc⟩ := exists_of_mem_forall₂ (mapM_eq_ok_iff_forall₂.mp h) ha
    exact ⟨c, hc⟩
  · intro h
    rw [exists_eq_ok_iff]
    intro refusal hrefusal
    obtain ⟨before, a, after, rfl, -, ha⟩ := mapM_eq_error_iff.mp hrefusal
    exact exists_eq_ok_iff.mp (h a (List.mem_append_cons_self)) refusal ha

/-- A traversal of what is kept is refused where the first kept element is. -/
theorem mapM_filter_eq_error_iff {γ ε : Type} {f : α → Except ε γ} {keep : α → Bool} {refusal : ε} :
    (l.filter keep).mapM f = .error refusal ↔
      ∃ before a after, l = before ++ a :: after ∧ keep a = true ∧
        (∀ b ∈ before, keep b = true → ∃ c, f b = .ok c) ∧ f a = .error refusal := by
  rw [mapM_eq_error_iff]
  constructor
  · rintro ⟨before, a, after, hsplit, hbefore, ha⟩
    obtain ⟨front, back, rfl, rfl, hback⟩ := List.filter_eq_append_iff.mp hsplit
    obtain ⟨dropped, rest, rfl, hdropped, hkeep, -⟩ := List.filter_eq_cons_iff.mp hback
    refine ⟨front ++ dropped, a, rest, (List.append_assoc ..).symm, hkeep, ?_, ha⟩
    intro b hb hkept
    rcases List.mem_append.mp hb with hfront | hother
    · exact hbefore b (List.mem_filter.mpr ⟨hfront, hkept⟩)
    · exact absurd hkept (hdropped b hother)
  · rintro ⟨before, a, after, rfl, hkeep, hbefore, ha⟩
    refine ⟨before.filter keep, a, after.filter keep, ?_, ?_, ha⟩
    · rw [List.filter_append, List.filter_cons_of_pos hkeep]
    · intro b hb
      obtain ⟨hmem, hkept⟩ := List.mem_filter.mp hb
      exact hbefore b hmem hkept

/-- Traversals that succeed have related results when the results of related elements are. -/
theorem forall₂_of_mapM_eq_ok {γ δ ε : Type} {f : α → Except ε γ} {g : β → Except ε δ}
    {S : γ → δ → Prop}
    (h : List.Forall₂ (fun a b => ∀ c d, f a = .ok c → g b = .ok d → S c d) l l') {cs : List γ}
    {ds : List δ} (hcs : l.mapM f = .ok cs) (hds : l'.mapM g = .ok ds) :
    List.Forall₂ S cs ds := by
  induction h generalizing cs ds with
  | nil =>
    obtain rfl := Except.ok.inj hcs
    obtain rfl := Except.ok.inj hds
    exact .nil
  | cons hab _ ih =>
    obtain ⟨c, cs, hc, hrest, rfl⟩ := mapM_cons_eq_ok hcs
    obtain ⟨d, ds, hd, hrest', rfl⟩ := mapM_cons_eq_ok hds
    exact .cons (hab c d hc hd) (ih hrest hrest')

/-! ## Groups -/

theorem exists_intercalate_cons (separator first : List α) (rest : List (List α)) :
    ∃ tail, separator.intercalate (first :: rest) = first ++ tail := by
  cases rest with
  | nil => exact ⟨[], by simp⟩
  | cons next rest => exact ⟨separator ++ separator.intercalate (next :: rest), by
      rw [List.intercalate_cons_cons, List.append_assoc]⟩

theorem intercalate_cons_ne_nil {separator first : List α} {rest : List (List α)}
    (h : first ≠ []) : separator.intercalate (first :: rest) ≠ [] := by
  obtain ⟨tail, htail⟩ := exists_intercalate_cons separator first rest
  rw [htail]
  exact List.append_ne_nil_of_left_ne_nil h tail

theorem forall₂_intercalate {separator : List α} {separator' : List β}
    (hseparator : List.Forall₂ R separator separator') {groups : List (List α)}
    {groups' : List (List β)} (h : List.Forall₂ (List.Forall₂ R) groups groups') :
    List.Forall₂ R (separator.intercalate groups) (separator'.intercalate groups') := by
  induction h with
  | nil => exact .nil
  | cons hgroup hrest ih =>
    -- a separator stands behind a group only where another one follows
    cases hrest with
    | nil => simpa using hgroup
    | cons hnext hrest =>
      simp only [List.intercalate_cons_cons]
      exact List.rel_append (List.rel_append hgroup hseparator) ih

/-- Each group stands in what the groups are joined to. -/
theorem isInfix_intercalate_of_mem {separator group : List α} {groups : List (List α)}
    (h : group ∈ groups) : group <:+: separator.intercalate groups := by
  have hmem : group ∈ groups.intersperse separator := by
    induction groups with
    | nil => cases h
    | cons first rest ih =>
      cases rest with
      | nil => exact h
      | cons next rest =>
        rcases List.mem_cons.mp h with rfl | hrest
        · exact List.mem_cons_self
        · exact List.mem_cons_of_mem _ (List.mem_cons_of_mem _ (ih hrest))
  exact List.infix_of_mem_flatten hmem

theorem mem_of_mem_intercalate {separator : List α} {groups : List (List α)} {a : α}
    (h : a ∈ separator.intercalate groups) : a ∈ separator ∨ ∃ group ∈ groups, a ∈ group := by
  induction groups with
  | nil => cases h
  | cons group rest ih =>
    cases rest with
    | nil => exact .inr ⟨group, List.mem_cons_self, by simpa using h⟩
    | cons next rest =>
      rw [List.intercalate_cons_cons, List.mem_append, List.mem_append] at h
      rcases h with (hgroup | hseparator) | hrest
      · exact .inr ⟨group, List.mem_cons_self, hgroup⟩
      · exact .inl hseparator
      · exact (ih hrest).imp_right fun ⟨other, hother, ha⟩ =>
          ⟨other, List.mem_cons_of_mem _ hother, ha⟩

theorem forall₂_filter_not_isEmpty {S : List α → List β → Prop} {groups : List (List α)}
    {groups' : List (List β)} (h : List.Forall₂ S groups groups')
    (hS : ∀ g g', S g g' → g.isEmpty = g'.isEmpty) :
    List.Forall₂ S (groups.filter (!·.isEmpty)) (groups'.filter (!·.isEmpty)) := by
  refine List.rel_filter ?_ h
  intro g g' hg
  change (!g.isEmpty) = true ↔ (!g'.isEmpty) = true
  rw [hS g g' hg]

/-! ## Separators -/

/-- What stands in front of the first occurrence of an element is determined, and so is the rest. -/
theorem eq_of_append_cons_eq {a : α} {l l' rest rest' : List α} (h : a ∉ l)
    (h' : a ∉ l') (heq : l ++ a :: rest = l' ++ a :: rest') : l = l' ∧ rest = rest' := by
  induction l generalizing l' with
  | nil =>
    cases l' with
    | nil => exact ⟨rfl, (List.cons.inj heq).2⟩
    | cons b l' => exact absurd ((List.cons.inj heq).1 ▸ List.mem_cons_self) h'
  | cons b l ih =>
    cases l' with
    | nil => exact absurd ((List.cons.inj heq).1 ▸ List.mem_cons_self) h
    | cons c l' =>
      obtain ⟨rfl, hrest⟩ := List.cons.inj heq
      obtain ⟨rfl, rfl⟩ := ih (List.not_mem_of_not_mem_cons h) (List.not_mem_of_not_mem_cons h')
        hrest
      exact ⟨rfl, rfl⟩

/-- What groups are joined to tells them, if none of them is empty or holds the separator. -/
theorem eq_of_intercalate_eq [BEq α] [LawfulBEq α] {separator : α} {groups groups' : List (List α)}
    (h : ∀ group ∈ groups, group ≠ [] ∧ separator ∉ group)
    (h' : ∀ group ∈ groups', group ≠ [] ∧ separator ∉ group)
    (heq : [separator].intercalate groups = [separator].intercalate groups') :
    groups = groups' := by
  cases groups with
  | nil =>
    cases groups' with
    | nil => rfl
    | cons group rest =>
      exact absurd heq.symm (intercalate_cons_ne_nil (h' group List.mem_cons_self).1)
  | cons group rest =>
    cases groups' with
    | nil => exact absurd heq (intercalate_cons_ne_nil (h group List.mem_cons_self).1)
    | cons group' rest' =>
      -- split at the separators, what was joined gives the groups back
      rw [← List.splitOn_intercalate separator (fun g hg => (h g hg).2) (List.cons_ne_nil _ _), heq,
        List.splitOn_intercalate separator (fun g hg => (h' g hg).2) (List.cons_ne_nil _ _)]

end CairoForge
