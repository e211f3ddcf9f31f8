import CairoForge.Proofs.ConstructorLayout
import CairoForge.Proofs.ExactIntegers

/-!
# Numbers that cannot be printed

Nothing but an argument of an initializer call keeps a contract from being printed, and nothing but
a number in it: one that is not an integer of the exact range, however many notes are around it.
The arguments of a base module that initializes itself are never printed, and so never refused.

## Main definitions

* `Value.IsPrintable` — a number inside a value has to be an exact integer.
* `Parent.IsPrintable` — the arguments of an initializer that the constructor calls can be printed.

## Main results

* `Value.render_eq_error_iff`, `Parent.initializerCall_eq_error_iff` — what is refused, and why.
* `Contract.source_eq_error_iff_initializerCalls` — a contract is refused where its calls are.
* `Contract.printing_refused_iff` — which contracts are refused, and for which of their numbers.
-/

namespace CairoForge

variable {refusal : Refusal}

/-! ## Values -/

namespace Value

variable {v : Value}

/-- **Values that can be printed**: a number inside all notes is an exact integer. -/
def IsPrintable (v : Value) : Prop :=
  ∀ n, v.innermost = .number n → n.IsSafeInteger

/-- A value is refused for the number inside all notes. -/
theorem render_eq_error_iff :
    v.render = .error refusal ↔
      ∃ n, v.innermost = .number n ∧ ¬n.IsSafeInteger ∧ refusal = .unrepresentableNumber n := by
  induction v with
  | text content => simp [render, innermost]
  | number n =>
    have hinner : (number n).innermost = number n := rfl
    rw [render, hinner]
    cases hinteger : n.safeInteger? with
    | none => simp [← Binary64.safeInteger?_eq_none_iff, hinteger, eq_comm]
    | some i => simp [← Binary64.safeInteger?_eq_none_iff, hinteger]
  | literal source => simp [render, innermost]
  | note remark value ih =>
    -- a note changes the text, not the refusal
    rw [render, innermost, ← ih]
    cases value.render with
    | error other => simp [Except.map]
    | ok text => simp [Except.map]

theorem exists_render_iff : (∃ text, v.render = .ok text) ↔ v.IsPrintable := by
  rw [exists_eq_ok_iff]
  constructor
  · intro hrender n hn
    by_contra hunsafe
    exact hrender _ (render_eq_error_iff.mpr ⟨n, hn, hunsafe, rfl⟩)
  · intro hv refusal hrefusal
    obtain ⟨n, hn, hunsafe, -⟩ := render_eq_error_iff.mp hrefusal
    exact hunsafe (hv n hn)

end Value

/-! ## Initializer calls -/

namespace Parent

variable {p : Parent}

/-- **Base modules that can be printed**: if the constructor calls the initializer, then all of its
arguments can be. -/
def IsPrintable (p : Parent) : Prop :=
  p.base.initializer = .explicit → ∀ v ∈ p.params, v.IsPrintable

theorem hasInitializer_iff : p.base.hasInitializer = true ↔ p.base.initializer = .explicit :=
  beq_iff_eq

/-- A call is refused for the first argument that cannot be printed. -/
theorem initializerCall_eq_error_iff :
    p.initializerCall = .error refusal ↔
      ∃ before v after n, p.params = before ++ v :: after ∧ (∀ w ∈ before, w.IsPrintable) ∧
        v.innermost = .number n ∧ ¬n.IsSafeInteger ∧ refusal = .unrepresentableNumber n := by
  -- the arguments are printed in order, and the first refusal ends it
  have hparams : p.initializerCall = .error refusal ↔
      p.params.mapM Value.render = .error refusal := by
    unfold initializerCall
    cases p.params.mapM Value.render with
    | error other => simp [bind, Except.bind]
    | ok params => simp [bind, Except.bind, pure, Except.pure]
  rw [hparams, mapM_eq_error_iff]
  simp only [Value.exists_render_iff, Value.render_eq_error_iff]
  constructor
  · rintro ⟨before, v, after, hsplit, hbefore, n, hn⟩
    exact ⟨before, v, after, n, hsplit, hbefore, hn⟩
  · rintro ⟨before, v, after, n, hsplit, hbefore, hn⟩
    exact ⟨before, v, after, hsplit, hbefore, n, hn⟩

theorem exists_initializerCall_iff :
    (∃ call, p.initializerCall = .ok call) ↔ ∀ v ∈ p.params, v.IsPrintable := by
  have hparams : (∃ call, p.initializerCall = .ok call) ↔
      ∃ params, p.params.mapM Value.render = .ok params := by
    simp only [Contract.initializerCall_eq_ok_iff]
    constructor
    · rintro ⟨-, params, h, -⟩
      exact ⟨params, h⟩
    · rintro ⟨params, h⟩
      exact ⟨_, params, h, rfl⟩
  rw [hparams, exists_mapM_eq_ok_iff]
  simp only [Value.exists_render_iff]

end Parent

/-! ## Contracts -/

namespace Contract

/-- A contract is refused where its initializer calls are: without a constructor none of them has
arguments, and nothing else that is printed can be refused. -/
theorem source_eq_error_iff_initializerCalls {c : Contract} {naming : Renaming} :
    c.source naming = .error refusal ↔ c.initializerCalls = .error refusal := by
  -- of the sections, only the constructors can be refused
  have hsource : c.source naming = .error refusal ↔ c.constructors naming = .error refusal := by
    unfold source document
    cases c.constructors naming with
    | error other => simp [bind, Except.bind, Except.map]
    | ok routines => simp [bind, Except.bind, pure, Except.pure, Except.map]
  rw [hsource, constructors_eq]
  cases hconstructor : c.hasConstructor with
  | true =>
    cases c.initializerCalls with
    | error other => simp [Except.map]
    | ok calls => simp [Except.map]
  | false =>
    obtain ⟨calls, hcalls⟩ := exists_initializerCalls_of_hasConstructor_eq_false hconstructor
    simp [hcalls]

theorem exists_source_iff {c : Contract} {naming : Renaming} :
    (∃ text, c.source naming = .ok text) ↔ ∀ p ∈ c.parents, p.IsPrintable := by
  have hcalls : (∃ text, c.source naming = .ok text) ↔
      ∃ calls, c.initializerCalls = .ok calls := by
    simp only [exists_eq_ok_iff, ne_eq, source_eq_error_iff_initializerCalls]
  rw [hcalls, initializerCalls, exists_mapM_eq_ok_iff]
  simp only [List.mem_filter, and_imp, Parent.exists_initializerCall_iff,
    Parent.hasInitializer_iff, Parent.IsPrintable]

/-- **Which contracts cannot be printed.** Whatever is renamed, and whether or not the contract
stands behind a proxy, its source is refused exactly if some initializer that the constructor calls
has an argument with a number inside that is no exact integer. What is reported is the number of
the first such argument of the first such base module, as they are presented. -/
theorem printing_refused_iff (c : Contract) (naming : Renaming) (upgradeable : Bool) :
    ((∃ refusal, (c.setUpgradeable upgradeable).source naming = .error refusal) ↔
      ∃ p ∈ c.parents, p.base.initializer = .explicit ∧
        ∃ v ∈ p.params, ∃ n, v.innermost = .number n ∧ ¬n.IsSafeInteger) ∧
    ∀ refusal, (c.setUpgradeable upgradeable).source naming = .error refusal ↔
      ∃ earlier p later before v after n,
        c.parents = earlier ++ p :: later ∧ (∀ q ∈ earlier, q.IsPrintable) ∧
        p.base.initializer = .explicit ∧
        p.params = before ++ v :: after ∧ (∀ w ∈ before, w.IsPrintable) ∧
        v.innermost = .number n ∧ ¬n.IsSafeInteger ∧ refusal = .unrepresentableNumber n := by
  constructor
  · have hrefused : (∃ refusal, (c.setUpgradeable upgradeable).source naming = .error refusal) ↔
        ¬∃ text, (c.setUpgradeable upgradeable).source naming = .ok text := by
      rw [exists_eq_ok_iff]
      simp only [ne_eq, not_forall, not_not]
    rw [hrefused, exists_source_iff]
    change (¬∀ p ∈ c.parents, p.IsPrintable) ↔ _
    simp only [Parent.IsPrintable, Value.IsPrintable, not_forall, exists_prop]
  · intro refusal
    rw [source_eq_error_iff_initializerCalls, initializerCalls, mapM_filter_eq_error_iff]
    change (∃ earlier p later, c.parents = earlier ++ p :: later ∧ _) ↔ _
    simp only [Parent.exists_initializerCall_iff, Parent.initializerCall_eq_error_iff,
      Parent.hasInitializer_iff]
    constructor
    · rintro ⟨earlier, p, later, hparents, hinitializer, hearlier, before, v, after, n, hparams⟩
      exact ⟨earlier, p, later, before, v, after, n, hparents, hearlier, hinitializer, hparams⟩
    · rintro ⟨earlier, p, later, before, v, after, n, hparents, hearlier, hinitializer, hparams⟩
      exact ⟨earlier, p, later, hparents, hinitializer, hearlier, before, v, after, n, hparams⟩

end Contract

end CairoForge
