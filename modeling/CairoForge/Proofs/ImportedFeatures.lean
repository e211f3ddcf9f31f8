import CairoForge.Proofs.GatheredImports
import CairoForge.Proofs.TokenGuards

/-!
# What imports tell of a token

Every feature of a token has entry points of its own, and every entry point calls a function of a
base module that is imported by a name of its own. Every access mode has a guard, which is imported
where anything is guarded. So the symbols that a token imports tell which features it has, and
how access is controlled if it is.

## Main definitions

* `FunctionTemplate.callSymbol` — the symbol that an entry point calls.
* `TokenOptions.isGuarded` — is there an entry point with an access guard?

## Main results

* `TokenOptions.exists_needs_callSymbol_iff` — an imported call tells of its entry point.
* `TokenOptions.exists_needs_guardSymbol_iff` — an imported guard tells of its mode.
* `TokenOptions.features_eq_of_needs` — tokens that import the same symbols have the same features.
-/

namespace CairoForge

/-- The symbol that an entry point calls: the function of its name in its base module. -/
def FunctionTemplate.callSymbol (template : FunctionTemplate) : String :=
  template.base?.getD "" ++ "_" ++ template.name

/-! ## Symbols apart -/

namespace EntryPoint

theorem eq_of_callSymbol_eq {s t : FunctionTemplate} (hs : s ∈ all) (ht : t ∈ all)
    (h : s.callSymbol = t.callSymbol) : s = t :=
  Registry.eq_of_key_eq_of_nodup (by decide +kernel) hs ht h

/-- No entry point calls an initializer or a symbol that is imported with its module. -/
theorem callSymbol_notMem_library {template : FunctionTemplate} (h : template ∈ all)
    {base : BaseModule} (hbase : base ∈ BaseModule.library) :
    template.callSymbol ∉ base.initializerSymbol :: base.symbols := by
  have hall : ∀ base ∈ BaseModule.library, ∀ template ∈ all,
      template.callSymbol ∉ base.initializerSymbol :: base.symbols := by
    decide +kernel
  exact hall base hbase template h

end EntryPoint

/-- What a module is always imported with belongs to no other module, and is no initializer. -/
theorem BaseModule.eq_of_mem_symbols {base other : BaseModule} (hbase : base ∈ library)
    (hother : other ∈ library) {symbol : String} (h : symbol ∈ base.symbols)
    (h' : symbol ∈ other.initializerSymbol :: other.symbols) : base = other := by
  have hall : ∀ base ∈ library, ∀ other ∈ library, ∀ symbol ∈ base.symbols,
      symbol ∈ other.initializerSymbol :: other.symbols → base = other := by
    decide +kernel
  exact hall base hbase other hother symbol h h'

/-! ## Modes -/

/-- The symbol that the guards of a mode call. -/
def AccessMode.guardSymbol : AccessMode → String
  | ownable => "Ownable_only_owner"
  | roles => "AccessControl_only_role"

/-- The mode in which a mixin guards entry points, if it does. -/
def Mixin.mode? : Mixin → Option AccessMode
  | snapshots mode => some mode
  | minting mode => some mode
  | pausing mode _ => some mode
  | upgrading upgradeable mode => if upgradeable then some mode else none
  | _ => none

/-- A mixin adds the base module of the mode in which it guards, and of no other one. -/
theorem Mixin.any_additions_mode (mixin : Mixin) (mode : AccessMode) :
    mixin.additions.any (·.base.name == mode.parent.base.name) = (mixin.mode? == some mode) := by
  cases mixin with
  | snapshots mode' => cases mode <;> cases mode' <;> decide
  | minting mode' => cases mode <;> cases mode' <;> decide
  | pausing mode' entries => cases mode <;> cases mode' <;> rfl
  | upgrading upgradeable mode' =>
    cases upgradeable <;> cases mode <;> cases mode' <;> decide
  | permit name => cases mode <;> rfl
  | metadata info => cases mode <;> rfl
  | _ => cases mode <;> decide

namespace TokenOptions

variable {o : TokenOptions}

section

variable (h : o.validate = .ok ())
include h

/-- **What a token imports**: initializers, what its modules are always imported with, and what its
entry points call. -/
theorem needs_cases {path symbol : String} (hneeds : o.assembled.Needs path symbol) :
    (∃ base ∈ BaseModule.library, o.assembled.hasParent base.name = true ∧
        symbol ∈ base.initializerSymbol :: base.symbols) ∨
      ∃ template ∈ o.entryPoints, symbol = template.callSymbol := by
  have hclosed := (composed_assembled h).closed
  have hlibrary : ∀ p ∈ o.assembled.parents, p.base ∈ BaseModule.library := fun p hp =>
    (hclosed.known p (Contract.mem_parents.mp hp)).1
  cases hneeds with
  | @initializer p hp =>
    exact .inl ⟨p.base, hlibrary p hp, Contract.hasParent_iff.mpr ⟨p, hp, rfl⟩,
      List.mem_cons_self⟩
  | used huses =>
    cases huses with
    | @declared p _ hp hpath hsymbol =>
      exact .inl ⟨p.base, hlibrary p hp, Contract.hasParent_iff.mpr ⟨p, hp, rfl⟩,
        List.mem_cons_of_mem _ hsymbol⟩
    | @called function p hfunction hp hpath hbase =>
      refine .inr ⟨function.template, (exists_function_iff h).mp ⟨function, hfunction, rfl⟩, ?_⟩
      rw [FunctionTemplate.callSymbol, hbase]
      rfl
    | attached ha =>
      -- a composed contract has no attached libraries
      rw [hclosed.attachments] at ha
      cases ha

/-- **An imported call tells of its entry point.** -/
theorem exists_needs_callSymbol_iff {template : FunctionTemplate}
    (htemplate : template ∈ EntryPoint.all) :
    (∃ path, o.assembled.Needs path template.callSymbol) ↔ template ∈ o.entryPoints := by
  constructor
  · rintro ⟨path, hneeds⟩
    rcases needs_cases h hneeds with ⟨base, hbase, -, hsymbol⟩ | ⟨other, hother, hsymbol⟩
    · exact absurd hsymbol (EntryPoint.callSymbol_notMem_library htemplate hbase)
    · rwa [EntryPoint.eq_of_callSymbol_eq htemplate (subset_all hother) hsymbol]
  · intro hmem
    obtain ⟨function, hfunction, rfl⟩ := (exists_function_iff h).mpr hmem
    obtain ⟨base, hbase, -⟩ := statements_eq h hfunction
    -- what a function calls is in a base module of the token
    have hparent := ((composed_assembled h).closed.functions function hfunction).call base hbase
    obtain ⟨p, hp, rfl⟩ := Contract.hasParent_iff.mp hparent
    refine ⟨p.base.importPath, ?_⟩
    rw [FunctionTemplate.callSymbol, hbase]
    exact .used (.called hfunction hp rfl hbase)

/-- What a module is always imported with tells of the module. -/
theorem exists_needs_symbol_iff {base : BaseModule} (hbase : base ∈ BaseModule.library)
    {symbol : String} (hsymbol : symbol ∈ base.symbols) :
    (∃ path, o.assembled.Needs path symbol) ↔ o.assembled.hasParent base.name = true := by
  constructor
  · rintro ⟨path, hneeds⟩
    rcases needs_cases h hneeds with ⟨other, hother, hparent, hmem⟩ | ⟨template, htemplate, rfl⟩
    · rwa [BaseModule.eq_of_mem_symbols hbase hother hsymbol hmem]
    · exact absurd (List.mem_cons_of_mem _ hsymbol)
        (EntryPoint.callSymbol_notMem_library (subset_all htemplate) hbase)
  · intro hparent
    obtain ⟨p, hp, rfl⟩ := (composed_assembled h).closed.exists_parent hbase hparent
    exact ⟨p.base.importPath, .used (.declared hp rfl hsymbol)⟩

end

/-! ## Features -/

/-- The features of a token, each with an entry point that no other feature has. -/
def features : List (FunctionTemplate × (TokenOptions → Bool)) :=
  [(EntryPoint.burn, burnable), (EntryPoint.snapshot, snapshots), (.pause, pausable),
    (EntryPoint.mint, mintable), (EntryPoint.permit, permit), (EntryPoint.delegate, votes),
    (EntryPoint.flashLoan, flashmint), (.upgrade, fun o => o.shared.upgradeable)]

/-- The entry point of a feature is there when the feature is chosen. -/
theorem mem_entryPoints_iff_of_mem_features {feature : FunctionTemplate × (TokenOptions → Bool)}
    (hfeature : feature ∈ features) (o : TokenOptions) :
    feature.1 ∈ o.entryPoints ↔ feature.2 o = true := by
  simp only [features, List.mem_cons, List.not_mem_nil, or_false] at hfeature
  rcases hfeature with rfl | rfl | rfl | rfl | rfl | rfl | rfl | rfl <;>
    simp +decide only [entryPoints, List.mem_append, List.mem_ite_nil_right, and_true, and_false,
      or_false, false_or]

/-! ## Access -/

/-- Is there an entry point that only the owner or the holders of a role may call? -/
def isGuarded (o : TokenOptions) : Bool :=
  o.snapshots || o.mintable || o.pausable || o.shared.upgradeable

/-- **The base module of an access mode** is there when something is guarded in this mode. -/
theorem hasParent_mode_iff (h : o.validate = .ok ()) {mode : AccessMode} :
    o.assembled.hasParent mode.parent.base.name = true ↔
      o.isGuarded = true ∧ o.shared.access = mode := by
  have hadded : o.assembled.hasParent mode.parent.base.name =
      o.mixins.any fun mixin => mixin.additions.any (·.base.name == mode.parent.base.name) := by
    have hbase : o.baseContract.hasParent mode.parent.base.name = false := by
      rw [Bool.eq_false_iff]
      intro hparent
      have htoken := @Contract.hasParent_addTokenBase_new o.name
        [EntryPoint.wide "initial_supply", EntryPoint.felt "recipient"] o _ hparent
      cases mode <;> exact absurd htoken (by decide)
    rw [assembled, Contract.hasParent, Mixin.parentRegistry_foldl (allAccepted_mixins h),
      Registry.contains_foldl_put, List.any_flatMap]
    exact (congrArg (_ || ·) hbase).trans (Bool.or_false _)
  simp only [hadded, Mixin.any_additions_mode, mixins, mixinsBeforeVotes, mixinsAfterVotes,
    List.any_append, List.any_cons, List.any_nil, Bool.or_false, Mixin.mode?,
    isGuarded]
  cases o.snapshots <;> cases o.mintable <;> cases o.pausable <;> cases o.shared.upgradeable <;>
    simp

/-- **An imported guard tells of its mode.** -/
theorem exists_needs_guardSymbol_iff (h : o.validate = .ok ()) {mode : AccessMode} :
    (∃ path, o.assembled.Needs path mode.guardSymbol) ↔
      o.isGuarded = true ∧ o.shared.access = mode := by
  have hmodule : mode.parent.base ∈ BaseModule.library ∧
      mode.guardSymbol ∈ mode.parent.base.symbols := by
    cases mode <;> decide
  rw [exists_needs_symbol_iff h hmodule.1 hmodule.2, hasParent_mode_iff h]

/-- **Tokens that import the same symbols have the same features**, and the same access mode if
anything in them is guarded. -/
theorem features_eq_of_needs {o' : TokenOptions} (h : o.validate = .ok ())
    (h' : o'.validate = .ok ())
    (hneeds : ∀ symbol, (∃ path, o.assembled.Needs path symbol) ↔
      ∃ path, o'.assembled.Needs path symbol) :
    (∀ feature ∈ features, feature.2 o = feature.2 o') ∧
      (o.isGuarded = true → o.shared.access = o'.shared.access) := by
  refine ⟨fun feature hfeature => ?_, fun hguarded => ?_⟩
  · have hall : ∀ template ∈ features.map Prod.fst, template ∈ EntryPoint.all := by decide
    have htemplate := hall _ (List.mem_map_of_mem hfeature)
    rw [Bool.eq_iff_iff, ← mem_entryPoints_iff_of_mem_features hfeature o,
      ← mem_entryPoints_iff_of_mem_features hfeature o', ← exists_needs_callSymbol_iff h htemplate,
      ← exists_needs_callSymbol_iff h' htemplate]
    exact hneeds _
  · have hguard := (exists_needs_guardSymbol_iff h).mpr ⟨hguarded, rfl⟩
    exact ((exists_needs_guardSymbol_iff h').mp ((hneeds _).mp hguard)).2.symm

end TokenOptions

end CairoForge
