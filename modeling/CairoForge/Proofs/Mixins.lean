import CairoForge.Proofs.FunctionHistory
import CairoForge.Token.Assembly

/-!
# Mixins

A token is its base with mixins on top of it. Each mixin does one thing to the functions of a
contract, wherever it stands in the sequence, and the assembly of a token from its options is one
such sequence.

## Main definitions

* `Mixin`, `Mixin.apply` — the mixins, and the contract that one leaves.
* `Mixin.operations`, `Mixin.events` — a mixin as a run, and what it does to functions.
* `TokenOptions.mixins` — the mixins that options ask for, in order of assembly.

## Main results

* `Mixin.apply_eq_run` — a mixin is a run of operations.
* `Mixin.functionRegistry_apply`, `Mixin.parentRegistry_apply` — the functions and the base
  modules that a mixin leaves.
* `TokenOptions.build_eq` — valid options are assembled, by their mixins.
-/

namespace CairoForge

/-- What a token can have on top of its base. -/
inductive Mixin where
  | burning
  | snapshots (mode : AccessMode)
  | minting (mode : AccessMode)
  | permit (name : String)
  /-- Refused without `permit`, and then without effect. -/
  | votes
  | flashMint
  | pausing (mode : AccessMode) (entries : List FunctionTemplate)
  | upgrading (upgradeable : Bool) (mode : AccessMode)
  | metadata (info : Metadata)

namespace Mixin

/-- What a mixin leaves of a contract; a refused one leaves it as it was. -/
def apply (c : Contract) : Mixin → Contract
  | burning => c.addBurning
  | snapshots mode => c.addSnapshots mode
  | minting mode => c.addMinting mode
  | permit name => c.addPermit name
  | votes => c.addVotes.toOption.getD c
  | flashMint => c.addFlashMint
  | pausing mode entries => c.makePausable mode entries
  | upgrading upgradeable mode => c.makeUpgradeable upgradeable mode
  | metadata info => (c.describe info).toOption.getD c

/-- The templates that a mixin mentions, in order, each with what is to happen to its function. -/
def events : Mixin → List (FunctionTemplate × FunctionEvent)
  | burning => [(EntryPoint.burn, .mention)]
  | snapshots mode =>
    [(EntryPoint.snapshot, .attach (mode.guardStatement "SNAPSHOT")),
      (EntryPoint.balanceOfAt, .mention)]
  | minting mode => [(EntryPoint.mint, .attach (mode.guardStatement "MINTER"))]
  | permit _ => [(EntryPoint.permit, .mention), (EntryPoint.nonces, .mention)]
  | votes =>
    [(EntryPoint.delegate, .mention), (EntryPoint.delegates, .mention),
      (EntryPoint.getVotes, .mention)]
  | flashMint => [(EntryPoint.flashLoan, .mention), (EntryPoint.maxFlashLoan, .mention)]
  | pausing mode entries => (Operation.makePausable mode entries).events
  | upgrading upgradeable mode => (Operation.makeUpgradeable upgradeable mode).events
  | metadata _ => []

/-- The operations that a mixin consists of. -/
def operations : Mixin → List Operation
  | burning => [.addParent .erc20Burnable [], .addFunction EntryPoint.burn]
  | snapshots mode =>
    [.addParent .erc20Snapshot [], .restrict EntryPoint.snapshot mode "SNAPSHOT",
      .addFunction EntryPoint.balanceOfAt]
  | minting mode => [.restrict EntryPoint.mint mode "MINTER"]
  | permit name =>
    [.addParent .erc20Permit [.text name], .addFunction EntryPoint.permit,
      .addFunction EntryPoint.nonces]
  | votes =>
    [.addParent .erc20Votes [], .addFunction EntryPoint.delegate,
      .addFunction EntryPoint.delegates, .addFunction EntryPoint.getVotes]
  | flashMint =>
    [.addParent .erc20FlashMint [], .addFunction EntryPoint.flashLoan,
      .addFunction EntryPoint.maxFlashLoan]
  | pausing mode entries => [.makePausable mode entries]
  | upgrading upgradeable mode => [.makeUpgradeable upgradeable mode]
  | metadata info => [.describe info]

/-- The base modules that a mixin adds, in order. -/
def additions : Mixin → List Parent
  | burning => [⟨.erc20Burnable, []⟩]
  | snapshots mode => [⟨.erc20Snapshot, []⟩, mode.parent]
  | minting mode => [mode.parent]
  | permit name => [⟨.erc20Permit, [.text name]⟩]
  | votes => [⟨.erc20Votes, []⟩]
  | flashMint => [⟨.erc20FlashMint, []⟩]
  | pausing mode _ => [⟨.pausable, []⟩, mode.parent, mode.parent]
  | upgrading upgradeable mode =>
    if upgradeable then
      [⟨.initializable, []⟩, mode.parent, ⟨.proxy, [.literal "owner"]⟩]
    else []
  | metadata _ => []

/-- Nothing is refused but votes without `permit`. -/
def Accepted (c : Contract) (mixin : Mixin) : Prop :=
  mixin = .votes → c.hasParent "ERC20Permit" = true

end Mixin

/-! ## What a mixin leaves -/

namespace Contract

theorem addFunctions_eq (c : Contract) (templates : List FunctionTemplate) :
    c.addFunctions templates =
      { c with
        functionRegistry :=
          (templates.map fun template => (template, FunctionEvent.mention)).foldl writeEvent
            c.functionRegistry } := by
  induction templates generalizing c with
  | nil => rfl
  | cons template rest ih => exact ih _

/-- The base of a token is one base module and functions that are mentioned. -/
theorem addTokenBase_eq (c : Contract) (o : TokenOptions) :
    c.addTokenBase o =
      { c with
        parentRegistry := c.parentRegistry.put
          ⟨.erc20, [.text o.name, .text o.symbol, .number (.ofNat o.decimals.toNat),
            .literal "initial_supply", .literal "recipient"]⟩
        functionRegistry :=
          (EntryPoint.standard.map fun template => (template, FunctionEvent.mention)).foldl
            writeEvent c.functionRegistry } :=
  addFunctions_eq _ _

theorem addVotes_eq_ok {c : Contract} (h : c.hasParent "ERC20Permit" = true) :
    c.addVotes = .ok ((c.addParent .erc20Votes []).2.addFunctions
      [EntryPoint.delegate, EntryPoint.delegates, EntryPoint.getVotes]) :=
  if_pos h

end Contract

namespace Mixin

/-- A refused mixin is without effect. -/
theorem apply_eq_self {c : Contract} {mixin : Mixin} (h : ¬ mixin.Accepted c) :
    mixin.apply c = c := by
  obtain ⟨rfl, hparent⟩ := Classical.not_imp.mp h
  have herror : c.addVotes = .error _ := if_neg hparent
  rw [apply, herror]
  rfl

/-- **A mixin is a run** of operations, as long as it is not refused. -/
theorem apply_eq_run {c : Contract} {mixin : Mixin} (h : mixin.Accepted c) :
    mixin.apply c = c.run mixin.operations := by
  cases mixin with
  | votes =>
    -- accepted, so the check for `permit` passes
    rw [apply, Contract.addVotes_eq_ok (h rfl)]
    rfl
  | metadata info =>
    have hrun : c.run (metadata info).operations =
        (Operation.orUnchanged c (c.describe info)).contract := rfl
    rw [hrun, apply, Contract.describe_eq]
    rfl
  | _ => rfl

/-- **The functions that a mixin leaves** are those of its events. -/
theorem functionRegistry_apply {c : Contract} {mixin : Mixin} (h : mixin.Accepted c) :
    (mixin.apply c).functionRegistry = mixin.events.foldl writeEvent c.functionRegistry := by
  -- mixins that only mention functions agree with their events by computation
  cases mixin with
  | burning => rfl
  | snapshots mode =>
    rw [apply, Contract.addSnapshots, Contract.functionRegistry_addFunction,
      Contract.functionRegistry_restrict]
    rfl
  | minting mode => exact Contract.functionRegistry_restrict _ _ _ _
  | permit name => rfl
  | votes =>
    rw [apply, Contract.addVotes_eq_ok (h rfl)]
    rfl
  | flashMint => rfl
  | pausing mode entries => exact Contract.functionRegistry_makePausable _ _ _
  | upgrading upgradeable mode => exact Contract.functionRegistry_makeUpgradeable _ _ _
  | metadata info =>
    rw [apply, Contract.describe_eq]
    rfl

/-- **The base modules that a mixin leaves** are those that it adds. -/
theorem parentRegistry_apply {c : Contract} {mixin : Mixin} (h : mixin.Accepted c) :
    (mixin.apply c).parentRegistry = mixin.additions.foldl Registry.put c.parentRegistry := by
  -- a guard adds the module of its mode, and modifiers add none
  cases mixin with
  | burning => rfl
  | snapshots mode =>
    simp only [apply, Contract.addSnapshots, Contract.restrict_eq]
    rfl
  | minting mode =>
    rw [apply, Contract.addMinting, Contract.restrict_eq]
    rfl
  | permit name => rfl
  | votes =>
    rw [apply, Contract.addVotes_eq_ok (h rfl)]
    rfl
  | flashMint => rfl
  | pausing mode entries =>
    simp only [apply, Contract.makePausable, Contract.restrict_eq, Contract.addModifiers_eq]
    rfl
  | upgrading upgradeable mode =>
    cases upgradeable with
    | false => rfl
    | true =>
      simp only [apply, Contract.makeUpgradeable, Contract.restrict_eq, if_true]
      rfl
  | metadata info =>
    rw [apply, Contract.describe_eq]
    rfl

/-- The names of the base modules that a mixin leaves. -/
theorem hasParent_apply_iff {c : Contract} {mixin : Mixin} (h : mixin.Accepted c)
    {name : String} :
    (mixin.apply c).hasParent name = true ↔
      (∃ p ∈ mixin.additions, p.base.name = name) ∨ c.hasParent name = true := by
  rw [Contract.hasParent, parentRegistry_apply h, Registry.contains_foldl_put,
    Bool.or_eq_true_iff, List.any_eq_true]
  simp only [beq_iff_eq]
  rfl

theorem hasParent_of_mem_additions {c : Contract} {mixin : Mixin} (h : mixin.Accepted c)
    {p : Parent} (hp : p ∈ mixin.additions) : (mixin.apply c).hasParent p.base.name = true :=
  (hasParent_apply_iff h).mpr (.inl ⟨p, hp, rfl⟩)

theorem hasParent_apply {c : Contract} (mixin : Mixin) {name : String}
    (h : c.hasParent name = true) : (mixin.apply c).hasParent name = true := by
  by_cases haccepted : mixin.Accepted c
  · exact (hasParent_apply_iff haccepted).mpr (.inr h)
  · rwa [apply_eq_self haccepted]

/-- No mixin of a sequence is refused. -/
def AllAccepted (c : Contract) : List Mixin → Prop
  | [] => True
  | mixin :: rest => mixin.Accepted c ∧ AllAccepted (mixin.apply c) rest

theorem allAccepted_append {c : Contract} {first second : List Mixin} :
    AllAccepted c (first ++ second) ↔
      AllAccepted c first ∧ AllAccepted (first.foldl apply c) second := by
  induction first generalizing c with
  | nil => simp [AllAccepted]
  | cons mixin rest ih => simp only [List.cons_append, AllAccepted, ih, List.foldl_cons, and_assoc]

theorem allAccepted_of_votes_not_mem {c : Contract} {mixins : List Mixin}
    (h : .votes ∉ mixins) : AllAccepted c mixins := by
  induction mixins generalizing c with
  | nil => trivial
  | cons mixin rest ih =>
    obtain ⟨hne, hrest⟩ := List.ne_and_not_mem_of_not_mem_cons h
    exact ⟨fun he => absurd he.symm hne, ih hrest⟩

/-- A sequence of mixins is a run. -/
theorem foldl_apply_eq_run {c : Contract} {mixins : List Mixin} (h : AllAccepted c mixins) :
    mixins.foldl apply c = c.run (mixins.flatMap operations) := by
  induction mixins generalizing c with
  | nil => rfl
  | cons mixin rest ih =>
    rw [List.foldl_cons, ih h.2, List.flatMap_cons, Contract.run_append, apply_eq_run h.1]

theorem functionRegistry_foldl {c : Contract} {mixins : List Mixin} (h : AllAccepted c mixins) :
    (mixins.foldl apply c).functionRegistry =
      (mixins.flatMap events).foldl writeEvent c.functionRegistry := by
  induction mixins generalizing c with
  | nil => rfl
  | cons mixin rest ih =>
    rw [List.foldl_cons, ih h.2, List.flatMap_cons, List.foldl_append, functionRegistry_apply h.1]

theorem parentRegistry_foldl {c : Contract} {mixins : List Mixin} (h : AllAccepted c mixins) :
    (mixins.foldl apply c).parentRegistry =
      (mixins.flatMap additions).foldl Registry.put c.parentRegistry := by
  induction mixins generalizing c with
  | nil => rfl
  | cons mixin rest ih =>
    rw [List.foldl_cons, ih h.2, List.flatMap_cons, List.foldl_append, parentRegistry_apply h.1]

/-- The base modules that a sequence adds are there. -/
theorem hasParent_foldl {c : Contract} {mixins : List Mixin} (h : AllAccepted c mixins)
    {mixin : Mixin} (hmixin : mixin ∈ mixins) {p : Parent} (hp : p ∈ mixin.additions) :
    (mixins.foldl apply c).hasParent p.base.name = true := by
  rw [Contract.hasParent, parentRegistry_foldl h, Registry.contains_foldl_put]
  have hadded : p ∈ mixins.flatMap additions := List.mem_flatMap.mpr ⟨mixin, hmixin, hp⟩
  exact Bool.or_eq_true_iff.mpr (.inl (List.any_eq_true.mpr ⟨p, hadded, by simp⟩))

end Mixin

/-! ## Assembly by mixins -/

namespace TokenOptions

/-- The mixins up to `permit`. -/
def mixinsBeforeVotes (o : TokenOptions) : List Mixin :=
  (if o.burnable then [.burning] else []) ++
    (if o.snapshots then [.snapshots o.shared.access] else []) ++
    (if o.mintable then [.minting o.shared.access] else []) ++
    (if o.permit then [.permit o.name] else [])

/-- The mixins behind `votes`. -/
def mixinsAfterVotes (o : TokenOptions) : List Mixin :=
  (if o.flashmint then [.flashMint] else []) ++
    (if o.pausable then [.pausing o.shared.access o.pausedEntryPoints] else []) ++
    [.upgrading o.shared.upgradeable o.shared.access, .metadata o.shared.info]

/-- The mixins that options ask for, in order of assembly. -/
def mixins (o : TokenOptions) : List Mixin :=
  o.mixinsBeforeVotes ++ (if o.votes then [.votes] else []) ++ o.mixinsAfterVotes

/-- The base of the token that options ask for. -/
def baseContract (o : TokenOptions) : Contract :=
  (((Contract.new o.name).addConstructorArg (EntryPoint.wide "initial_supply")).addConstructorArg
    (EntryPoint.felt "recipient")).addTokenBase o

/-- The contract that options ask for. -/
def assembled (o : TokenOptions) : Contract :=
  o.mixins.foldl Mixin.apply o.baseContract

theorem foldl_apply_ite (asked : Bool) (mixin : Mixin) (c : Contract) :
    (if asked then [mixin] else []).foldl Mixin.apply c = if asked then mixin.apply c else c := by
  cases asked <;> rfl

/-- Valid options ask for votes only with `permit`. -/
theorem permit_of_votes {o : TokenOptions} (h : o.validate = .ok ()) (hvotes : o.votes = true) :
    o.permit = true := by
  obtain ⟨-, -, hproblem⟩ := validate_eq_ok_iff.mp h
  simpa [votesProblem?, hvotes] using hproblem

theorem hasParent_permit {o : TokenOptions} (h : o.permit = true) :
    (o.mixinsBeforeVotes.foldl Mixin.apply o.baseContract).hasParent "ERC20Permit" = true := by
  have haccepted : ∀ c, (Mixin.permit o.name).Accepted c := fun _ he => by cases he
  rw [mixinsBeforeVotes, h, List.foldl_append]
  exact Mixin.hasParent_of_mem_additions (haccepted _) (List.mem_singleton_self _)

/-- Valid options ask for nothing that is refused. -/
theorem allAccepted_mixins {o : TokenOptions} (h : o.validate = .ok ()) :
    Mixin.AllAccepted o.baseContract o.mixins := by
  rw [mixins, Mixin.allAccepted_append, Mixin.allAccepted_append]
  -- before and behind votes there is nothing that could be refused
  refine ⟨⟨Mixin.allAccepted_of_votes_not_mem ?_, ?_⟩, Mixin.allAccepted_of_votes_not_mem ?_⟩
  · simp [mixinsBeforeVotes]
  · split
    · next hvotes => exact ⟨fun _ => hasParent_permit (permit_of_votes h hvotes), trivial⟩
    · trivial
  · simp [mixinsAfterVotes]

/-- The steps of assembly up to `permit`. -/
theorem foldl_mixinsBeforeVotes (o : TokenOptions) :
    o.mixinsBeforeVotes.foldl Mixin.apply o.baseContract =
      let c := o.baseContract
      let c := if o.burnable then c.addBurning else c
      let c := if o.snapshots then c.addSnapshots o.shared.access else c
      let c := if o.mintable then c.addMinting o.shared.access else c
      if o.permit then c.addPermit o.name else c := by
  simp only [mixinsBeforeVotes, List.foldl_append, foldl_apply_ite, Mixin.apply]

/-- The steps of assembly behind `votes`; a description is never refused. -/
theorem foldl_mixinsAfterVotes (o : TokenOptions) (c : Contract) :
    Except.ok (o.mixinsAfterVotes.foldl Mixin.apply c) =
      (let c := if o.flashmint then c.addFlashMint else c
      let c := if o.pausable then c.makePausable o.shared.access o.pausedEntryPoints else c
      let c := c.makeUpgradeable o.shared.upgradeable o.shared.access
      c.describe o.shared.info : Except Refusal Contract) := by
  simp only [mixinsAfterVotes, List.foldl_append, foldl_apply_ite, List.foldl_cons,
    List.foldl_nil, Mixin.apply, Contract.describe_eq]
  rfl

/-- **Assembly by mixins**: valid options are never refused later. -/
theorem build_eq {o : TokenOptions} (h : o.validate = .ok ()) : o.build = .ok o.assembled := by
  set before := o.mixinsBeforeVotes.foldl Mixin.apply o.baseContract with hbefore
  -- the only step that could be refused is the one for votes
  have hvotes : (if o.votes then before.addVotes else .ok before) =
      .ok ((if o.votes then [.votes] else []).foldl Mixin.apply before) := by
    split
    · next hasked =>
      have hok := Contract.addVotes_eq_ok (hasParent_permit (permit_of_votes h hasked))
      rw [List.foldl_cons, List.foldl_nil, Mixin.apply, hok]
      rfl
    · rfl
  -- every other step of the assembly is a mixin as it stands
  have hsteps : o.build =
      (if o.votes then before.addVotes else .ok before).bind fun c =>
        .ok (o.mixinsAfterVotes.foldl Mixin.apply c) := by
    rw [hbefore, foldl_mixinsBeforeVotes]
    simp only [foldl_mixinsAfterVotes]
    unfold build
    rw [h]
    cases o.votes <;> rfl
  rw [hsteps, hvotes, assembled, mixins, List.foldl_append, List.foldl_append]
  rfl

end TokenOptions

end CairoForge
