import CairoForge.Proofs.Mixins
import CairoForge.Source.Document

/-!
# Composed contracts

The contracts that mixins make of the base of a token, in any order and number. In all of them,
what functions, guards and grants rely on is there: the base modules behind them are base modules
of the contract.

## Main definitions

* `Composed` — a contract made by mixins.
* `Guard` — what a guard calls, and the base module that provides it.
* `Contract.Closed` — nothing that a contract relies on is missing.
* `Contract.Used` — no base module with a guard is there without the guard.

## Main results

* `Contract.Closed.apply`, `Contract.Used.apply` — what one mixin preserves.
* `Composed.closed`, `TokenOptions.used_assembled` — what whole compositions have.
* `Composed.exists_run` — compositions are among the contracts that runs of operations reach.
-/

namespace CairoForge

/-! ## The library -/

/-- The modules that a token and its mixins build on. -/
def BaseModule.library : List BaseModule :=
  [.erc20, .erc20Burnable, .erc20Snapshot, .erc20Permit, .erc20Votes, .erc20FlashMint, .ownable,
    .accessControl, .pausable, .initializable, .proxy]

/-- A name stands for one module of the library. -/
theorem BaseModule.eq_of_name_eq {a b : BaseModule} (ha : a ∈ library) (hb : b ∈ library)
    (h : a.name = b.name) : a = b :=
  Registry.eq_of_key_eq_of_nodup (by decide) ha hb h

/-- A module of the library whose initializer can be called. -/
def Parent.Known (p : Parent) : Prop :=
  p.base ∈ BaseModule.library ∧ ∃ call, p.initializerCall = .ok call

/-- What a guard calls: the name of a base module, and the symbol of it. -/
inductive Guard : String → String → String → Prop
  | owner : Guard "Ownable_only_owner()" "Ownable" "Ownable_only_owner"
  | role (constant : String) :
      Guard ("AccessControl_only_role(" ++ constant ++ ")") "AccessControl"
        "AccessControl_only_role"
  | notPaused : Guard notPausedGuard "Pausable" "Pausable_when_not_paused"

/-- The modules that provide guards, each with its symbol. -/
def Guard.providers : List (String × String) :=
  [("Ownable", "Ownable_only_owner"), ("AccessControl", "AccessControl_only_role"),
    ("Pausable", "Pausable_when_not_paused")]

theorem Guard.provider {guard base symbol : String} (h : Guard guard base symbol) :
    (base, symbol) ∈ providers := by
  cases h <;> decide

theorem Guard.symbol_unique {guard guard' base symbol symbol' : String}
    (h : Guard guard base symbol) (h' : Guard guard' base symbol') : symbol = symbol' := by
  have hall : ∀ first ∈ providers, ∀ second ∈ providers,
      first.1 = second.1 → first.2 = second.2 := by decide
  exact hall _ h.provider _ h'.provider rfl

/-- What a guard calls is a symbol that its module always has. -/
theorem Guard.exists_module {guard base symbol : String} (h : Guard guard base symbol) :
    ∃ module ∈ BaseModule.library, module.name = base ∧ symbol ∈ module.symbols := by
  cases h with
  | owner => exact ⟨.ownable, by decide, rfl, by decide⟩
  | role constant => exact ⟨.accessControl, by decide, rfl, by decide⟩
  | notPaused => exact ⟨.pausable, by decide, rfl, by decide⟩

/-- A guard calls one module: its first letter tells which. -/
theorem Guard.base_unique {guard base symbol base' symbol' : String} (h : Guard guard base symbol)
    (h' : Guard guard base' symbol') : base = base' := by
  -- a guard starts with the name of its module
  have hletter : ∀ {guard base symbol}, Guard guard base symbol →
      guard.toList.head? = base.toList.head? := by
    intro guard base symbol hguard
    cases hguard with
    | role constant => rw [String.toList_append, String.toList_append]; rfl
    | owner => rfl
    | notPaused => rfl
  have hall : ∀ first ∈ providers, ∀ second ∈ providers,
      first.1.toList.head? = second.1.toList.head? → first.1 = second.1 := by decide
  exact hall _ h.provider _ h'.provider ((hletter h).symm.trans (hletter h'))

/-- The guard of a mode calls a symbol of the module of the mode. -/
theorem AccessMode.guard_guardStatement (mode : AccessMode) (role : String) :
    ∃ symbol, Guard (mode.guardStatement role) mode.parent.base.name symbol := by
  cases mode with
  | ownable => exact ⟨_, .owner⟩
  | roles => exact ⟨_, .role (roleConstant role)⟩

theorem AccessMode.known_parent (mode : AccessMode) : mode.parent.Known := by
  cases mode with
  | ownable => exact ⟨by decide, _, rfl⟩
  | roles => exact ⟨by decide, _, rfl⟩

theorem Mixin.known_additions {mixin : Mixin} {p : Parent} (h : p ∈ mixin.additions) :
    p.Known := by
  -- each mixin adds modules of the library, with arguments that can be printed
  cases mixin with
  | burning =>
    obtain rfl := List.mem_singleton.mp h
    exact ⟨by decide, _, rfl⟩
  | snapshots mode =>
    simp only [additions, List.mem_cons, List.not_mem_nil, or_false] at h
    rcases h with rfl | rfl
    · exact ⟨by decide, _, rfl⟩
    · exact mode.known_parent
  | minting mode =>
    obtain rfl := List.mem_singleton.mp h
    exact mode.known_parent
  | permit name =>
    obtain rfl := List.mem_singleton.mp h
    have hlibrary : BaseModule.erc20Permit ∈ BaseModule.library := by decide
    exact ⟨hlibrary, _, rfl⟩
  | votes =>
    obtain rfl := List.mem_singleton.mp h
    exact ⟨by decide, _, rfl⟩
  | flashMint =>
    obtain rfl := List.mem_singleton.mp h
    exact ⟨by decide, _, rfl⟩
  | pausing mode entries =>
    simp only [additions, List.mem_cons, List.not_mem_nil, or_false, or_self] at h
    rcases h with rfl | rfl
    · exact ⟨by decide, _, rfl⟩
    · exact mode.known_parent
  | upgrading upgradeable mode =>
    cases upgradeable with
    | false => cases h
    | true =>
      simp only [additions, if_true, List.mem_cons, List.not_mem_nil, or_false] at h
      rcases h with rfl | rfl | rfl
      · exact ⟨by decide, _, rfl⟩
      · exact mode.known_parent
      · exact ⟨by decide, _, rfl⟩
  | metadata info => cases h

/-! ## Functions and what they rely on -/

/-- A function without code, whose call and guards rely on available base modules only. -/
structure ContractFunction.ReliesOn (available : String → Prop) (function : ContractFunction) :
    Prop where
  body : function.body = .empty
  call : ∀ base, function.template.base? = some base → available base
  guards : ∀ modifier ∈ function.modifiers,
    ∃ base symbol, Guard modifier base symbol ∧ available base

/-- An event that relies on available base modules only. -/
structure FunctionEvent.ReliesOn (available : String → Prop) (template : FunctionTemplate)
    (event : FunctionEvent) : Prop where
  body : event.change? = none
  call : ∀ base, template.base? = some base → available base
  guards : ∀ modifier, event.modifier? = some modifier →
    ∃ base symbol, Guard modifier base symbol ∧ available base

section

variable {available : String → Prop}

theorem ContractFunction.ReliesOn.mono {more : String → Prop} {function : ContractFunction}
    (h : function.ReliesOn available) (hmore : ∀ base, available base → more base) :
    function.ReliesOn more where
  body := h.body
  call base hbase := hmore base (h.call base hbase)
  guards modifier hmodifier := by
    obtain ⟨base, symbol, hguard, hbase⟩ := h.guards modifier hmodifier
    exact ⟨base, symbol, hguard, hmore base hbase⟩

theorem FunctionEvent.ReliesOn.mention {template : FunctionTemplate}
    (h : ∀ base, template.base? = some base → available base) :
    FunctionEvent.mention.ReliesOn available template :=
  ⟨rfl, h, fun _ hnone => nomatch hnone⟩

theorem FunctionEvent.ReliesOn.attach {template : FunctionTemplate} {modifier base symbol : String}
    (hguard : Guard modifier base symbol) (hbase : available base)
    (h : ∀ base, template.base? = some base → available base) :
    (FunctionEvent.attach modifier).ReliesOn available template := by
  refine ⟨rfl, h, ?_⟩
  rintro _ ⟨⟩
  exact ⟨base, symbol, hguard, hbase⟩

/-- An event leaves a function with nothing more than it relies on itself. -/
theorem ContractFunction.ReliesOn.leave {function : ContractFunction} {event : FunctionEvent}
    (h : function.ReliesOn available) (hevent : event.ReliesOn available function.template) :
    (event.leave function).ReliesOn available := by
  cases event with
  | mention => exact h
  | attach modifier =>
    -- the only guard to check is the new one
    refine ⟨h.body, h.call, ?_⟩
    intro other hother
    rcases List.mem_append.mp hother with hold | hnew
    · exact h.guards other hold
    · obtain rfl := List.mem_singleton.mp hnew
      exact hevent.guards other rfl
  | alter change => cases hevent.body

/-- Events that rely on available base modules leave functions that do. -/
theorem reliesOn_foldl_writeEvent
    {functions : Registry ContractFunction ContractFunction.signature}
    {events : List (FunctionTemplate × FunctionEvent)}
    (h : ∀ function ∈ functions.toList, function.ReliesOn available)
    (hevents : ∀ event ∈ events, event.2.ReliesOn available event.1) :
    ∀ function ∈ (events.foldl writeEvent functions).toList, function.ReliesOn available := by
  refine forall_foldl_writeEvent h fun event hevent function => ?_
  obtain ⟨hbody, hcall, hguards⟩ := hevents event hevent
  rintro (hfunction | rfl)
  · exact hfunction.leave ⟨hbody, hfunction.call, hguards⟩
  · have hfresh : ContractFunction.ReliesOn available { template := event.1 } :=
      ⟨rfl, hcall, fun _ hnone => nomatch hnone⟩
    exact hfresh.leave ⟨hbody, hcall, hguards⟩

end

section

variable {functions : Registry ContractFunction ContractFunction.signature} {modifier : String}

/-- An event attaches its own modifier, and takes none away. -/
theorem exists_modifier_writeEvent {event : FunctionTemplate × FunctionEvent} :
    (∃ function ∈ (writeEvent functions event).toList, modifier ∈ function.modifiers) ↔
      (∃ function ∈ functions.toList, modifier ∈ function.modifiers) ∨
        event.2.modifier? = some modifier := by
  set written := event.2.leave (functionAt functions event.1)
  have hwritten : written.modifiers = _ := FunctionEvent.modifiers_leave _ _
  have hmem : written ∈ (writeEvent functions event).toList := Registry.mem_put.mpr (.inl rfl)
  constructor
  · rintro ⟨function, hfunction, hmodifier⟩
    rcases Registry.mem_put.mp hfunction with rfl | ⟨hold, -⟩
    · -- the function of the event has its old modifiers and the new one
      rw [FunctionEvent.modifiers_leave, List.mem_append] at hmodifier
      rcases hmodifier with hold | hnew
      · unfold functionAt at hold
        cases hfind : functions.find? event.1.signature with
        | none =>
          rw [hfind] at hold
          cases hold
        | some found =>
          rw [hfind] at hold
          exact .inl ⟨found, (Registry.find?_eq_some_iff.mp hfind).1, hold⟩
      · exact .inr (by simpa using hnew)
    · exact .inl ⟨function, hold, hmodifier⟩
  · rintro (⟨function, hfunction, hmodifier⟩ | hnew)
    · by_cases hsignature : function.signature = written.signature
      · -- the event is about this very function
        have hsame : functionAt functions event.1 = function := by
          rw [FunctionEvent.signature_leave, signature_functionAt] at hsignature
          rw [functionAt, Registry.find?_eq_some_iff.mpr ⟨hfunction, hsignature⟩]
          rfl
        rw [hsame] at hwritten
        exact ⟨written, hmem, hwritten ▸ List.mem_append_left _ hmodifier⟩
      · exact ⟨function, Registry.mem_put.mpr (.inr ⟨hfunction, hsignature⟩), hmodifier⟩
    · refine ⟨written, hmem, ?_⟩
      rw [hwritten]
      exact List.mem_append_right _ (List.mem_filterMap.mpr ⟨event.2, by simp, hnew⟩)

/-- Events attach their own modifiers, and take none away. -/
theorem exists_modifier_foldl_writeEvent {events : List (FunctionTemplate × FunctionEvent)} :
    (∃ function ∈ (events.foldl writeEvent functions).toList, modifier ∈ function.modifiers) ↔
      (∃ function ∈ functions.toList, modifier ∈ function.modifiers) ∨
        ∃ event ∈ events, event.2.modifier? = some modifier := by
  induction events generalizing functions with
  | nil => simp
  | cons event rest ih =>
    rw [List.foldl_cons, ih, exists_modifier_writeEvent, or_assoc]
    simp only [List.mem_cons, or_and_right, exists_or, exists_eq_left]

end

/-! ## What composition preserves -/

/-- Entry points to be paused have no base module, or one that the contract has. -/
def Mixin.Allowed (c : Contract) : Mixin → Prop
  | pausing _ entries =>
    ∀ entry ∈ entries, ∀ base, entry.base? = some base → c.hasParent base = true
  | _ => True

/-- The events of a mixin rely on base modules that are there once it is applied. -/
theorem Mixin.reliesOn_events {c : Contract} {mixin : Mixin} (h : mixin.Accepted c)
    (hallowed : mixin.Allowed c) (hbase : c.hasParent "ERC20" = true) :
    ∀ event ∈ mixin.events,
      event.2.ReliesOn (fun base => (mixin.apply c).hasParent base = true) event.1 := by
  have hadded : ∀ {p}, p ∈ mixin.additions → (mixin.apply c).hasParent p.base.name = true :=
    hasParent_of_mem_additions h
  have hcall : ∀ {template : FunctionTemplate} {name}, template.base? = some name →
      (mixin.apply c).hasParent name = true →
      ∀ base, template.base? = some base → (mixin.apply c).hasParent base = true := by
    intro template name hname hparent base hbase
    obtain rfl := Option.some.inj (hname.symm.trans hbase)
    exact hparent
  -- each event calls a module that its mixin adds, or the token, and its guard comes with its mode
  cases mixin with
  | burning =>
    have hburnable := hadded (List.mem_singleton_self _)
    rintro _ (_ | ⟨_, ⟨⟩⟩)
    exact .mention (hcall rfl hburnable)
  | snapshots mode =>
    obtain ⟨symbol, hguard⟩ := mode.guard_guardStatement "SNAPSHOT"
    have hsnapshot := hadded (p := ⟨.erc20Snapshot, []⟩) (by simp [additions])
    have hmode := hadded (p := mode.parent) (by simp [additions])
    rintro _ (_ | ⟨_, _ | ⟨_, ⟨⟩⟩⟩)
    · exact .attach hguard hmode (hcall rfl hsnapshot)
    · exact .mention (hcall rfl hsnapshot)
  | minting mode =>
    obtain ⟨symbol, hguard⟩ := mode.guard_guardStatement "MINTER"
    have hmode := hadded (p := mode.parent) (by simp [additions])
    rintro _ (_ | ⟨_, ⟨⟩⟩)
    exact .attach hguard hmode (hcall rfl (hasParent_apply _ hbase))
  | permit name =>
    have hpermit := hadded (List.mem_singleton_self _)
    rintro _ (_ | ⟨_, _ | ⟨_, ⟨⟩⟩⟩)
    · exact .mention (hcall rfl hpermit)
    · exact .mention (hcall rfl hpermit)
  | votes =>
    have hvotes := hadded (List.mem_singleton_self _)
    rintro _ (_ | ⟨_, _ | ⟨_, _ | ⟨_, ⟨⟩⟩⟩⟩)
    · exact .mention (hcall rfl hvotes)
    · exact .mention (hcall rfl hvotes)
    · exact .mention (hcall rfl hvotes)
  | flashMint =>
    have hflash := hadded (List.mem_singleton_self _)
    rintro _ (_ | ⟨_, _ | ⟨_, ⟨⟩⟩⟩)
    · exact .mention (hcall rfl hflash)
    · exact .mention (hcall rfl hflash)
  | pausing mode entries =>
    obtain ⟨symbol, hguard⟩ := mode.guard_guardStatement "PAUSER"
    have hpausable := hadded (p := ⟨.pausable, []⟩) (by simp [additions])
    have hmode := hadded (p := mode.parent) (by simp [additions])
    intro event hevent
    rcases List.mem_append.mp hevent with hentry | hswitch
    · -- an entry point to be paused calls a module that was there before
      obtain ⟨entry, hmem, rfl⟩ := List.mem_map.mp hentry
      exact .attach .notPaused hpausable fun base hbase =>
        hasParent_apply _ (hallowed entry hmem base hbase)
    · revert event
      rintro _ - (_ | ⟨_, _ | ⟨_, _ | ⟨_, ⟨⟩⟩⟩⟩)
      · exact .mention (hcall rfl hpausable)
      · exact .attach hguard hmode (hcall rfl hpausable)
      · exact .attach hguard hmode (hcall rfl hpausable)
  | upgrading upgradeable mode =>
    cases upgradeable with
    | false => exact fun _ hevent => nomatch hevent
    | true =>
      obtain ⟨symbol, hguard⟩ := mode.guard_guardStatement "UPGRADER"
      have hproxy := hadded (p := ⟨.proxy, [.literal "owner"]⟩) (by simp [additions])
      have hmode := hadded (p := mode.parent) (by simp [additions])
      rintro _ (_ | ⟨_, ⟨⟩⟩)
      exact .attach hguard hmode (hcall rfl hproxy)
  | metadata info => exact fun _ hevent => nomatch hevent

/-- The constructor grants roles only, and only with the module of roles behind it; and where that
is, the owner administers the roles. -/
structure Contract.Granted (c : Contract) : Prop where
  grants : ∀ line ∈ c.constructorCode,
    (∃ constant, line = grantStatement constant) ∧ c.hasParent "AccessControl" = true
  administrator : c.hasParent "AccessControl" = true →
    grantStatement "DEFAULT_ADMIN_ROLE" ∈ c.constructorCode

namespace Contract.Granted

variable {c : Contract}

theorem congr {other : Contract} (h : c.Granted)
    (hcode : other.constructorCode = c.constructorCode)
    (hparent : other.hasParent "AccessControl" = c.hasParent "AccessControl") :
    other.Granted := by
  refine ⟨?_, ?_⟩
  · rw [hcode, hparent]
    exact h.grants
  · rw [hcode, hparent]
    exact h.administrator

theorem addParent (h : c.Granted) (base : BaseModule) (params : List Value)
    (hname : base.name ≠ "AccessControl") : (c.addParent base params).2.Granted := by
  refine h.congr rfl ?_
  rw [hasParent_addParent, beq_false_of_ne hname, Bool.false_or]

/-- A guard comes with the grants that it needs. -/
theorem restrict (h : c.Granted) (entry : FunctionTemplate) (mode : AccessMode) (role : String) :
    (c.restrict entry mode role).Granted := by
  have hparent : (c.restrict entry mode role).hasParent "AccessControl" =
      (mode.parent.base.name == "AccessControl" || c.hasParent "AccessControl") := by
    rw [restrict_eq]
    exact c.parentRegistry.contains_put mode.parent "AccessControl"
  have hcode : (c.restrict entry mode role).constructorCode =
      c.constructorCode ++ c.newGrants role mode := by
    rw [restrict_eq]
  cases mode with
  | ownable => exact h.congr (hcode.trans (List.append_nil _)) hparent
  | roles =>
    -- the module of roles is there afterwards, so only the new grants are left to look at
    have htrue : (c.restrict entry .roles role).hasParent "AccessControl" = true := hparent
    refine ⟨?_, fun _ => ?_⟩
    · intro line hline
      refine ⟨?_, htrue⟩
      rw [hcode] at hline
      rcases List.mem_append.mp hline with hold | hnew
      · exact (h.grants line hold).1
      · rcases List.mem_append.mp hnew with hadmin | hrole
        · split at hadmin
          · cases hadmin
          · exact ⟨_, List.mem_singleton.mp hadmin⟩
        · split at hrole
          · cases hrole
          · exact ⟨_, List.mem_singleton.mp hrole⟩
    · rw [hcode]
      by_cases hold : c.hasParent "AccessControl" = true
      · exact List.mem_append_left _ (h.administrator hold)
      · refine List.mem_append_right _ (List.mem_append_left _ ?_)
        rw [if_neg hold]
        exact List.mem_singleton_self _

/-- Every mixin comes with the grants that its guards need. -/
theorem apply (h : c.Granted) (mixin : Mixin) : (mixin.apply c).Granted := by
  -- grants come with `restrict`, and everything else leaves them and the module of roles alone
  cases mixin with
  | burning => exact (h.addParent _ _ (by decide)).congr rfl rfl
  | snapshots mode =>
    have hguarded := (h.addParent .erc20Snapshot [] (by decide)).restrict
      EntryPoint.snapshot mode "SNAPSHOT"
    exact hguarded.congr rfl rfl
  | minting mode => exact h.restrict _ mode _
  | permit name => exact Granted.congr (h.addParent _ _ (by decide)) rfl rfl
  | votes =>
    by_cases hpermit : c.hasParent "ERC20Permit" = true
    · rw [Mixin.apply, addVotes_eq_ok hpermit]
      exact (h.addParent _ _ (by decide)).congr rfl rfl
    · rwa [Mixin.apply_eq_self fun haccepted => hpermit (haccepted rfl)]
  | flashMint => exact (h.addParent _ _ (by decide)).congr rfl rfl
  | pausing mode entries =>
    rw [Mixin.apply, makePausable]
    simp only [addModifiers_eq]
    refine Granted.restrict (Granted.restrict ?_ _ mode _) _ mode _
    exact (h.addParent _ _ (by decide)).congr rfl rfl
  | upgrading upgradeable mode =>
    cases upgradeable with
    | false => exact h
    | true =>
      have hset : (c.setUpgradeable true).Granted := h.congr rfl rfl
      exact (Granted.restrict (hset.addParent _ _ (by decide)) _ mode _).addParent _ _ (by decide)
  | metadata info =>
    rw [Mixin.apply, describe_eq]
    exact h.congr rfl rfl

end Contract.Granted

namespace Mixin

/-- Does the mixin put a contract behind a proxy? -/
def proxies : Mixin → Bool
  | upgrading upgradeable _ => upgradeable
  | _ => false

/-- What mixins leave alone: the attached libraries, and but for one whether a contract stands
behind a proxy. -/
theorem frame_apply (c : Contract) (mixin : Mixin) :
    (mixin.apply c).attachments = c.attachments ∧
      (mixin.apply c).upgradeable = (c.upgradeable || mixin.proxies) := by
  -- only `restrict` and the changes of many functions have to be opened
  cases mixin with
  | snapshots mode =>
    simp only [apply, Contract.addSnapshots, Contract.restrict_eq]
    exact ⟨rfl, (Bool.or_false _).symm⟩
  | minting mode =>
    rw [apply, Contract.addMinting, Contract.restrict_eq]
    exact ⟨rfl, (Bool.or_false _).symm⟩
  | votes =>
    by_cases hpermit : c.hasParent "ERC20Permit" = true
    · rw [apply, Contract.addVotes_eq_ok hpermit]
      exact ⟨rfl, (Bool.or_false _).symm⟩
    · rw [apply_eq_self fun haccepted => hpermit (haccepted rfl)]
      exact ⟨rfl, (Bool.or_false _).symm⟩
  | pausing mode entries =>
    simp only [apply, Contract.makePausable, Contract.restrict_eq, Contract.addModifiers_eq]
    exact ⟨rfl, (Bool.or_false _).symm⟩
  | upgrading upgradeable mode =>
    cases upgradeable with
    | false => exact ⟨rfl, (Bool.or_false _).symm⟩
    | true =>
      simp only [apply, Contract.makeUpgradeable, if_true, Contract.restrict_eq]
      exact ⟨rfl, (Bool.or_true _).symm⟩
  | metadata info =>
    rw [apply, Contract.describe_eq]
    exact ⟨rfl, (Bool.or_false _).symm⟩
  | _ => exact ⟨rfl, (Bool.or_false _).symm⟩

/-- The module that keeps a contract from being initialized twice comes with a proxy only. -/
theorem any_additions_initializable (mixin : Mixin) :
    mixin.additions.any (·.base.name == "Initializable") = mixin.proxies := by
  cases mixin with
  | snapshots mode => cases mode <;> rfl
  | minting mode => cases mode <;> rfl
  | pausing mode entries => cases mode <;> rfl
  | upgrading upgradeable mode => cases upgradeable <;> cases mode <;> rfl
  | _ => rfl

theorem any_additions_token (mixin : Mixin) :
    mixin.additions.any (·.base.name == "ERC20") = false := by
  cases mixin with
  | snapshots mode => cases mode <;> rfl
  | minting mode => cases mode <;> rfl
  | pausing mode entries => cases mode <;> rfl
  | upgrading upgradeable mode => cases upgradeable <;> cases mode <;> rfl
  | _ => rfl

end Mixin

/-- **Nothing that a contract relies on is missing**: its base modules are known and the token is
one of them, its functions and grants rely on its base modules, and it is behind a proxy where it
has the module for that. -/
structure Contract.Closed (c : Contract) : Prop where
  known : ∀ p ∈ c.parentRegistry.toList, p.Known
  token : ∃ p ∈ c.parentRegistry.toList, p.base.name = "ERC20" ∧ p.params ≠ []
  functions : ∀ function ∈ c.functions, function.ReliesOn fun base => c.hasParent base = true
  granted : c.Granted
  proxied : c.hasParent "Initializable" = true → c.upgradeable = true
  attachments : c.attachments = []

namespace Contract.Closed

variable {c : Contract}

theorem hasParent_token (h : c.Closed) : c.hasParent "ERC20" = true := by
  obtain ⟨p, hp, hname, -⟩ := h.token
  exact List.any_eq_true.mpr ⟨p, hp, by simpa using hname⟩

/-- **One more mixin** leaves nothing missing. -/
theorem apply (h : c.Closed) {mixin : Mixin} (hallowed : mixin.Allowed c) :
    (mixin.apply c).Closed := by
  by_cases haccepted : mixin.Accepted c
  · obtain ⟨hattachments, hupgradeable⟩ := mixin.frame_apply c
    refine ⟨?_, ?_, ?_, h.granted.apply mixin, ?_, hattachments.trans h.attachments⟩
    · -- a base module was there before or is one of the additions
      intro p hp
      rw [Mixin.parentRegistry_apply haccepted] at hp
      rcases Registry.mem_of_mem_foldl_put hp with hold | hnew
      · exact h.known p hold
      · exact Mixin.known_additions hnew
    · -- no addition replaces the token, so its arguments stay
      obtain ⟨p, hp, hname, hparams⟩ := h.token
      refine ⟨p, ?_, hname, hparams⟩
      rw [Mixin.parentRegistry_apply haccepted]
      refine Registry.mem_foldl_put_of_mem hp fun added hadded => ?_
      have hother := List.any_eq_false.mp mixin.any_additions_token added hadded
      rw [hname]
      simpa using hother
    · -- old functions rely on base modules that stay, events on those that are there now
      intro function hfunction
      rw [Contract.functions, Mixin.functionRegistry_apply haccepted] at hfunction
      refine reliesOn_foldl_writeEvent ?_
        (Mixin.reliesOn_events haccepted hallowed h.hasParent_token) function hfunction
      intro old hold
      exact (h.functions old hold).mono fun base => Mixin.hasParent_apply mixin
    · -- the module against a second initialization is old, or comes with a proxy
      intro hparent
      rw [hupgradeable, ← mixin.any_additions_initializable]
      rcases (Mixin.hasParent_apply_iff haccepted).mp hparent with ⟨p, hp, hname⟩ | hold
      · refine Bool.or_eq_true_iff.mpr (.inr (List.any_eq_true.mpr ⟨p, hp, ?_⟩))
        exact beq_iff_eq.mpr hname
      · exact Bool.or_eq_true_iff.mpr (.inl (h.proxied hold))
  · rwa [Mixin.apply_eq_self haccepted]

end Contract.Closed

/-- **No guard goes unused**: a base module that provides a guard guards some function. -/
def Contract.Used (c : Contract) : Prop :=
  ∀ base, c.hasParent base = true → (∃ guard symbol, Guard guard base symbol) →
    ∃ function ∈ c.functions, ∃ modifier ∈ function.modifiers, ∃ symbol, Guard modifier base symbol

/-- Pausing has entry points to guard. -/
def Mixin.Useful : Mixin → Prop
  | pausing _ entries => entries ≠ []
  | _ => True

/-- A mixin that adds a module with a guard attaches the guard. -/
theorem Mixin.exists_guard_event {mixin : Mixin} (huseful : mixin.Useful) {p : Parent}
    (hp : p ∈ mixin.additions) {guard symbol : String} (hguard : Guard guard p.base.name symbol) :
    ∃ event ∈ mixin.events, ∃ modifier, event.2.modifier? = some modifier ∧
      ∃ symbol, Guard modifier p.base.name symbol := by
  have hprovider := hguard.provider
  -- the module of an extension provides no guard, and that of a mode comes with a guarded function
  cases mixin with
  | burning =>
    obtain rfl := List.mem_singleton.mp hp
    simp [Guard.providers, BaseModule.erc20Burnable] at hprovider
  | snapshots mode =>
    simp only [additions, List.mem_cons, List.not_mem_nil, or_false] at hp
    rcases hp with rfl | rfl
    · simp [Guard.providers, BaseModule.erc20Snapshot] at hprovider
    · exact ⟨_, List.mem_cons_self, _, rfl, mode.guard_guardStatement "SNAPSHOT"⟩
  | minting mode =>
    obtain rfl := List.mem_singleton.mp hp
    exact ⟨_, List.mem_cons_self, _, rfl, mode.guard_guardStatement "MINTER"⟩
  | permit name =>
    obtain rfl := List.mem_singleton.mp hp
    simp [Guard.providers, BaseModule.erc20Permit] at hprovider
  | votes =>
    obtain rfl := List.mem_singleton.mp hp
    simp [Guard.providers, BaseModule.erc20Votes] at hprovider
  | flashMint =>
    obtain rfl := List.mem_singleton.mp hp
    simp [Guard.providers, BaseModule.erc20FlashMint] at hprovider
  | pausing mode entries =>
    simp only [additions, List.mem_cons, List.not_mem_nil, or_false, or_self] at hp
    rcases hp with rfl | rfl
    · -- pausing needs something to guard, or its own guard would go unused
      obtain ⟨entry, hentry⟩ := List.exists_mem_of_ne_nil entries huseful
      have hevent : (entry, FunctionEvent.attach notPausedGuard) ∈
          (pausing mode entries).events :=
        List.mem_append_left _ (List.mem_map.mpr ⟨entry, hentry, rfl⟩)
      exact ⟨_, hevent, _, rfl, _, .notPaused⟩
    · have hevent : (FunctionTemplate.pause, FunctionEvent.attach (mode.guardStatement "PAUSER")) ∈
          (pausing mode entries).events :=
        List.mem_append_right _ (List.mem_cons_of_mem _ List.mem_cons_self)
      exact ⟨_, hevent, _, rfl, mode.guard_guardStatement "PAUSER"⟩
  | upgrading upgradeable mode =>
    cases upgradeable with
    | false => cases hp
    | true =>
      simp only [additions, if_true, List.mem_cons, List.not_mem_nil, or_false] at hp
      rcases hp with rfl | rfl | rfl
      · simp [Guard.providers, BaseModule.initializable, Contract.initializableName] at hprovider
      · exact ⟨_, List.mem_cons_self, _, rfl, mode.guard_guardStatement "UPGRADER"⟩
      · simp [Guard.providers, BaseModule.proxy] at hprovider
  | metadata info => cases hp

theorem Contract.Used.apply {c : Contract} (h : c.Used) {mixin : Mixin}
    (huseful : mixin.Useful) : (mixin.apply c).Used := by
  by_cases haccepted : mixin.Accepted c
  · rintro base hparent ⟨guard, symbol, hguard⟩
    rw [Contract.functions, Mixin.functionRegistry_apply haccepted]
    -- a new base module comes with an event, and an old one keeps the guard that it had
    rcases (Mixin.hasParent_apply_iff haccepted).mp hparent with ⟨p, hp, rfl⟩ | hold
    · obtain ⟨event, hevent, modifier, hmodifier, hcalled⟩ :=
        Mixin.exists_guard_event huseful hp hguard
      obtain ⟨function, hfunction, hattached⟩ :=
        exists_modifier_foldl_writeEvent.mpr (.inr ⟨event, hevent, hmodifier⟩)
      exact ⟨function, hfunction, modifier, hattached, hcalled⟩
    · obtain ⟨old, hmem, modifier, hmodifier, hcalled⟩ := h base hold ⟨guard, symbol, hguard⟩
      obtain ⟨function, hfunction, hattached⟩ :=
        exists_modifier_foldl_writeEvent.mpr (.inl ⟨old, hmem, hmodifier⟩)
      exact ⟨function, hfunction, modifier, hattached, hcalled⟩
  · rwa [Mixin.apply_eq_self haccepted]

/-! ## Compositions -/

/-- A contract made of the base of a token by mixins, in any order and number. -/
inductive Composed : Contract → Prop
  | base (title : String) (args : List Argument) (o : TokenOptions) :
      Composed ((args.foldl Contract.addConstructorArg (Contract.new title)).addTokenBase o)
  | apply {c : Contract} {mixin : Mixin} (h : Composed c) (hallowed : mixin.Allowed c) :
      Composed (mixin.apply c)

theorem Contract.foldl_addConstructorArg (c : Contract) (args : List Argument) :
    args.foldl addConstructorArg c = { c with constructorArgs := c.constructorArgs ++ args } := by
  induction args generalizing c with
  | nil => simp
  | cons arg rest ih => rw [List.foldl_cons, ih, addConstructorArg, List.append_assoc]; rfl

/-- A byte is a number of the exact range. -/
theorem TokenOptions.render_decimals (o : TokenOptions) :
    (Value.number (.ofNat o.decimals.toNat)).render = .ok (decimalText o.decimals.toNat) := by
  rw [Value.render, Binary64.safeInteger?_ofNat_of_lt o.decimals.toNat_lt]

/-- The initializer of a token can be called with its name, its symbol and its decimals. -/
theorem TokenOptions.known_token (o : TokenOptions) :
    Parent.Known ⟨.erc20, [.text o.name, .text o.symbol, .number (.ofNat o.decimals.toNat),
      .literal "initial_supply", .literal "recipient"]⟩ := by
  have hlibrary : BaseModule.erc20 ∈ BaseModule.library := by decide
  refine ⟨hlibrary, ?_⟩
  simp only [Parent.initializerCall, List.mapM_cons, o.render_decimals]
  exact ⟨_, rfl⟩

/-- The base of a token is the only base module at first. -/
theorem Contract.hasParent_addTokenBase_new {title : String} {args : List Argument}
    {o : TokenOptions} {name : String}
    (h : ((args.foldl addConstructorArg (Contract.new title)).addTokenBase o).hasParent name =
      true) : name = "ERC20" := by
  rw [foldl_addConstructorArg, addTokenBase_eq] at h
  obtain ⟨p, hp, hname⟩ := List.any_eq_true.mp h
  obtain rfl := List.mem_singleton.mp hp
  exact (beq_iff_eq.mp hname).symm

/-- The base of a token relies on nothing but itself. -/
theorem Contract.closed_addTokenBase_new (title : String) (args : List Argument)
    (o : TokenOptions) :
    ((args.foldl addConstructorArg (Contract.new title)).addTokenBase o).Closed := by
  have hparent := @hasParent_addTokenBase_new title args o
  rw [foldl_addConstructorArg, addTokenBase_eq] at hparent ⊢
  refine ⟨?_, ?_, ?_, ⟨?_, ?_⟩, ?_, rfl⟩
  · intro p hp
    obtain rfl := List.mem_singleton.mp hp
    exact o.known_token
  · exact ⟨_, List.mem_singleton_self _, rfl, List.cons_ne_nil _ _⟩
  · -- the standard entry points call the token
    refine reliesOn_foldl_writeEvent (fun _ hnone => nomatch hnone) ?_
    intro event hevent
    obtain ⟨template, htemplate, rfl⟩ := List.mem_map.mp hevent
    have hstandard : ∀ template ∈ EntryPoint.standard, template.base? = some "ERC20" := by decide
    refine .mention fun base hbase => ?_
    obtain rfl := Option.some.inj ((hstandard template htemplate).symm.trans hbase)
    rfl
  -- no grant yet, no roles, and no proxy
  · exact fun _ hnone => nomatch hnone
  · exact fun hroles => absurd (hparent hroles) (by decide)
  · exact fun honce => absurd (hparent honce) (by decide)

/-- **Compositions are reachable** by runs of operations. -/
theorem Composed.exists_run {c : Contract} (h : Composed c) :
    ∃ title operations, c = (Contract.new title).run operations := by
  induction h with
  | base title args o =>
    -- the arguments of the constructor, the module of the token, and its functions
    refine ⟨title, args.map .addConstructorArg ++ .addParent .erc20 [.text o.name, .text o.symbol,
      .number (.ofNat o.decimals.toNat), .literal "initial_supply", .literal "recipient"] ::
        EntryPoint.standard.map .addFunction, ?_⟩
    have hargs : (Contract.new title).run (args.map .addConstructorArg) =
        args.foldl Contract.addConstructorArg (Contract.new title) := List.foldl_map
    rw [Contract.run_append, hargs]
    rfl
  | @apply c mixin _ _ ih =>
    obtain ⟨title, operations, rfl⟩ := ih
    by_cases haccepted : mixin.Accepted ((Contract.new title).run operations)
    · refine ⟨title, operations ++ mixin.operations, ?_⟩
      rw [Mixin.apply_eq_run haccepted, Contract.run_append]
    · exact ⟨title, operations, Mixin.apply_eq_self haccepted⟩

/-- **Compositions are closed**: whatever mixins make of the base of a token, nothing is missing. -/
theorem Composed.closed {c : Contract} (h : Composed c) : c.Closed := by
  induction h with
  | base title args o => exact Contract.closed_addTokenBase_new title args o
  | apply _ hallowed ih => exact ih.apply hallowed

/-- Mixins of a sequence without pausing can follow each other freely. -/
theorem Composed.foldl {c : Contract} (h : Composed c) {mixins : List Mixin}
    (hmixins : ∀ mode entries, .pausing mode entries ∉ mixins) :
    Composed (mixins.foldl Mixin.apply c) := by
  induction mixins generalizing c with
  | nil => exact h
  | cons mixin rest ih =>
    have hallowed : mixin.Allowed c := by
      cases mixin with
      | pausing mode entries => exact absurd List.mem_cons_self (hmixins mode entries)
      | _ => trivial
    exact ih (h.apply hallowed) fun mode entries hrest =>
      hmixins mode entries (List.mem_cons_of_mem _ hrest)

theorem Contract.Used.foldl {c : Contract} (h : c.Used) {mixins : List Mixin}
    (huseful : ∀ mixin ∈ mixins, mixin.Useful) : (mixins.foldl Mixin.apply c).Used := by
  induction mixins generalizing c with
  | nil => exact h
  | cons mixin rest ih =>
    obtain ⟨hmixin, hrest⟩ := List.forall_mem_cons.mp huseful
    exact ih (h.apply hmixin) hrest

/-! ## Tokens -/

namespace TokenOptions

/-- The mixins before pausing. -/
def extensions (o : TokenOptions) : List Mixin :=
  o.mixinsBeforeVotes ++ (if o.votes then [.votes] else []) ++
    (if o.flashmint then [.flashMint] else [])

theorem mixins_eq (o : TokenOptions) :
    o.mixins = o.extensions ++
      ((if o.pausable then [.pausing o.shared.access o.pausedEntryPoints] else []) ++
        [.upgrading o.shared.upgradeable o.shared.access, .metadata o.shared.info]) := by
  simp only [mixins, mixinsAfterVotes, extensions, List.append_assoc]

theorem pausing_notMem_extensions (o : TokenOptions) (mode : AccessMode)
    (entries : List FunctionTemplate) : .pausing mode entries ∉ o.extensions := by
  simp [extensions, mixinsBeforeVotes]

theorem composed_extensions (o : TokenOptions) :
    Composed (o.extensions.foldl Mixin.apply o.baseContract) :=
  Composed.foldl
    (.base o.name [EntryPoint.wide "initial_supply", EntryPoint.felt "recipient"] o)
    o.pausing_notMem_extensions

/-- What pausing guards in a token belongs to the token or to an extension. -/
theorem allowed_pausing {o : TokenOptions} (h : o.validate = .ok ()) :
    (Mixin.pausing o.shared.access o.pausedEntryPoints).Allowed
      (o.extensions.foldl Mixin.apply o.baseContract) := by
  have haccepted : Mixin.AllAccepted o.baseContract o.extensions := by
    have hall := allAccepted_mixins h
    rw [mixins_eq, Mixin.allAccepted_append] at hall
    exact hall.1
  have htoken := o.composed_extensions.closed.hasParent_token
  intro entry hentry base hbase
  have hcalled : ∀ {name}, entry.base? = some name →
      (o.extensions.foldl Mixin.apply o.baseContract).hasParent name = true →
      (o.extensions.foldl Mixin.apply o.baseContract).hasParent base = true := by
    intro name hname hparent
    obtain rfl := Option.some.inj (hname.symm.trans hbase)
    exact hparent
  -- the last four are paused only where the extension was asked for that provides them
  rw [pausedEntryPoints] at hentry
  simp only [List.mem_append, List.mem_ite_nil_right, List.mem_singleton] at hentry
  rcases hentry with (((hstandard | ⟨hasked, rfl⟩) | ⟨-, rfl⟩) | ⟨hasked, rfl⟩) | ⟨hasked, rfl⟩
  · have hall : ∀ entry ∈ [EntryPoint.transfer, EntryPoint.transferFrom, EntryPoint.approve,
        EntryPoint.increaseAllowance, EntryPoint.decreaseAllowance],
        entry.base? = some "ERC20" := by decide
    exact hcalled (hall entry hstandard) htoken
  · have hmem : Mixin.burning ∈ o.extensions := by simp [extensions, mixinsBeforeVotes, hasked]
    exact hcalled rfl (Mixin.hasParent_foldl haccepted hmem (List.mem_singleton_self _))
  · exact hcalled rfl htoken
  · have hmem : Mixin.permit o.name ∈ o.extensions := by
      simp [extensions, mixinsBeforeVotes, hasked]
    exact hcalled rfl (Mixin.hasParent_foldl haccepted hmem (List.mem_singleton_self _))
  · have hmem : Mixin.flashMint ∈ o.extensions := by simp [extensions, hasked]
    exact hcalled rfl (Mixin.hasParent_foldl haccepted hmem (List.mem_singleton_self _))

theorem composed_assembled {o : TokenOptions} (h : o.validate = .ok ()) :
    Composed o.assembled := by
  rw [assembled, mixins_eq, List.foldl_append, List.foldl_append, foldl_apply_ite]
  refine Composed.foldl ?_ (by simp)
  split
  · exact o.composed_extensions.apply (allowed_pausing h)
  · exact o.composed_extensions

/-- No guard of a token goes unused. -/
theorem used_assembled (o : TokenOptions) : o.assembled.Used := by
  have hbase : o.baseContract.Used := by
    rintro base hparent ⟨guard, symbol, hguard⟩
    obtain rfl := @Contract.hasParent_addTokenBase_new o.name
      [EntryPoint.wide "initial_supply", EntryPoint.felt "recipient"] o base hparent
    exact absurd hguard.provider (by simp [Guard.providers])
  refine hbase.foldl fun mixin hmixin => ?_
  cases mixin with
  | pausing mode entries =>
    rw [mixins_eq, List.mem_append] at hmixin
    rcases hmixin with hextension | hlater
    · exact absurd hextension (o.pausing_notMem_extensions mode entries)
    · simp only [List.mem_append, List.mem_ite_nil_right, List.mem_cons, List.not_mem_nil,
        or_false, Mixin.pausing.injEq, reduceCtorEq] at hlater
      obtain ⟨-, -, rfl⟩ := hlater
      simp [Mixin.Useful, pausedEntryPoints]
  | _ => trivial

end TokenOptions

end CairoForge
