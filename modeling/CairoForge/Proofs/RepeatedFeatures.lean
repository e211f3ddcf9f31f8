import CairoForge.Proofs.AccessCoherence
import CairoForge.Proofs.EqualContracts

/-!
# Repeated features

A feature adds what it needs where it is missing. Once it ran, nothing is missing any more, and no
other feature takes anything away; so when it runs again it only attaches its guards once more.

## Main definitions

* `Operation.isGuarding` — the features that guard entry points.
* `Operation.additions`, `Operation.declarations` — what a feature needs besides functions.
* `Contract.Settled` — everything that a feature needs is there.

## Main results

* `Contract.registries_attempt_of_isFeature` — what one feature does to base modules and variables.
* `Contract.settled_attempt`, `Contract.Settled.attempt` — a feature settles what it needs, and
  features keep it settled.
* `Contract.Settled.attempt_eq` — a settled feature only writes its events.
* `Contract.run_repeated` — repeating a feature changes nothing but modifiers.
-/

namespace CairoForge

/-! ## What features need -/

/-- The declarations that a guard of a mode needs. -/
def AccessMode.declarations (role : String) : AccessMode → List String
  | ownable => []
  | roles => [roleDeclaration role]

namespace Operation

/-- Is the operation the call of a feature that guards entry points? -/
def isGuarding : Operation → Bool
  | restrict .. | makePausable .. | makeUpgradeable .. => true
  | _ => false

/-- Does the operation put the contract behind a proxy? -/
def isUpgrade : Operation → Bool
  | makeUpgradeable upgradeable _ => upgradeable
  | _ => false

/-- The base modules that a feature adds, in order. -/
def additions : Operation → List Parent
  | restrict _ mode _ => [mode.parent]
  | makePausable mode _ => [⟨.pausable, []⟩, mode.parent, mode.parent]
  | makeUpgradeable upgradeable mode =>
    if upgradeable then
      [⟨.initializable, []⟩, mode.parent, ⟨.proxy, [.literal "owner"]⟩]
    else []
  | _ => []

/-- The declarations that a feature adds, in order. -/
def declarations (operation : Operation) : List String :=
  operation.guards.flatMap fun guard => guard.1.declarations guard.2

theorem isFeature_of_isGuarding {operation : Operation} (h : operation.isGuarding = true) :
    operation.isFeature = true := by
  cases operation <;> first | rfl | cases h

/-- The base modules that features add, each with the arguments that every feature gives it. -/
def featureParents : List Parent :=
  [⟨.pausable, []⟩, AccessMode.ownable.parent, AccessMode.roles.parent, ⟨.initializable, []⟩,
    ⟨.proxy, [.literal "owner"]⟩]

theorem additions_subset (operation : Operation) : operation.additions ⊆ featureParents := by
  have hmode : ∀ mode : AccessMode, mode.parent ∈ featureParents := by
    intro mode
    cases mode <;> simp [featureParents]
  cases operation with
  | restrict entry mode role => simpa [additions] using hmode mode
  | makePausable mode entries =>
    have hpausable : (⟨.pausable, []⟩ : Parent) ∈ featureParents := by simp [featureParents]
    simpa [additions] using ⟨hpausable, hmode mode⟩
  | makeUpgradeable upgradeable mode =>
    cases upgradeable with
    | false => exact List.nil_subset _
    | true =>
      have hinitializable : (⟨.initializable, []⟩ : Parent) ∈ featureParents := by
        simp [featureParents]
      have hproxy : (⟨.proxy, [.literal "owner"]⟩ : Parent) ∈ featureParents := by
        simp [featureParents]
      simpa [additions] using ⟨hinitializable, hmode mode, hproxy⟩
  | _ => exact List.nil_subset _

/-- Features agree on the base modules that they add: one name, one module, one list of
arguments. -/
theorem eq_of_mem_additions {first second : Operation} {p q : Parent} (hp : p ∈ first.additions)
    (hq : q ∈ second.additions) (h : p.base.name = q.base.name) : p = q :=
  have hnodup : (featureParents.map (·.base.name)).Nodup := by decide
  Registry.eq_of_key_eq_of_nodup hnodup (first.additions_subset hp) (second.additions_subset hq) h

theorem changesBody_of_isGuarding {operation : Operation} (h : operation.isGuarding = true) :
    operation.changesBody = false := by
  cases operation <;> first | rfl | cases h

end Operation

/-! ## What a feature does -/

namespace Contract

variable {c : Contract} {feature : Operation}

/-- **What a feature leaves** beside functions: the base modules and the declarations that it adds.
It may put the contract behind a proxy, and never takes it from there. -/
theorem registries_attempt_of_isFeature (hfeature : feature.isFeature = true) :
    (feature.attempt c).contract.parentRegistry =
        feature.additions.foldl Registry.put c.parentRegistry ∧
      (feature.attempt c).contract.variableRegistry =
        feature.declarations.foldl Registry.put c.variableRegistry ∧
      (feature.attempt c).contract.upgradeable = (c.upgradeable || feature.isUpgrade) := by
  cases feature with
  | restrict entry mode role =>
    simp only [Operation.attempt, restrict_eq]
    exact ⟨rfl, by cases mode <;> rfl, (Bool.or_false _).symm⟩
  | makePausable mode entries =>
    simp only [Operation.attempt, makePausable, restrict_eq, addModifiers_eq]
    exact ⟨rfl, by cases mode <;> rfl, (Bool.or_false _).symm⟩
  | makeUpgradeable upgradeable mode =>
    cases upgradeable with
    | false => exact ⟨rfl, rfl, (Bool.or_false _).symm⟩
    | true =>
      simp only [Operation.attempt, makeUpgradeable, restrict_eq, if_true]
      exact ⟨rfl, by cases mode <;> rfl, (Bool.or_true _).symm⟩
  | describe info =>
    rw [Operation.attempt, describe_eq]
    exact ⟨rfl, rfl, (Bool.or_false _).symm⟩
  | _ => cases hfeature

/-! ## Settled features -/

/-- Everything that a feature needs is there: its base modules as it adds them, its declarations,
the functions that it mentions, and the proxy if it asks for one. -/
structure Settled (c : Contract) (feature : Operation) : Prop where
  upgradeable : feature.isUpgrade = true → c.upgradeable = true
  parents : ∀ p ∈ feature.additions, p ∈ c.parentRegistry.toList
  declared : ∀ declaration ∈ feature.declarations, declaration ∈ c.variableRegistry.toList
  mentioned : ∀ event ∈ feature.events,
    c.functionRegistry.contains event.1.signature = true

/-- A feature settles what it needs. -/
theorem settled_attempt (hfeature : feature.isFeature = true) :
    (feature.attempt c).contract.Settled feature where
  upgradeable h := by
    obtain ⟨-, -, hproxy⟩ := registries_attempt_of_isFeature (c := c) hfeature
    rw [hproxy, h, Bool.or_true]
  parents p hp := by
    obtain ⟨hparents, -, -⟩ := registries_attempt_of_isFeature (c := c) hfeature
    rw [hparents]
    exact Registry.mem_foldl_put_of_mem_values hp fun q hq =>
      Operation.eq_of_mem_additions hq hp
  declared declaration hdeclaration := by
    obtain ⟨-, hdeclarations, -⟩ := registries_attempt_of_isFeature (c := c) hfeature
    rw [hdeclarations]
    exact Registry.mem_foldl_put_of_mem_values hdeclaration fun _ _ h => h
  mentioned event hevent := by
    rw [functionRegistry_attempt, contains_foldl_writeEvent, Bool.or_eq_true]
    exact .inl (List.any_eq_true.mpr ⟨event, hevent, beq_self_eq_true _⟩)

namespace Settled

/-- **Features keep settled what is settled**: none replaces a base module by another one or takes
anything away. -/
theorem attempt (h : c.Settled feature) {other : Operation} (hother : other.isFeature = true) :
    (other.attempt c).contract.Settled feature where
  upgradeable hfeature := by
    obtain ⟨-, -, hproxy⟩ := registries_attempt_of_isFeature (c := c) hother
    rw [hproxy, h.upgradeable hfeature, Bool.true_or]
  parents p hp := by
    obtain ⟨hparents, -, -⟩ := registries_attempt_of_isFeature (c := c) hother
    rw [hparents]
    exact Registry.mem_foldl_put_of_agree (h.parents p hp) fun q hq =>
      Operation.eq_of_mem_additions hq hp
  declared declaration hdeclaration := by
    obtain ⟨-, hdeclarations, -⟩ := registries_attempt_of_isFeature (c := c) hother
    rw [hdeclarations]
    exact Registry.mem_foldl_put_of_agree (h.declared declaration hdeclaration) fun _ _ hsame =>
      hsame
  mentioned event hevent := by
    rw [functionRegistry_attempt, contains_foldl_writeEvent, h.mentioned event hevent,
      Bool.or_true]

theorem run (h : c.Settled feature) {others : List Operation}
    (hothers : ∀ other ∈ others, other.isFeature = true) : (c.run others).Settled feature := by
  induction others generalizing c with
  | nil => exact h
  | cons other rest ih =>
    obtain ⟨hother, hrest⟩ := List.forall_mem_cons.mp hothers
    rw [run_cons]
    exact ih (h.attempt hother) hrest

end Settled

/-- A guard whose base module and declarations are there only attaches its modifier. -/
theorem restrict_of_settled {mode : AccessMode} {role : String}
    (hparent : mode.parent ∈ c.parentRegistry.toList)
    (hdeclared : ∀ declaration ∈ mode.declarations role, declaration ∈ c.variableRegistry.toList)
    (entry : FunctionTemplate) :
    c.restrict entry mode role =
      { c with
        functionRegistry :=
          writeEvent c.functionRegistry (entry, .attach (mode.guardStatement role)) } := by
  have hname : c.hasParent mode.parent.base.name = true :=
    (c.parentRegistry.contains_iff_mem_keys _).mpr (List.mem_map_of_mem hparent)
  have hput : c.parentRegistry.put mode.parent = c.parentRegistry := Registry.put_eq_self hparent
  rw [restrict_eq, hname, hput]
  cases mode with
  | ownable => simp only [newGrants, if_true, List.append_nil]; rfl
  | roles =>
    have hmem := hdeclared _ (List.mem_singleton_self _)
    have hrole : c.variableRegistry.contains (roleDeclaration role) = true :=
      (c.variableRegistry.contains_iff_mem_keys _).mpr (List.mem_map_of_mem (f := id) hmem)
    have hroles : c.hasParent "AccessControl" = true := hname
    have hkept : c.variableRegistry.put (roleDeclaration role) = c.variableRegistry :=
      Registry.put_eq_self hmem
    simp only [newGrants, hroles, hrole, hkept, if_true, List.append_nil]
    rfl

/-- A base module that is there with the same arguments is not added again. -/
theorem addParent_eq_self {p : Parent} (h : p ∈ c.parentRegistry.toList) :
    (c.addParent p.base p.params).2 = c := by
  rw [addParent, Registry.put_eq_self h]

theorem Settled.restrict_eq {entry : FunctionTemplate} {mode : AccessMode} {role : String}
    (h : c.Settled (.restrict entry mode role)) :
    c.restrict entry mode role =
      { c with
        functionRegistry :=
          writeEvent c.functionRegistry (entry, .attach (mode.guardStatement role)) } := by
  refine restrict_of_settled (h.parents _ (List.mem_singleton_self _)) ?_ entry
  intro declaration hdeclaration
  exact h.declared declaration (List.mem_append_left _ hdeclaration)

theorem Settled.makePausable_eq {mode : AccessMode} {entries : List FunctionTemplate}
    (h : c.Settled (.makePausable mode entries)) :
    c.makePausable mode entries =
      { c with
        functionRegistry :=
          (Operation.makePausable mode entries).events.foldl writeEvent c.functionRegistry } := by
  have hpausable : (c.addParent .pausable []).2 = c :=
    addParent_eq_self (h.parents _ List.mem_cons_self)
  have hmode : mode.parent ∈ c.parentRegistry.toList :=
    h.parents _ (by simp [Operation.additions])
  have hrole : ∀ declaration ∈ mode.declarations "PAUSER",
      declaration ∈ c.variableRegistry.toList := fun declaration hdeclaration =>
    h.declared declaration (List.mem_append_left _ hdeclaration)
  -- writing functions leaves the guard settled, so its two entry points follow one after the other
  have hguard : ∀ registry entry,
      restrict { c with functionRegistry := registry } entry mode "PAUSER" =
        { c with
          functionRegistry :=
            writeEvent registry (entry, .attach (mode.guardStatement "PAUSER")) } :=
    fun registry entry => restrict_of_settled (c := { c with functionRegistry := registry })
      hmode hrole entry
  simp only [makePausable, hpausable, addModifiers_eq]
  refine (congrArg (restrict · .unpause mode "PAUSER") (hguard _ .pause)).trans ?_
  refine (hguard _ .unpause).trans ?_
  simp only [Operation.events, List.foldl_append]
  rfl

theorem Settled.makeUpgradeable_eq {mode : AccessMode}
    (h : c.Settled (.makeUpgradeable true mode)) :
    c.makeUpgradeable true mode =
      { c with
        functionRegistry :=
          (Operation.makeUpgradeable true mode).events.foldl writeEvent c.functionRegistry } := by
  have hset : c.setUpgradeable true = c := by
    rw [setUpgradeable, ← h.upgradeable rfl]
  have hinitializable : (c.addParent .initializable []).2 = c :=
    addParent_eq_self (h.parents _ List.mem_cons_self)
  have hmode : mode.parent ∈ c.parentRegistry.toList :=
    h.parents _ (by simp [Operation.additions])
  have hproxy : c.parentRegistry.put ⟨.proxy, [.literal "owner"]⟩ = c.parentRegistry :=
    Registry.put_eq_self (h.parents _ (by simp [Operation.additions]))
  simp only [makeUpgradeable, hset, hinitializable, if_true]
  rw [restrict_of_settled hmode fun declaration hdeclaration =>
    h.declared declaration (List.mem_append_left _ hdeclaration)]
  -- the guard wrote a function only, so the proxy is still there
  simp only [addParent, hproxy]
  rfl

/-- **A settled feature only writes its events.** -/
theorem Settled.attempt_eq (h : c.Settled feature) (hguarding : feature.isGuarding = true) :
    (feature.attempt c).contract =
      { c with functionRegistry := feature.events.foldl writeEvent c.functionRegistry } := by
  cases feature with
  | restrict entry mode role => exact h.restrict_eq
  | makePausable mode entries => exact h.makePausable_eq
  | makeUpgradeable upgradeable mode =>
    cases upgradeable with
    | false => rfl
    | true => exact h.makeUpgradeable_eq
  | _ => cases hguarding

/-! ## Functions that were mentioned before -/

/-- An event about a function that is there attaches its modifier and keeps all else in place. -/
theorem toList_writeEvent_of_mentioned
    {functions : Registry ContractFunction ContractFunction.signature}
    {event : FunctionTemplate × FunctionEvent} (hchange : event.2.change? = none)
    (hmentioned : functions.contains event.1.signature = true) :
    (writeEvent functions event).toList =
      functions.toList.map fun function =>
        { function with
          modifiers := function.modifiers ++ attachedTo function.signature [event] } := by
  have hsignature : (event.2.leave (functionAt functions event.1)).signature =
      event.1.signature := by
    rw [FunctionEvent.signature_leave, signature_functionAt]
  rw [writeEvent, Registry.toList_put_of_contains (by rwa [hsignature]), hsignature]
  refine List.map_congr_left fun function hfunction => ?_
  by_cases hsame : function.signature = event.1.signature
  · -- the event is about this function
    have hfound : functionAt functions event.1 = function := by
      rw [functionAt, Registry.find?_eq_some_iff.mpr ⟨hfunction, hsame⟩]
      rfl
    have hattached : attachedTo function.signature [event] = event.2.modifier?.toList := by
      simp [attachedTo, hsame, List.filterMap_cons]
      cases event.2.modifier? <;> rfl
    rw [if_pos hsame, hfound, hattached]
    cases hevent : event.2 with
    | alter change =>
      rw [hevent] at hchange
      cases hchange
    | mention => exact congrArg (ContractFunction.mk _ · _) (List.append_nil _).symm
    | attach modifier => rfl
  · have hother : attachedTo function.signature [event] = [] := by
      simp [attachedTo, Ne.symm hsame]
    rw [if_neg hsame, hother, List.append_nil]

/-- **Events about functions that are there** attach their modifiers behind those attached before,
and keep all else in place. -/
theorem toList_foldl_writeEvent_of_mentioned
    {functions : Registry ContractFunction ContractFunction.signature}
    {events : List (FunctionTemplate × FunctionEvent)}
    (hchange : ∀ event ∈ events, event.2.change? = none)
    (hmentioned : ∀ event ∈ events, functions.contains event.1.signature = true) :
    (events.foldl writeEvent functions).toList =
      functions.toList.map fun function =>
        { function with
          modifiers := function.modifiers ++ attachedTo function.signature events } := by
  induction events generalizing functions with
  | nil => simp [attachedTo]
  | cons event rest ih =>
    obtain ⟨hchange, hchanges⟩ := List.forall_mem_cons.mp hchange
    obtain ⟨hfirst, hrest⟩ := List.forall_mem_cons.mp hmentioned
    -- what was mentioned before an event is so behind it
    have hstill : ∀ other ∈ rest,
        (writeEvent functions event).contains other.1.signature = true := by
      intro other hother
      have hcontains := contains_foldl_writeEvent functions [event] other.1.signature
      rw [hrest other hother, Bool.or_true] at hcontains
      exact hcontains
    rw [List.foldl_cons, ih hchanges hstill, toList_writeEvent_of_mentioned hchange hfirst,
      List.map_map]
    refine List.map_congr_left fun function _ => ?_
    have hattached : attachedTo function.signature (event :: rest) =
        attachedTo function.signature [event] ++ attachedTo function.signature rest := by
      rw [attachedTo, ← List.singleton_append, List.filter_append, List.filterMap_append]
      rfl
    rw [hattached, ← List.append_assoc]
    rfl

/-! ## What is printed above the functions -/

/-- **Modifiers and bodies show in the routines of functions only**: what is printed above the
functions depends on their templates. -/
theorem document_of_templates {c after : Contract}
    {change : ContractFunction → ContractFunction}
    {registry : Registry ContractFunction ContractFunction.signature}
    (hafter : after = { c with functionRegistry := registry })
    (hfunctions : registry.toList = c.functions.map change)
    (htemplate : ∀ function, (change function).template = function.template)
    (naming : Renaming) :
    after.document naming = (c.document naming).map fun d =>
      { d with
        withCode := after.routines naming .withCode
        guarded := after.routines naming .guarded
        passThrough := after.routines naming .passThrough } := by
  have hconstructors : after.constructors naming = c.constructors naming := by
    rw [hafter]
    rfl
  -- imports depend on templates only, which the change keeps
  have hdemand : ∀ function,
      after.functionDemand? (change function) = c.functionDemand? function := by
    intro function
    rw [functionDemand?_eq, functionDemand?_eq, htemplate, hafter]
    rfl
  have hdemands : after.importDemands = c.importDemands := by
    have hafterFunctions : after.functions = c.functions.map change := by
      rw [hafter]
      exact hfunctions
    have hneeded : after.functions.filterMap after.functionDemand? =
        c.functions.filterMap c.functionDemand? := by
      rw [hafterFunctions, List.filterMap_map]
      exact List.filterMap_congr fun function _ => hdemand function
    rw [importDemands, importDemands, hneeded, hafter]
    rfl
  have himports : after.importBlocks = c.importBlocks := by
    rw [importBlocks, importBlocks, hdemands]
  unfold document
  rw [hconstructors, himports]
  cases c.constructors naming with
  | error refusal => rfl
  | ok constructors =>
    rw [hafter]
    rfl

/-- **Repeated features change nothing but modifiers.** A feature that guards entry points, run on
any contract and once more after any further features, leaves the second time what it left the first
time: the same base modules with the same arguments, libraries, tags, license, constructor,
declarations and proxy, and the same functions with the same templates and bodies in the same order,
each with the guards that the feature attaches to it once more behind its modifiers. Whatever is
printed above the functions is the same. -/
theorem run_repeated (c : Contract) {feature : Operation} {others : List Operation}
    (hguarding : feature.isGuarding = true)
    (hothers : ∀ other ∈ others, other.isFeature = true) :
    let once := c.run (feature :: others)
    let twice := c.run (feature :: others ++ [feature])
    (twice.name = once.name ∧ twice.license = once.license ∧
      twice.upgradeable = once.upgradeable ∧ twice.parents = once.parents ∧
      twice.attachments = once.attachments ∧ twice.tags = once.tags ∧
      twice.constructorArgs = once.constructorArgs ∧
      twice.constructorCode = once.constructorCode ∧
      twice.declarations = once.declarations) ∧
    (twice.functions = once.functions.map fun function =>
      { function with
        modifiers := function.modifiers ++
          (feature.events.filter (·.1.signature == function.signature)).filterMap
            (·.2.modifier?) }) ∧
    ∀ naming, twice.document naming = (once.document naming).map fun d =>
      { d with
        withCode := twice.routines naming .withCode
        guarded := twice.routines naming .guarded
        passThrough := twice.routines naming .passThrough } := by
  intro once twice
  have hsettled : once.Settled feature :=
    (settled_attempt (Operation.isFeature_of_isGuarding hguarding)).run hothers
  have htwice : twice =
      { once with
        functionRegistry := feature.events.foldl writeEvent once.functionRegistry } := by
    have hrun : twice = (feature.attempt once).contract :=
      c.run_append (feature :: others) [feature]
    rw [hrun]
    exact hsettled.attempt_eq hguarding
  have hfunctions := toList_foldl_writeEvent_of_mentioned
    (fun _ => Operation.change?_of_mem_events (Operation.changesBody_of_isGuarding hguarding))
    hsettled.mentioned
  refine ⟨?_, ?_, document_of_templates htwice hfunctions fun _ => rfl⟩
  · rw [htwice]
    exact ⟨rfl, rfl, rfl, rfl, rfl, rfl, rfl, rfl, rfl⟩
  · rw [htwice]
    exact hfunctions

/-- A contract that had an owner of its own, is made pausable by roles, and goes through features of
the other mode before it is made pausable again: its grants stay as they are, and the guard of
pausing is attached once more. -/
theorem run_repeated_of_mixed_modes :
    let c := (Contract.new "Coin").run
      [.addParent .ownable [.literal "admin"], .addCode "let x = 1" EntryPoint.transfer]
    let feature := Operation.makePausable .roles [EntryPoint.transfer]
    let others : List Operation :=
      [.restrict EntryPoint.transfer .ownable "MINTER", .makeUpgradeable true .roles,
        .describe { securityContact := "team" }]
    feature.isGuarding = true ∧ (∀ other ∈ others, other.isFeature = true) ∧
      (c.run (feature :: others ++ [feature])).constructorCode =
        ["AccessControl_grant_role(DEFAULT_ADMIN_ROLE, owner)",
          "AccessControl_grant_role(PAUSER_ROLE, owner)",
          "AccessControl_grant_role(UPGRADER_ROLE, owner)"] ∧
      (c.run (feature :: others ++ [feature])).functions.map (·.modifiers) =
        [["Pausable_when_not_paused()", "Ownable_only_owner()", "Pausable_when_not_paused()"],
          [], ["AccessControl_only_role(PAUSER_ROLE)", "AccessControl_only_role(PAUSER_ROLE)"],
          ["AccessControl_only_role(PAUSER_ROLE)", "AccessControl_only_role(PAUSER_ROLE)"],
          ["AccessControl_only_role(UPGRADER_ROLE)"]] := by
  intro c feature others
  have hguarding : feature.isGuarding = true := rfl
  have hothers : ∀ other ∈ others, other.isFeature = true := by decide
  obtain ⟨⟨-, -, -, -, -, -, -, hcode, -⟩, hfunctions, -⟩ := c.run_repeated hguarding hothers
  refine ⟨hguarding, hothers, hcode.trans (by decide +kernel), ?_⟩
  rw [hfunctions]
  decide +kernel

end Contract

end CairoForge
