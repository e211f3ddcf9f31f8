import CairoForge.Proofs.ImportClosure
import Mathlib.Data.List.Nodup

/-!
# Coherence of access control

A guard works only if the constructor prepared for it: the owner has to be passed in, a role has to
be declared and granted. The features add these parts where they are missing, so what a contract has
after a run of features depends on which guards were asked for, and on nothing else.

## Main definitions

* `Operation.isFeature`, `Operation.guards` — runs of features, and the guards that they ask for.
* `Contract.Carries` — some function has a modifier.
* `Contract.Reflects` — a contract has what a list of guards needs, each part once.

## Main results

* `Contract.Reflects.restrict`, `Contract.Reflects.attempt` — one more guard, and one more feature.
* `Contract.reflects_run` — a contract after a run reflects the guards of the run.
* `Contract.access_coherent` — guards, declarations, grants and base modules belong together.
* `Contract.owner_run` — the owner is passed in once for each mode in use.
-/

namespace CairoForge

/-! ## Texts of roles -/

theorem roleConstant_injective : Function.Injective roleConstant := fun _ _ h =>
  (String.append_left_inj _).mp h

theorem grantStatement_injective : Function.Injective grantStatement := by
  intro constant other h
  unfold grantStatement at h
  exact (String.append_right_inj _).mp ((String.append_left_inj _).mp h)

/-- The constant stands twice in a declaration, so the length of a declaration tells that of the
constant. -/
theorem roleDeclaration_injective : Function.Injective roleDeclaration := by
  intro role other h
  apply roleConstant_injective
  unfold roleDeclaration at h
  generalize roleConstant role = constant at h ⊢
  generalize roleConstant other = constant' at h ⊢
  have hlength := congrArg String.length h
  simp only [String.length_append] at hlength
  have hsame : constant.toList.length = constant'.toList.length := by
    simp only [String.length_toList]
    omega
  -- of equal length, the constants end at the same place behind the first word
  simp only [String.append_assoc, String.append_right_inj] at h
  have hletters := congrArg String.toList h
  simp only [String.toList_append] at hletters
  exact String.toList_injective (List.append_inj_left hletters hsame)

theorem guardStatement_roles_inj {role other : String} :
    AccessMode.roles.guardStatement role = AccessMode.roles.guardStatement other ↔
      role = other := by
  refine ⟨fun h => roleConstant_injective ?_, congrArg AccessMode.roles.guardStatement⟩
  exact (String.append_right_inj _).mp ((String.append_left_inj _).mp h)

theorem AccessMode.eq_of_guardStatement_eq {mode mode' : AccessMode} {role role' : String}
    (h : mode.guardStatement role = mode'.guardStatement role') : mode = mode' := by
  obtain ⟨_, hguard⟩ := mode.guard_guardStatement role
  obtain ⟨_, hguard'⟩ := mode'.guard_guardStatement role'
  have hbase := (h ▸ hguard).base_unique hguard'
  cases mode <;> cases mode' <;> first | rfl | exact absurd hbase (by decide)

theorem AccessMode.guardStatement_ne_notPausedGuard (mode : AccessMode) (role : String) :
    notPausedGuard ≠ mode.guardStatement role := by
  intro h
  obtain ⟨_, hguard⟩ := mode.guard_guardStatement role
  have hbase := Guard.notPaused.base_unique (h ▸ hguard)
  cases mode <;> exact absurd hbase (by decide)

/-! ## Modifiers of a contract -/

/-- Some function has this modifier. -/
def Contract.Carries (c : Contract) (modifier : String) : Prop :=
  ∃ function ∈ c.functions, modifier ∈ function.modifiers

/-! ## Runs of features -/

namespace Operation

/-- Is the operation the call of a feature? -/
def isFeature : Operation → Bool
  | restrict .. | makePausable .. | makeUpgradeable .. | describe .. => true
  | _ => false

/-- The guards that a feature asks for, by mode and role. -/
def guards : Operation → List (AccessMode × String)
  | restrict _ mode role => [(mode, role)]
  | makePausable mode _ => [(mode, "PAUSER"), (mode, "PAUSER")]
  | makeUpgradeable upgradeable mode => if upgradeable then [(mode, "UPGRADER")] else []
  | _ => []

end Operation

/-- The roles among guards, in order of first use. -/
def rolesOf (guards : List (AccessMode × String)) : List String :=
  ((guards.filter (·.1 == .roles)).map Prod.snd).eraseDups

theorem rolesOf_append_ownable (guards : List (AccessMode × String)) (role : String) :
    rolesOf (guards ++ [(.ownable, role)]) = rolesOf guards := by
  simp [rolesOf]

theorem mem_rolesOf {guards : List (AccessMode × String)} {role : String} :
    role ∈ rolesOf guards ↔ (.roles, role) ∈ guards := by
  simp [rolesOf]

/-- One more guard by a role adds the role unless it is there. -/
theorem rolesOf_append_roles (guards : List (AccessMode × String)) (role : String) :
    rolesOf (guards ++ [(.roles, role)]) =
      if role ∈ rolesOf guards then rolesOf guards else rolesOf guards ++ [role] := by
  have hmem : role ∈ rolesOf guards ↔
      role ∈ (guards.filter (·.1 == .roles)).map Prod.snd := List.mem_eraseDups
  simp only [hmem]
  have happend : (guards ++ [(AccessMode.roles, role)]).filter (·.1 == .roles) =
      guards.filter (·.1 == .roles) ++ [(.roles, role)] := by
    simp
  rw [rolesOf, happend, List.map_append, List.map_singleton, eraseDups_append_singleton]
  rfl

/-- The modes among guards, each once. -/
def modesOf (guards : List (AccessMode × String)) : List AccessMode :=
  AccessMode.all.filter (· ∈ guards.map Prod.fst)

theorem length_modesOf_append (guards : List (AccessMode × String)) (mode : AccessMode)
    (role : String) :
    (modesOf (guards ++ [(mode, role)])).length =
      (modesOf guards).length + if mode ∈ guards.map Prod.fst then 0 else 1 := by
  unfold modesOf AccessMode.all
  by_cases howner : AccessMode.ownable ∈ guards.map Prod.fst <;>
    by_cases hroles : AccessMode.roles ∈ guards.map Prod.fst <;>
      cases mode <;> simp_all

theorem length_modesOf_eq_two_iff {guards : List (AccessMode × String)} :
    (modesOf guards).length = 2 ↔ ∀ mode, ∃ guard ∈ guards, guard.1 = mode := by
  have hall : ∀ mode, mode ∈ AccessMode.all := by
    intro mode
    cases mode <;> decide
  have hlength := List.length_filter_eq_length_iff (l := AccessMode.all)
    (p := fun mode => decide (mode ∈ guards.map Prod.fst))
  refine hlength.trans ⟨fun h mode => ?_, fun h mode _ => ?_⟩
  · exact List.mem_map.mp (of_decide_eq_true (h mode (hall mode)))
  · exact decide_eq_true (List.mem_map.mpr (h mode))

theorem modesOf_ne_nil {guards : List (AccessMode × String)} (h : guards ≠ []) :
    modesOf guards ≠ [] := by
  obtain ⟨guard, hguard⟩ := List.exists_mem_of_ne_nil guards h
  have hmode : guard.1 ∈ modesOf guards := by
    rw [modesOf, List.mem_filter]
    refine ⟨by cases guard.1 <;> decide, ?_⟩
    exact decide_eq_true (List.mem_map_of_mem hguard)
  exact List.ne_nil_of_mem hmode

/-- One mode is in use exactly when all guards have it. -/
theorem length_modesOf_eq_one_iff {guards : List (AccessMode × String)} (h : guards ≠ []) :
    (modesOf guards).length = 1 ↔ ∃ mode, ∀ guard ∈ guards, guard.1 = mode := by
  have hpos := List.length_pos_of_ne_nil (modesOf_ne_nil h)
  have hle : (modesOf guards).length ≤ 2 := List.length_filter_le _ AccessMode.all
  have hone : (modesOf guards).length = 1 ↔ ¬ (modesOf guards).length = 2 := by omega
  rw [hone, length_modesOf_eq_two_iff]
  constructor
  · -- a mode without a guard leaves the other one
    intro hnot
    obtain ⟨unused, hunused⟩ := not_forall.mp hnot
    cases unused with
    | ownable =>
      refine ⟨.roles, fun guard hguard => ?_⟩
      cases hmode : guard.1 with
      | ownable => exact absurd ⟨guard, hguard, hmode⟩ hunused
      | roles => rfl
    | roles =>
      refine ⟨.ownable, fun guard hguard => ?_⟩
      cases hmode : guard.1 with
      | ownable => rfl
      | roles => exact absurd ⟨guard, hguard, hmode⟩ hunused
  · rintro ⟨mode, hsame⟩ hboth
    obtain ⟨guard, hguard, howner⟩ := hboth .ownable
    obtain ⟨guard', hguard', hroles⟩ := hboth .roles
    have hmodes := (hsame guard hguard).trans (hsame guard' hguard').symm
    rw [howner, hroles] at hmodes
    cases hmodes

/-- The grants behind guards: none without roles, else the one that makes the owner administrator
and one for each role in order of first use. -/
def grantsOf (guards : List (AccessMode × String)) : List String :=
  if .roles ∈ guards.map Prod.fst then
    grantStatement "DEFAULT_ADMIN_ROLE" ::
      (rolesOf guards).map fun role => grantStatement (roleConstant role)
  else []

theorem grantsOf_append_ownable (guards : List (AccessMode × String)) (role : String) :
    grantsOf (guards ++ [(.ownable, role)]) = grantsOf guards := by
  have hroles : AccessMode.roles ∈ (guards ++ [(AccessMode.ownable, role)]).map Prod.fst ↔
      AccessMode.roles ∈ guards.map Prod.fst := by simp
  simp only [grantsOf, rolesOf_append_ownable, hroles]

/-- One more guard by a role adds the grants that are missing. -/
theorem grantsOf_append_roles (guards : List (AccessMode × String)) (role : String) :
    grantsOf (guards ++ [(.roles, role)]) =
      grantsOf guards ++
        ((if .roles ∈ guards.map Prod.fst then [] else [grantStatement "DEFAULT_ADMIN_ROLE"]) ++
          if role ∈ rolesOf guards then [] else [grantStatement (roleConstant role)]) := by
  have hroles : AccessMode.roles ∈ (guards ++ [(AccessMode.roles, role)]).map Prod.fst := by simp
  unfold grantsOf
  rw [if_pos hroles, rolesOf_append_roles]
  by_cases hused : AccessMode.roles ∈ guards.map Prod.fst
  · by_cases hrole : role ∈ rolesOf guards <;> simp only [hused, hrole] <;> simp
  · -- without a guard by roles there are no roles yet
    have hnone : rolesOf guards = [] := by
      refine List.eq_nil_iff_forall_not_mem.mpr fun other hother => hused ?_
      exact List.mem_map_of_mem (f := Prod.fst) (mem_rolesOf.mp hother)
    simp [hused, hnone]

namespace Contract

/-- The base module of the mode is there behind a guard, the other one if it was before. -/
theorem hasParent_restrict_iff {c : Contract} {entry : FunctionTemplate} {mode other : AccessMode}
    {role : String} :
    (c.restrict entry mode role).hasParent other.parent.base.name = true ↔
      c.hasParent other.parent.base.name = true ∨ other = mode := by
  have hname : mode.parent.base.name = other.parent.base.name ↔ other = mode := by
    cases mode <;> cases other <;> decide
  rw [restrict_eq, hasParent, Registry.contains_put, Bool.or_eq_true, beq_iff_eq, hname, or_comm]
  rfl

/-- A guard joins the modifiers that are carried already. -/
theorem carries_restrict_iff {c : Contract} {entry : FunctionTemplate} {mode : AccessMode}
    {role modifier : String} :
    (c.restrict entry mode role).Carries modifier ↔
      c.Carries modifier ∨ mode.guardStatement role = modifier := by
  have hwrite : (∃ function ∈ (writeEvent c.functionRegistry
        (entry, .attach (mode.guardStatement role))).toList, modifier ∈ function.modifiers) ↔
      c.Carries modifier ∨ some (mode.guardStatement role) = some modifier :=
    exists_modifier_writeEvent
  rw [Option.some_inj] at hwrite
  rw [restrict_eq]
  exact hwrite

/-- **What guards need**: the base modules of their modes, the owner as an argument for each mode,
and where there are roles, the grant that makes the owner administrator, then the declaration and
the grant of each role, in order of first use. -/
structure Reflects (c : Contract) (guards : List (AccessMode × String)) : Prop where
  parent : ∀ mode : AccessMode,
    c.hasParent mode.parent.base.name = true ↔ mode ∈ guards.map Prod.fst
  params : ∀ p ∈ c.parentRegistry.toList, p.base.name = "Ownable" → p = AccessMode.ownable.parent
  proxy : c.hasParent "Proxy" = true → guards ≠ []
  args : c.constructorArgs = List.replicate (modesOf guards).length .owner
  declarations : c.declarations = (rolesOf guards).map roleDeclaration
  code : c.constructorCode = grantsOf guards
  carried : ∀ (mode : AccessMode) role, c.Carries (mode.guardStatement role) ↔
    ∃ guard ∈ guards, guard.1.guardStatement guard.2 = mode.guardStatement role

theorem reflects_new (title : String) : (Contract.new title).Reflects [] where
  parent mode := by simp [hasParent, Registry.contains, Contract.new]
  params _ h := nomatch h
  proxy h := nomatch h
  args := rfl
  declarations := rfl
  code := rfl
  carried _ _ := by
    constructor
    · rintro ⟨_, ⟨⟩, _⟩
    · rintro ⟨_, ⟨⟩, _⟩

namespace Reflects

variable {c : Contract} {guards : List (AccessMode × String)}

/-- A base module that is not behind guards changes nothing, be it that of the proxy only where the
owner is known. -/
theorem addParent (h : c.Reflects guards) (base : BaseModule) (params : List Value)
    (hother : ∀ mode : AccessMode, base.name ≠ mode.parent.base.name)
    (hproxy : base.name = "Proxy" → guards ≠ []) :
    (c.addParent base params).2.Reflects guards := by
  refine ⟨fun mode => ?_, ?_, ?_, h.args, h.declarations, h.code, h.carried⟩
  · rw [hasParent_addParent, beq_false_of_ne (hother mode), Bool.false_or]
    exact h.parent mode
  · intro p hp hname
    rcases Registry.mem_put.mp hp with rfl | ⟨hold, -⟩
    · exact absurd hname (hother .ownable)
    · exact h.params p hold hname
  · rw [hasParent_addParent, Bool.or_eq_true, beq_iff_eq]
    rintro (hnew | hold)
    · exact hproxy hnew
    · exact h.proxy hold

/-- Events that attach no guard of a mode change nothing. -/
theorem writeEvents (h : c.Reflects guards) {events : List (FunctionTemplate × FunctionEvent)}
    (hevents : ∀ event ∈ events, ∀ mode role,
      event.2.modifier? ≠ some (AccessMode.guardStatement role mode)) :
    Reflects { c with functionRegistry := events.foldl writeEvent c.functionRegistry } guards := by
  induction events generalizing c with
  | nil => exact h
  | cons event rest ih =>
    obtain ⟨hevent, hrest⟩ := List.forall_mem_cons.mp hevents
    have hfirst : Reflects { c with functionRegistry := writeEvent c.functionRegistry event }
        guards := by
      refine ⟨h.parent, h.params, h.proxy, h.args, h.declarations, h.code, fun mode role => ?_⟩
      rw [← h.carried]
      exact exists_modifier_writeEvent.trans (or_iff_left (hevent mode role))
    exact ih hfirst hrest

theorem contains_roleDeclaration_iff (h : c.Reflects guards) (role : String) :
    c.variableRegistry.contains (roleDeclaration role) = true ↔ role ∈ rolesOf guards := by
  rw [Registry.contains_iff_mem_keys, Registry.keys, List.map_id]
  change roleDeclaration role ∈ c.declarations ↔ _
  rw [h.declarations, List.mem_map_of_injective roleDeclaration_injective]

/-- **One more guard**: what it needs is added where it is missing. -/
theorem restrict (h : c.Reflects guards) (entry : FunctionTemplate) (mode : AccessMode)
    (role : String) : (c.restrict entry mode role).Reflects (guards ++ [(mode, role)]) := by
  have hmodes : (guards ++ [(mode, role)]).map Prod.fst = guards.map Prod.fst ++ [mode] := by simp
  refine ⟨fun other => ?_, ?_, fun _ => by simp, ?_, ?_, ?_, fun other otherRole => ?_⟩
  · rw [hasParent_restrict_iff, hmodes, List.mem_append, List.mem_singleton, ← h.parent]
  · intro p hp hname
    rw [restrict_eq] at hp
    rcases Registry.mem_put.mp hp with rfl | ⟨hold, -⟩
    · cases mode with
      | ownable => rfl
      | roles => exact absurd hname (by decide)
    · exact h.params p hold hname
  · -- the owner is added with the base module
    have hmode := h.parent mode
    rw [restrict_eq]
    simp only [h.args, length_modesOf_append, hmode]
    split
    · exact List.append_nil _
    · exact List.replicate_succ'.symm
  · rw [restrict_eq]
    cases mode with
    | ownable =>
      rw [rolesOf_append_ownable]
      exact h.declarations
    | roles =>
      have hadd := c.declarations_addVariable (roleDeclaration role)
      simp only [h.declarations, List.mem_map_of_injective roleDeclaration_injective] at hadd
      rw [rolesOf_append_roles, apply_ite (List.map _), List.map_append]
      exact hadd
  · rw [restrict_eq]
    cases mode with
    | ownable =>
      rw [grantsOf_append_ownable, ← h.code]
      exact List.append_nil _
    | roles =>
      have hused : c.hasParent "AccessControl" = true ↔ AccessMode.roles ∈ guards.map Prod.fst :=
        h.parent .roles
      rw [grantsOf_append_roles, ← h.code]
      simp only [newGrants, h.contains_roleDeclaration_iff, hused]
  · rw [carries_restrict_iff, h.carried]
    simp only [List.mem_append, List.mem_singleton, or_and_right, exists_or, exists_eq_left]

/-- **One more feature**: the guards that it asks for have what they need. -/
theorem attempt (h : c.Reflects guards) {operation : Operation}
    (hfeature : operation.isFeature = true) :
    (operation.attempt c).contract.Reflects (guards ++ operation.guards) := by
  cases operation with
  | restrict entry mode role => exact h.restrict entry mode role
  | makePausable mode entries =>
    -- the guard of pausing and the query are no guards of a mode
    have hparent : (c.addParent .pausable []).2.Reflects guards :=
      h.addParent .pausable [] (by intro mode; cases mode <;> decide)
        fun hname => absurd hname (by decide)
    have hothers : ∀ event ∈ entries.map (fun entry => (entry, FunctionEvent.attach notPausedGuard))
        ++ [(.paused, .mention)], ∀ (mode : AccessMode) role,
          event.2.modifier? ≠ some (mode.guardStatement role) := by
      intro event hevent mode role
      rcases List.mem_append.mp hevent with hentry | hquery
      · obtain ⟨entry, -, rfl⟩ := List.mem_map.mp hentry
        intro he
        exact mode.guardStatement_ne_notPausedGuard role (Option.some.inj he)
      · obtain rfl := List.mem_singleton.mp hquery
        exact fun he => nomatch he
    have hpaused := hparent.writeEvents hothers
    rw [List.foldl_append, List.foldl_cons, List.foldl_nil] at hpaused
    have hswitch := (hpaused.restrict .pause mode "PAUSER").restrict .unpause mode "PAUSER"
    rw [List.append_assoc] at hswitch
    simp only [Operation.attempt, makePausable, addModifiers_eq]
    exact hswitch
  | makeUpgradeable upgradeable mode =>
    cases upgradeable with
    | false =>
      have hnone : guards ++ (Operation.makeUpgradeable false mode).guards = guards :=
        List.append_nil _
      rw [hnone]
      exact h
    | true =>
      -- the proxy comes behind its guard, so the owner is known
      have hset : (c.setUpgradeable true).Reflects guards := ⟨h.1, h.2, h.3, h.4, h.5, h.6, h.7⟩
      have hparent := hset.addParent .initializable [] (by intro mode; cases mode <;> decide)
        fun hname => absurd hname (by decide)
      exact (hparent.restrict .upgrade mode "UPGRADER").addParent .proxy _
        (by intro mode; cases mode <;> decide) (fun _ => by simp)
  | describe info =>
    have hnone : guards ++ (Operation.describe info).guards = guards := List.append_nil _
    rw [hnone, Operation.attempt, describe_eq]
    exact ⟨h.1, h.2, h.3, h.4, h.5, h.6, h.7⟩
  | _ => cases hfeature

theorem run (h : c.Reflects guards) {operations : List Operation}
    (hfeatures : ∀ operation ∈ operations, operation.isFeature = true) :
    (c.run operations).Reflects (guards ++ operations.flatMap Operation.guards) := by
  induction operations generalizing c guards with
  | nil => rwa [run_nil, List.flatMap_nil, List.append_nil]
  | cons operation rest ih =>
    obtain ⟨hfirst, hrest⟩ := List.forall_mem_cons.mp hfeatures
    rw [run_cons, List.flatMap_cons, ← List.append_assoc]
    exact ih (h.attempt hfirst) hrest

end Reflects

/-- **Runs of features reflect their guards**, whatever they guard and in whatever order. -/
theorem reflects_run (title : String) {operations : List Operation}
    (hfeatures : ∀ operation ∈ operations, operation.isFeature = true) :
    ((Contract.new title).run operations).Reflects (operations.flatMap Operation.guards) :=
  (reflects_new title).run hfeatures

/-! ## What belongs together -/

namespace Reflects

variable {c : Contract} {guards : List (AccessMode × String)} {role : String}

theorem carries_role_iff (h : c.Reflects guards) :
    c.Carries (AccessMode.roles.guardStatement role) ↔ role ∈ rolesOf guards := by
  rw [h.carried, mem_rolesOf]
  constructor
  · rintro ⟨⟨mode, other⟩, hguard, hsame⟩
    obtain rfl := AccessMode.eq_of_guardStatement_eq hsame
    obtain rfl := guardStatement_roles_inj.mp hsame
    exact hguard
  · intro hguard
    exact ⟨_, hguard, rfl⟩

theorem carries_owner_iff (h : c.Reflects guards) :
    c.Carries "Ownable_only_owner()" ↔ c.hasParent "Ownable" = true := by
  refine (h.carried .ownable "").trans (Iff.trans ?_ (h.parent .ownable).symm)
  rw [List.mem_map]
  constructor
  · rintro ⟨guard, hguard, hsame⟩
    exact ⟨guard, hguard, AccessMode.eq_of_guardStatement_eq hsame⟩
  · rintro ⟨⟨mode, other⟩, hguard, rfl⟩
    exact ⟨_, hguard, rfl⟩

theorem declared_iff (h : c.Reflects guards) :
    roleDeclaration role ∈ c.declarations ↔ role ∈ rolesOf guards := by
  rw [h.declarations, List.mem_map_of_injective roleDeclaration_injective]

theorem nodup_declarations (c : Contract) : c.declarations.Nodup := by
  have h := c.variableRegistry.nodup_keys
  rwa [List.map_id] at h

theorem nodup_rolesOf (h : c.Reflects guards) : (rolesOf guards).Nodup := by
  refine List.Nodup.of_map roleDeclaration ?_
  rw [← h.declarations]
  exact nodup_declarations c

theorem code_ne_nil_iff (h : c.Reflects guards) :
    c.constructorCode ≠ [] ↔ c.hasParent "AccessControl" = true := by
  rw [h.code, grantsOf]
  refine Iff.trans ?_ (h.parent .roles).symm
  split
  · next hroles => exact ⟨fun _ => hroles, fun _ => List.cons_ne_nil _ _⟩
  · next hroles => exact ⟨fun hne => absurd rfl hne, fun he => absurd he hroles⟩

/-- Behind the grant that makes the owner administrator stand the grants of the roles. -/
theorem code_eq (h : c.Reflects guards) (hne : c.constructorCode ≠ []) :
    c.constructorCode = grantStatement "DEFAULT_ADMIN_ROLE" ::
      (rolesOf guards).map (grantStatement ∘ roleConstant) := by
  have hroles := (h.parent .roles).mp (h.code_ne_nil_iff.mp hne)
  rw [h.code, grantsOf, if_pos hroles]
  rfl

theorem granted_iff (h : c.Reflects guards) :
    grantStatement (roleConstant role) ∈ c.constructorCode ↔
      role ∈ rolesOf guards ∨ (role = "DEFAULT_ADMIN" ∧ c.constructorCode ≠ []) := by
  have hinjective := grantStatement_injective.comp roleConstant_injective
  by_cases hne : c.constructorCode = []
  · -- without roles nothing is granted
    have hnone : role ∉ rolesOf guards := by
      intro hrole
      have hparent := (h.parent .roles).mpr (List.mem_map_of_mem (mem_rolesOf.mp hrole))
      exact h.code_ne_nil_iff.mpr hparent hne
    simp [hne, hnone]
  · have hadmin : grantStatement (roleConstant role) = grantStatement "DEFAULT_ADMIN_ROLE" ↔
        role = "DEFAULT_ADMIN" := hinjective.eq_iff (b := "DEFAULT_ADMIN")
    have hrole : grantStatement (roleConstant role) ∈
          (rolesOf guards).map (grantStatement ∘ roleConstant) ↔ role ∈ rolesOf guards :=
      List.mem_map_of_injective hinjective
    rw [h.code_eq hne, List.mem_cons, hadmin, hrole, or_comm]
    simp

/-- The owner is passed in where a mode or the proxy needs it. -/
theorem owner_mem (h : c.Reflects guards) (hne : guards ≠ []) : .owner ∈ c.constructorArgs := by
  rw [h.args, List.mem_replicate]
  exact ⟨Nat.ne_of_gt (List.length_pos_of_ne_nil (modesOf_ne_nil hne)), rfl⟩

end Reflects

/-- Only a direct call guards by the role that administers the others. -/
theorem administrator_notMem_rolesOf {operations : List Operation}
    (h : ∀ entry, .restrict entry .roles "DEFAULT_ADMIN" ∉ operations) :
    "DEFAULT_ADMIN" ∉ rolesOf (operations.flatMap Operation.guards) := by
  rw [mem_rolesOf, List.mem_flatMap]
  rintro ⟨operation, hoperation, hguard⟩
  cases operation with
  | restrict entry mode role =>
    obtain ⟨rfl, rfl⟩ := Prod.mk.inj (List.mem_singleton.mp hguard)
    exact h entry hoperation
  | makePausable mode entries => simp [Operation.guards] at hguard
  | makeUpgradeable upgradeable mode =>
    cases upgradeable <;> simp [Operation.guards] at hguard
  | _ => cases hguard

/-- **Access control is coherent** after every run of features in which nothing is guarded by the
role that administers the others.
* A role guards some function exactly when it is declared, and, unless it is the administrator's,
  exactly when the constructor grants it; then it is declared once and granted once.
* The base module of roles is there exactly when the constructor has code, and then the first line
  makes the owner administrator, no later one does, and all later ones are grants of roles.
* The base module of a single owner is there, with the owner as its argument, exactly when some
  function is guarded for the owner.
* The owner is an argument of the constructor wherever it is named. -/
theorem access_coherent {title : String} {operations : List Operation}
    (hfeatures : ∀ operation ∈ operations, operation.isFeature = true)
    (hadministrator : ∀ entry, .restrict entry .roles "DEFAULT_ADMIN" ∉ operations) :
    let c := (Contract.new title).run operations
    (∀ role, let constant := role ++ "_ROLE"
      let guard := "AccessControl_only_role(" ++ constant ++ ")"
      let declaration := "const " ++ constant ++ " = '" ++ constant ++ "'"
      let grant := "AccessControl_grant_role(" ++ constant ++ ", owner)"
      ((∃ function ∈ c.functions, guard ∈ function.modifiers) ↔ declaration ∈ c.declarations) ∧
        (role ≠ "DEFAULT_ADMIN" →
          (declaration ∈ c.declarations ↔ grant ∈ c.constructorCode)) ∧
        (declaration ∈ c.declarations →
          c.declarations.count declaration = 1 ∧ c.constructorCode.count grant = 1)) ∧
    ((c.hasParent "AccessControl" = true ↔ c.constructorCode ≠ []) ∧
      (c.constructorCode ≠ [] → ∃ grants,
        c.constructorCode = "AccessControl_grant_role(DEFAULT_ADMIN_ROLE, owner)" :: grants ∧
        "AccessControl_grant_role(DEFAULT_ADMIN_ROLE, owner)" ∉ grants ∧
        ∀ grant ∈ grants, ∃ role,
          grant = "AccessControl_grant_role(" ++ (role ++ "_ROLE") ++ ", owner)")) ∧
    ((c.hasParent "Ownable" = true ↔
        ∃ function ∈ c.functions, "Ownable_only_owner()" ∈ function.modifiers) ∧
      ∀ p ∈ c.parents, p.base.name = "Ownable" → p.params = [.literal "owner"]) ∧
    ∀ name ∈ ["Ownable", "AccessControl", "Proxy"],
      c.hasParent name = true → ⟨"owner", some "felt"⟩ ∈ c.constructorArgs := by
  intro c
  have h : c.Reflects (operations.flatMap Operation.guards) := reflects_run title hfeatures
  have hadmin := administrator_notMem_rolesOf hadministrator
  have hinjective := grantStatement_injective.comp roleConstant_injective
  have hnotAdmin : grantStatement "DEFAULT_ADMIN_ROLE" ∉
      (rolesOf (operations.flatMap Operation.guards)).map (grantStatement ∘ roleConstant) := by
    have hgrant := List.mem_map_of_injective hinjective (a := "DEFAULT_ADMIN")
      (l := rolesOf (operations.flatMap Operation.guards))
    exact fun hmem => hadmin (hgrant.mp hmem)
  refine ⟨fun role => ⟨?_, fun hrole => ?_, fun hdeclared => ⟨?_, ?_⟩⟩,
    ⟨h.code_ne_nil_iff.symm, fun hne => ?_⟩, ⟨h.carries_owner_iff.symm, fun p hp hname => ?_⟩, ?_⟩
  · exact h.carries_role_iff.trans h.declared_iff.symm
  · refine h.declared_iff.trans (Iff.trans ?_ h.granted_iff.symm)
    rw [or_iff_left fun he => hrole he.1]
  · rw [(Reflects.nodup_declarations c).count]
    exact if_pos hdeclared
  · -- the grant stands once among those of the roles, and is not that of the administrator
    have hmem := h.declared_iff.mp hdeclared
    have hgrant : grantStatement (roleConstant role) ∈ c.constructorCode :=
      h.granted_iff.mpr (.inl hmem)
    have hcode := h.code_eq (List.ne_nil_of_mem hgrant)
    have hnodup : c.constructorCode.Nodup := by
      rw [hcode]
      exact List.nodup_cons.mpr ⟨hnotAdmin, h.nodup_rolesOf.map hinjective⟩
    rw [hnodup.count]
    exact if_pos hgrant
  · refine ⟨_, h.code_eq hne, hnotAdmin, fun grant hgrant => ?_⟩
    obtain ⟨role, -, rfl⟩ := List.mem_map.mp hgrant
    exact ⟨role, rfl⟩
  · rw [h.params p (mem_parents.mp hp) hname]
    rfl
  · -- a mode in use has a guard, and the proxy comes with one
    intro name hname hparent
    have hused : ∀ mode : AccessMode, c.hasParent mode.parent.base.name = true →
        operations.flatMap Operation.guards ≠ [] := by
      intro mode hmode hnil
      exact List.ne_nil_of_mem ((h.parent mode).mp hmode) (congrArg (List.map Prod.fst) hnil)
    refine h.owner_mem ?_
    simp only [List.mem_cons, List.not_mem_nil, or_false] at hname
    rcases hname with rfl | rfl | rfl
    · exact hused .ownable hparent
    · exact hused .roles hparent
    · exact h.proxy hparent

/-- A run that mixes the modes and uses one role twice: what is coherent holds of it, among others
of the role of `mint`. -/
theorem access_coherent_of_mixed_run :
    let operations : List Operation :=
      [.restrict EntryPoint.mint .roles "MINTER", .makePausable .ownable [EntryPoint.transfer],
        .makeUpgradeable true .roles, .restrict EntryPoint.burn .roles "MINTER",
        .describe { securityContact := "team" }]
    (∀ operation ∈ operations, operation.isFeature = true) ∧
      (∀ entry, .restrict entry .roles "DEFAULT_ADMIN" ∉ operations) ∧
      ((Contract.new "Coin").run operations).constructorCode.count
        "AccessControl_grant_role(MINTER_ROLE, owner)" = 1 := by
  intro operations
  have hfeatures : ∀ operation ∈ operations, operation.isFeature = true := by decide
  have hadministrator : ∀ entry, .restrict entry .roles "DEFAULT_ADMIN" ∉ operations := by
    simp [operations]
  obtain ⟨hroles, -, -, -⟩ := @access_coherent "Coin" _ hfeatures hadministrator
  have hdeclared : "const MINTER_ROLE = 'MINTER_ROLE'" ∈
      ((Contract.new "Coin").run operations).declarations := by decide
  exact ⟨hfeatures, hadministrator, ((hroles "MINTER").2.2 hdeclared).2⟩

/-! ## The owner -/

/-- **The owner is an argument once for each mode in use.** After a run of features with a guard
the constructor takes the owner once exactly when all guards have one mode, and twice exactly when
both modes occur. -/
theorem owner_run {title : String} {operations : List Operation}
    (hfeatures : ∀ operation ∈ operations, operation.isFeature = true)
    (hguards : operations.flatMap Operation.guards ≠ []) :
    let args := ((Contract.new title).run operations).constructorArgs
    (args.count ⟨"owner", some "felt"⟩ = 1 ↔
      ∃ mode, ∀ guard ∈ operations.flatMap Operation.guards, guard.1 = mode) ∧
    (args.count ⟨"owner", some "felt"⟩ = 2 ↔
      ∀ mode, ∃ guard ∈ operations.flatMap Operation.guards, guard.1 = mode) := by
  intro args
  have hargs : args = List.replicate _ Argument.owner := (reflects_run title hfeatures).args
  have hcount : args.count ⟨"owner", some "felt"⟩ =
      (modesOf (operations.flatMap Operation.guards)).length := by
    rw [hargs]
    exact List.count_replicate_self
  rw [hcount]
  exact ⟨length_modesOf_eq_one_iff hguards, length_modesOf_eq_two_iff⟩

/-- One mode throughout: the constructor takes the owner once. -/
theorem owner_run_of_one_mode :
    let operations : List Operation :=
      [.makePausable .roles [EntryPoint.transfer], .restrict EntryPoint.mint .roles "MINTER",
        .makeUpgradeable true .roles]
    (∀ operation ∈ operations, operation.isFeature = true) ∧
      operations.flatMap Operation.guards ≠ [] ∧
      ((Contract.new "Coin").run operations).constructorArgs.count ⟨"owner", some "felt"⟩ = 1 := by
  intro operations
  have hfeatures : ∀ operation ∈ operations, operation.isFeature = true := by decide
  have hguards : operations.flatMap Operation.guards ≠ [] := by decide
  have hone : ∀ guard ∈ operations.flatMap Operation.guards, guard.1 = .roles := by decide
  exact ⟨hfeatures, hguards, (@owner_run "Coin" _ hfeatures hguards).1.mpr ⟨_, hone⟩⟩

/-- Two modes in one contract: the constructor takes the owner twice. -/
theorem owner_twice :
    ((Contract.new "Coin").run
      [.restrict EntryPoint.mint .ownable "MINTER",
        .restrict EntryPoint.burn .roles "BURNER"]).constructorArgs =
      [⟨"owner", some "felt"⟩, ⟨"owner", some "felt"⟩] := by decide

end Contract

end CairoForge
