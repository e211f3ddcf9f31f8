import CairoForge.Proofs.AccessCoherence
import CairoForge.Proofs.GatheredImports

/-!
# Base modules and variables after a run

Features ask for base modules and variables whether they are there or not. What is registered in the
end is decided by the calls that a run consists of: names keep the place of their first addition,
and what stands there is what was added last.

## Main definitions

* `Operation.parts`, `Contract.guardCalls` — features in terms of guards, guards in terms of calls.
* `Contract.calls` — the calls that a run consists of.
* `Operation.parent?`, `Operation.declaration?`, `Operation.attachment?` — what a call adds.

## Main results

* `Registry.keys_foldl_put_empty`, `Registry.find?_foldl_put_empty` — a registry after its writes.
* `Contract.run_calls` — a run leaves what its calls leave.
* `Contract.registries_attempt`, `Contract.registries_run_calls` — what one call and several leave.
* `Contract.registries_run` — base modules and variables after a run.
-/

namespace CairoForge

/-! ## Registries after their writes -/

namespace Registry

variable {α : Type} (key : α → String)

/-- Keys come in the order in which they were first written. -/
theorem keys_foldl_put_empty (values : List α) :
    (values.foldl put (empty : Registry α key)).keys = (values.map key).eraseDups := by
  induction values using List.reverseRecOn with
  | nil => rfl
  | append_singleton values a ih =>
    have hcontains := contains_iff_mem_keys (values.foldl put (empty : Registry α key)) (key a)
    rw [ih, List.mem_eraseDups] at hcontains
    rw [List.foldl_append, List.foldl_cons, List.foldl_nil, keys_put, ih, List.map_append,
      List.map_singleton, eraseDups_append_singleton]
    simp only [hcontains]

/-- Under a key stands what was last written under it. -/
theorem find?_foldl_put_empty (values : List α) (k : String) :
    (values.foldl put (empty : Registry α key)).find? k = values.reverse.find? (key · == k) := by
  induction values using List.reverseRecOn with
  | nil => rfl
  | append_singleton values a ih =>
    rw [List.foldl_append, List.foldl_cons, List.foldl_nil, find?_put, ih, List.reverse_append,
      List.reverse_singleton, List.singleton_append, List.find?_cons]
    by_cases h : key a = k
    -- read from the end, the value that was written last is found first
    · rw [if_pos h, beq_iff_eq.mpr h]
    · rw [if_neg h, beq_eq_false_iff_ne.mpr h]

end Registry

/-! ## Calls -/

/-- What an operation consists of: a feature of guards and calls, anything else of itself. -/
def Operation.parts : Operation → List Operation
  | makePausable mode entries =>
    .addParent .pausable [] :: entries.map (.addModifier notPausedGuard) ++
      [.addFunction .paused, .restrict .pause mode "PAUSER", .restrict .unpause mode "PAUSER"]
  | makeUpgradeable upgradeable mode =>
    if upgradeable then
      [.setUpgradeable true, .addParent .initializable [], .restrict .upgrade mode "UPGRADER",
        .addParent .proxy [.literal "owner"]]
    else []
  | describe info =>
    (if info.securityContact.isEmpty then []
      else [.addTag Metadata.contactKey info.securityContact]) ++
      (if info.license.isEmpty then [] else [.setLicense info.license])
  | operation => [operation]

namespace Contract

/-- The calls that a guard consists of. Whether a name or a text was new decides what comes next. -/
def guardCalls (c : Contract) (entry : FunctionTemplate) (mode : AccessMode) (role : String) :
    List Operation :=
  (match mode with
    | .ownable =>
      .addParent .ownable [.literal "owner"] ::
        (if (c.addParent .ownable [.literal "owner"]).1 then [.addConstructorArg .owner] else [])
    | .roles =>
      .addParent .accessControl [] ::
        (if (c.addParent .accessControl []).1 then
          [.addConstructorArg .owner, .addConstructorCode (grantStatement "DEFAULT_ADMIN_ROLE")]
        else []) ++
        .addVariable (roleDeclaration role) ::
        (if (c.requireRoles.addVariable (roleDeclaration role)).1 then
          [.addConstructorCode (grantStatement (roleConstant role))]
        else [])) ++
    [.addModifier (mode.guardStatement role) entry]

/-- The calls that guards and other calls consist of. -/
def partCalls (c : Contract) : List Operation → List Operation
  | [] => []
  | .restrict entry mode role :: rest =>
    c.guardCalls entry mode role ++ (c.restrict entry mode role).partCalls rest
  | call :: rest => call :: (call.attempt c).contract.partCalls rest

/-- **The calls that a run consists of.** -/
def calls (c : Contract) (operations : List Operation) : List Operation :=
  c.partCalls (operations.flatMap Operation.parts)

/-- An operation leaves what its parts leave. -/
theorem run_parts (c : Contract) (operation : Operation) :
    c.run operation.parts = (operation.attempt c).contract := by
  cases operation with
  | makePausable mode entries =>
    have hentries : ∀ c : Contract, c.run (entries.map (.addModifier notPausedGuard)) =
        entries.foldl (fun c entry => c.addModifier notPausedGuard entry) c := fun c =>
      List.foldl_map
    rw [Operation.parts, List.cons_append, run_cons, run_append, hentries]
    rfl
  | makeUpgradeable upgradeable mode => cases upgradeable <;> rfl
  | describe info =>
    rw [Operation.attempt, describe_eq, Operation.parts, run_append]
    by_cases hcontact : info.securityContact.isEmpty <;>
      by_cases hlicense : info.license.isEmpty <;>
        simp only [hcontact, hlicense, if_true, Bool.false_eq_true, if_false, run_cons, run_nil,
          Operation.attempt, addTag, if_pos Metadata.isValidKey_contactKey] <;>
        rfl
  | _ => rfl

/-- A guard leaves what its calls leave. -/
theorem run_guardCalls (c : Contract) (entry : FunctionTemplate) (mode : AccessMode)
    (role : String) : c.run (c.guardCalls entry mode role) = c.restrict entry mode role := by
  unfold guardCalls
  rw [run_append]
  -- the modifier comes last; what the mode requires before it depends on what was new
  refine congrArg (Contract.addModifier · (mode.guardStatement role) entry) ?_
  cases mode with
  | ownable =>
    change c.run (_ :: _) = c.requireOwner
    rw [run_cons, requireOwner]
    dsimp only
    split <;> rfl
  | roles =>
    change c.run _ = c.requireRoles.requireRole role
    have hroles : c.run (.addParent .accessControl [] ::
        if (c.addParent .accessControl []).1 then
          [.addConstructorArg .owner, .addConstructorCode (grantStatement "DEFAULT_ADMIN_ROLE")]
        else []) = c.requireRoles := by
      rw [run_cons, requireRoles]
      dsimp only
      split <;> rfl
    rw [run_append, hroles, run_cons, requireRole]
    dsimp only
    split <;> rfl

theorem run_partCalls (c : Contract) (parts : List Operation) :
    c.run (c.partCalls parts) = c.run parts := by
  induction parts generalizing c with
  | nil => rfl
  | cons part rest ih =>
    cases part with
    -- only guards are taken apart
    | restrict entry mode role =>
      rw [partCalls, run_append, run_guardCalls, ih]
      rfl
    | _ =>
      rw [partCalls, run_cons, ih]
      · rfl
      · simp

theorem run_flatMap_parts (c : Contract) (operations : List Operation) :
    c.run (operations.flatMap Operation.parts) = c.run operations := by
  induction operations generalizing c with
  | nil => rfl
  | cons operation rest ih =>
    rw [List.flatMap_cons, run_append, run_parts, ih]
    rfl

/-- **A run leaves what its calls leave.** -/
theorem run_calls (c : Contract) (operations : List Operation) :
    c.run (c.calls operations) = c.run operations := by
  rw [calls, run_partCalls, run_flatMap_parts]

/-- Of features only guards are left in the parts. -/
theorem isFeature_of_mem_parts {operation part : Operation} (hpart : part ∈ operation.parts) :
    part.isFeature = false ∨ ∃ entry mode role, part = .restrict entry mode role := by
  cases operation with
  | restrict entry mode role => exact .inr ⟨entry, mode, role, List.mem_singleton.mp hpart⟩
  | makePausable mode entries =>
    simp only [Operation.parts, List.mem_append, List.mem_cons, List.mem_map, List.not_mem_nil,
      or_false] at hpart
    rcases hpart with (rfl | ⟨entry, -, rfl⟩) | rfl | rfl | rfl
    · exact .inl rfl
    · exact .inl rfl
    · exact .inl rfl
    · exact .inr ⟨_, _, _, rfl⟩
    · exact .inr ⟨_, _, _, rfl⟩
  | makeUpgradeable upgradeable mode =>
    simp only [Operation.parts, List.mem_ite_nil_right, List.mem_cons, List.not_mem_nil,
      or_false] at hpart
    obtain ⟨-, rfl | rfl | rfl | rfl⟩ := hpart
    · exact .inl rfl
    · exact .inl rfl
    · exact .inr ⟨_, _, _, rfl⟩
    · exact .inl rfl
  | describe info =>
    simp only [Operation.parts, List.mem_append, List.mem_ite_nil_left, List.mem_singleton] at hpart
    obtain ⟨-, rfl⟩ | ⟨-, rfl⟩ := hpart
    · exact .inl rfl
    · exact .inl rfl
  | _ =>
    obtain rfl := List.mem_singleton.mp hpart
    exact .inl rfl

theorem isFeature_of_mem_guardCalls {c : Contract} {entry : FunctionTemplate} {mode : AccessMode}
    {role : String} {call : Operation} (hcall : call ∈ c.guardCalls entry mode role) :
    call.isFeature = false := by
  cases mode with
  | ownable =>
    simp only [guardCalls, List.mem_append, List.mem_cons, List.mem_ite_nil_right, List.not_mem_nil,
      or_false] at hcall
    rcases hcall with (rfl | ⟨-, rfl⟩) | rfl <;> rfl
  | roles =>
    simp only [guardCalls, List.mem_append, List.mem_cons, List.mem_ite_nil_right, List.not_mem_nil,
      or_false] at hcall
    rcases hcall with ((rfl | ⟨-, rfl | rfl⟩) | rfl | ⟨-, rfl⟩) | rfl <;> rfl

theorem isFeature_of_mem_partCalls {c : Contract} {parts : List Operation}
    (hparts : ∀ part ∈ parts, part.isFeature = false ∨
      ∃ entry mode role, part = .restrict entry mode role)
    {call : Operation} (hcall : call ∈ c.partCalls parts) : call.isFeature = false := by
  induction parts generalizing c with
  | nil => cases hcall
  | cons part rest ih =>
    obtain ⟨hpart, hrest⟩ := List.forall_mem_cons.mp hparts
    rcases hpart with hpart | ⟨entry, mode, role, rfl⟩
    -- only guards are taken apart, any other part is a call itself
    · have hcalls : c.partCalls (part :: rest) =
          part :: (part.attempt c).contract.partCalls rest := by
        cases part with
        | restrict => cases hpart
        | _ => rfl
      rw [hcalls] at hcall
      rcases List.mem_cons.mp hcall with rfl | hcall
      · exact hpart
      · exact ih hrest hcall
    · rcases List.mem_append.mp hcall with hcall | hcall
      · exact isFeature_of_mem_guardCalls hcall
      · exact ih hrest hcall

/-- **Calls are taken apart**: none is that of a feature. -/
theorem isFeature_of_mem_calls {c : Contract} {operations : List Operation} {call : Operation}
    (hcall : call ∈ c.calls operations) : call.isFeature = false := by
  refine isFeature_of_mem_partCalls (fun part hpart => ?_) hcall
  obtain ⟨operation, -, hpart⟩ := List.mem_flatMap.mp hpart
  exact isFeature_of_mem_parts hpart

end Contract

/-! ## What calls add -/

namespace Operation

/-- The base module that a call adds, if it adds one. -/
def parent? : Operation → Option Parent
  | addParent base params => some ⟨base, params⟩
  | _ => none

/-- The variable that a call declares, if it declares one. -/
def declaration? : Operation → Option String
  | addVariable declaration => some declaration
  | _ => none

/-- The library that a call attaches, if it attaches one. -/
def attachment? : Operation → Option Attachment
  | addAttachment library target => some ⟨library, target⟩
  | _ => none

end Operation

namespace Contract

/-- An operation on one function changes nothing else. -/
theorem exists_attemptOn_eq (c : Contract) (template : FunctionTemplate)
    (change : ContractFunction → Except Refusal ContractFunction) :
    ∃ function, (c.attemptOn template change).contract = c.putFunction function := by
  unfold attemptOn
  dsimp only
  split <;> exact ⟨_, rfl⟩

/-- **What one call leaves** of base modules, variables and libraries. -/
theorem registries_attempt (c : Contract) {call : Operation} (h : call.isFeature = false) :
    (call.attempt c).contract.parentRegistry =
        call.parent?.toList.foldl Registry.put c.parentRegistry ∧
      (call.attempt c).contract.variableRegistry =
        call.declaration?.toList.foldl Registry.put c.variableRegistry ∧
      (call.attempt c).contract.attachments = c.attachments ++ call.attachment?.toList := by
  have hframe : (call.attempt c).contract.attachments = c.attachments → call.attachment? = none →
      (call.attempt c).contract.attachments = c.attachments ++ call.attachment?.toList := by
    intro hsame hnone
    rw [hsame, hnone, Option.toList_none, List.append_nil]
  cases call with
  | addAttachment library target => exact ⟨rfl, rfl, rfl⟩
  -- code and bodies may be refused, but either way one function is written
  | addCode line template =>
    obtain ⟨function, hfunction⟩ := c.exists_attemptOn_eq template (·.appendCode line)
    have hcontract : ((Operation.addCode line template).attempt c).contract = _ := hfunction
    exact ⟨by rw [hcontract]; rfl, by rw [hcontract]; rfl, hframe (by rw [hcontract]; rfl) rfl⟩
  | setBody lines template =>
    obtain ⟨function, hfunction⟩ := c.exists_attemptOn_eq template (·.setBody lines)
    have hcontract : ((Operation.setBody lines template).attempt c).contract = _ := hfunction
    exact ⟨by rw [hcontract]; rfl, by rw [hcontract]; rfl, hframe (by rw [hcontract]; rfl) rfl⟩
  | addTag key value =>
    simp only [Operation.attempt, addTag]
    split
    · exact ⟨rfl, rfl, (List.append_nil _).symm⟩
    · exact ⟨rfl, rfl, (List.append_nil _).symm⟩
  | restrict | makePausable | makeUpgradeable | describe => cases h
  | _ => exact ⟨rfl, rfl, hframe rfl rfl⟩

/-- **What calls leave** of base modules, variables and libraries: what they add, in order. -/
theorem registries_run_calls (c : Contract) {calls : List Operation}
    (h : ∀ call ∈ calls, call.isFeature = false) :
    (c.run calls).parentRegistry =
        (calls.filterMap Operation.parent?).foldl Registry.put c.parentRegistry ∧
      (c.run calls).variableRegistry =
        (calls.filterMap Operation.declaration?).foldl Registry.put c.variableRegistry ∧
      (c.run calls).attachments = c.attachments ++ calls.filterMap Operation.attachment? := by
  induction calls generalizing c with
  | nil => exact ⟨rfl, rfl, (List.append_nil _).symm⟩
  | cons call rest ih =>
    obtain ⟨hcall, hrest⟩ := List.forall_mem_cons.mp h
    obtain ⟨hparents, hvariables, hattachments⟩ := c.registries_attempt hcall
    obtain ⟨ihparents, ihvariables, ihattachments⟩ := ih (call.attempt c).contract hrest
    rw [run_cons, ihparents, ihvariables, ihattachments, hparents, hvariables, hattachments]
    -- each part grows by what this call adds to it, if it adds anything
    simp only [List.filterMap_eq_flatMap_toList, List.flatMap_cons, List.foldl_append,
      List.append_assoc, and_self]

/-- A run adds base modules and takes none away. -/
theorem hasParent_run (c : Contract) (operations : List Operation) (name : String) :
    (c.run operations).hasParent name =
      (((c.calls operations).filterMap Operation.parent?).any (·.base.name == name) ||
        c.hasParent name) := by
  have hfeature : ∀ call ∈ c.calls operations, call.isFeature = false := by
    intro call hcall
    exact isFeature_of_mem_calls hcall
  obtain ⟨hparents, -, -⟩ := c.registries_run_calls hfeature
  rw [← run_calls, hasParent, hparents, Registry.contains_foldl_put]
  rfl

section

variable (title : String) {calls : List Operation} (h : ∀ call ∈ calls, call.isFeature = false)
include h

/-- The base modules are presented by name: `Initializable` first, the others in order of first
addition. -/
theorem names_parents_run_calls :
    let names := ((calls.filterMap Operation.parent?).map (·.base.name)).eraseDups
    ((Contract.new title).run calls).parents.map (·.base.name) =
      names.filter (· == initializableName) ++ names.filter (· != initializableName) := by
  intro names
  have hkeys :
      ((Contract.new title).run calls).parentRegistry.toList.map (·.base.name) = names := by
    rw [(registries_run_calls _ h).1]
    exact Registry.keys_foldl_put_empty _ _
  rw [parents, List.partition_eq_filter_filter, List.map_append, ← hkeys, List.filter_map,
    List.filter_map]
  rfl

/-- What is presented under a name is what was added last under it. -/
theorem find?_of_mem_parents_run_calls {p : Parent}
    (hp : p ∈ ((Contract.new title).run calls).parents) :
    (calls.filterMap Operation.parent?).reverse.find? (·.base.name == p.base.name) = some p := by
  rw [mem_parents, (registries_run_calls _ h).1] at hp
  rw [← Registry.find?_foldl_put_empty fun p : Parent => p.base.name]
  exact Registry.find?_eq_some_iff.mpr ⟨hp, rfl⟩

/-- A base module of a name is there once it was added. -/
theorem hasParent_run_calls_iff (name : String) :
    ((Contract.new title).run calls).hasParent name = true ↔
      ∃ p ∈ calls.filterMap Operation.parent?, p.base.name = name := by
  have hkeys := Registry.keys_foldl_put_empty (fun p : Parent => p.base.name)
    (calls.filterMap Operation.parent?)
  rw [hasParent, (registries_run_calls _ h).1, Registry.contains_iff_mem_keys]
  exact (iff_of_eq (congrArg (name ∈ ·) hkeys)).trans (List.mem_eraseDups.trans List.mem_map)

/-- Variables are declared in order of first addition. -/
theorem declarations_run_calls :
    ((Contract.new title).run calls).declarations =
      (calls.filterMap Operation.declaration?).eraseDups := by
  have hkeys := Registry.keys_foldl_put_empty id (calls.filterMap Operation.declaration?)
  rw [Registry.keys, List.map_id, List.map_id] at hkeys
  rw [declarations, (registries_run_calls _ h).2.1]
  exact hkeys

/-- The next call that adds a base module is told whether a call before it added the name. -/
theorem addParent_isNew_iff (base : BaseModule) (params : List Value) :
    (((Contract.new title).run calls).addParent base params).1 = true ↔
      ∀ p ∈ calls.filterMap Operation.parent?, p.base.name ≠ base.name := by
  have hhas := hasParent_run_calls_iff title h base.name
  rw [addParent, Bool.not_eq_true', ← Bool.not_eq_true, hhas]
  push Not
  rfl

/-- The next call that declares a variable is told whether a call before it declared it. -/
theorem addVariable_isNew_iff (declaration : String) :
    (((Contract.new title).run calls).addVariable declaration).1 = true ↔
      declaration ∉ calls.filterMap Operation.declaration? := by
  have hkeys : ((Contract.new title).run calls).variableRegistry.keys = _ :=
    (List.map_id _).trans (declarations_run_calls title h)
  rw [addVariable, Bool.not_eq_true', ← Bool.not_eq_true, Registry.contains_iff_mem_keys, hkeys,
    List.mem_eraseDups]

end

/-- **Base modules and variables after a run.** Whatever the features of a run ask for, it leaves
what its calls leave. There is one base module for each name that was ever added, the one named
`Initializable` first and the others in order of first addition, each as it was added last; a call
is told that a name is new just when no call before it added the name. Variables are declared once
each, in order of first addition, and a call is told so in the same way. The imports are the paths
of the base modules in their order and behind them those of all libraries that were attached. -/
theorem registries_run (title : String) (operations : List Operation) :
    let start := Contract.new title
    let c := start.run operations
    let calls := start.calls operations
    let added := calls.filterMap Operation.parent?
    let names := (added.map (·.base.name)).eraseDups
    c = start.run calls ∧
      (∀ call ∈ calls, call.isFeature = false) ∧
      c.parents.map (·.base.name) =
        names.filter (· == "Initializable") ++ names.filter (· != "Initializable") ∧
      (∀ p ∈ c.parents, added.reverse.find? (·.base.name == p.base.name) = some p) ∧
      (∀ before base params after, calls = before ++ .addParent base params :: after →
        (((start.run before).addParent base params).1 = true ↔
          ∀ p ∈ before.filterMap Operation.parent?, p.base.name ≠ base.name)) ∧
      (∀ name, c.hasParent name = true ↔ ∃ p ∈ added, p.base.name = name) ∧
      c.declarations = (calls.filterMap Operation.declaration?).eraseDups ∧
      (∀ before declaration after, calls = before ++ .addVariable declaration :: after →
        (((start.run before).addVariable declaration).1 = true ↔
          declaration ∉ before.filterMap Operation.declaration?)) ∧
      c.imports =
        c.parents.map (·.base.path) ++
          (calls.filterMap Operation.attachment?).map (·.library.path) := by
  intro start c calls added names
  have hrun : c = start.run calls := (run_calls start operations).symm
  have hcalls : ∀ call ∈ calls, call.isFeature = false := fun _ => isFeature_of_mem_calls
  have hbefore : ∀ before call after, calls = before ++ call :: after →
      ∀ call ∈ before, call.isFeature = false := fun before call after hsplit other hother =>
    hcalls other (hsplit ▸ List.mem_append_left _ hother)
  have himports : c.imports =
      c.parents.map (·.base.path) ++
        (calls.filterMap Operation.attachment?).map (·.library.path) := by
    rw [imports, hrun, (registries_run_calls start hcalls).2.2]
    rfl
  refine ⟨hrun, hcalls, ?_, ?_, fun before base params after hsplit => ?_, fun name => ?_, ?_,
    fun before declaration after hsplit => ?_, himports⟩
  · rw [hrun]
    exact names_parents_run_calls title hcalls
  · rw [hrun]
    exact fun p hp => find?_of_mem_parents_run_calls title hcalls hp
  · exact addParent_isNew_iff title (hbefore before _ after hsplit) base params
  · rw [hrun]
    exact hasParent_run_calls_iff title hcalls name
  · rw [hrun]
    exact declarations_run_calls title hcalls
  · exact addVariable_isNew_iff title (hbefore before _ after hsplit) declaration

end Contract

end CairoForge
