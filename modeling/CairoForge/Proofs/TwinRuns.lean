import CairoForge.Proofs.EqualContracts

/-!
# Twin runs

Two runs that give other arguments to base modules and describe the contract in other words take
the same steps otherwise. Whether a step adds anything depends on what is there already, and never
on an argument, the license or a tag.

## Main definitions

* `Contract.Twins`, `Operation.Twins` — contracts, and the changes that keep them alike.
* `Operation.describes` — the changes that concern license and tags.

## Main results

* `Contract.Twins.attempt`, `Contract.Twins.run` — a step and a whole run keep twins alike.
* `Contract.Twins.sameFrame` — twins have one frame.
* `Contract.heading_run` — runs that describe nothing leave license and tags alone.
-/

namespace CairoForge

/-- A write of related values under one key keeps related lists related. -/
theorem Registry.forall₂_putIn {α : Type} {key : α → String} {R : α → α → Prop}
    (hkey : ∀ {a b}, R a b → key a = key b) {a b : α} (hab : R a b) {l l' : List α}
    (h : List.Forall₂ R l l') : List.Forall₂ R (putIn key a l) (putIn key b l') := by
  induction h with
  | nil => exact .cons hab .nil
  | @cons c d rest rest' hcd hrest ih =>
    -- related values have one key, so both writes stop at the same place
    rw [putIn, putIn, hkey hcd, hkey hab]
    split
    · exact .cons hab hrest
    · exact .cons hcd ih

namespace Contract

/-- Contracts that agree in everything but name, license, tags and base modules, and whose base
modules are related one by one. -/
structure Twins (R : Parent → Parent → Prop) (a b : Contract) : Prop where
  upgradeable : a.upgradeable = b.upgradeable
  attachments : a.attachments = b.attachments
  constructorArgs : a.constructorArgs = b.constructorArgs
  constructorCode : a.constructorCode = b.constructorCode
  functionRegistry : a.functionRegistry = b.functionRegistry
  variableRegistry : a.variableRegistry = b.variableRegistry
  parents : List.Forall₂ R a.parentRegistry.toList b.parentRegistry.toList

theorem twins_new (R : Parent → Parent → Prop) (first second : String) :
    (new first).Twins R (new second) :=
  ⟨rfl, rfl, rfl, rfl, rfl, rfl, .nil⟩

end Contract

/-- Changes that differ in the arguments of a base module, or in how they describe the contract. -/
inductive Operation.Twins (R : Parent → Parent → Prop) : Operation → Operation → Prop
  | same (operation : Operation) : Twins R operation operation
  | addParent {base : BaseModule} {params params' : List Value}
      (h : R ⟨base, params⟩ ⟨base, params'⟩) :
      Twins R (.addParent base params) (.addParent base params')
  | describe (info info' : Metadata) : Twins R (.describe info) (.describe info')

namespace Contract.Twins

variable {R : Parent → Parent → Prop} {a b : Contract}

theorem forall₂_parents (h : a.Twins R b) (hbase : ∀ {p q}, R p q → p.base = q.base) :
    List.Forall₂ R a.parents b.parents := by
  rw [Contract.parents, Contract.parents, List.partition_eq_filter_filter,
    List.partition_eq_filter_filter]
  exact List.rel_append
    (Parent.forall₂_filter hbase (·.name == initializableName) h.parents)
    (Parent.forall₂_filter hbase (!·.name == initializableName) h.parents)

theorem sameFrame (h : a.Twins R b) (halike : ∀ {p q}, R p q → p.Alike q) : a.SameFrame b where
  upgradeable := h.upgradeable
  attachments := h.attachments
  constructorArgs := h.constructorArgs
  constructorCode := h.constructorCode
  functions := congrArg Registry.toList h.functionRegistry
  declarations := congrArg Registry.toList h.variableRegistry
  parents := (h.forall₂_parents fun hpq => (halike hpq).base).imp fun _ _ => halike

/-! ## Steps -/

theorem hasParent (h : a.Twins R b) (hbase : ∀ {p q}, R p q → p.base = q.base) (name : String) :
    a.hasParent name = b.hasParent name := by
  have hkeys : a.parentRegistry.keys = b.parentRegistry.keys :=
    map_congr_forall₂ (h.parents.imp fun _ _ hpq => congrArg BaseModule.name (hbase hpq))
  rw [Bool.eq_iff_iff, Contract.hasParent, Contract.hasParent, Registry.contains_iff_mem_keys,
    Registry.contains_iff_mem_keys, hkeys]

theorem putFunction (h : a.Twins R b) (function : ContractFunction) :
    (a.putFunction function).Twins R (b.putFunction function) :=
  { h with functionRegistry := congrArg (·.put function) h.functionRegistry }

theorem functionOrFresh (h : a.Twins R b) (template : FunctionTemplate) :
    a.functionOrFresh template = b.functionOrFresh template := by
  rw [Contract.functionOrFresh, Contract.functionOrFresh, function?, function?,
    h.functionRegistry]

theorem addFunction (h : a.Twins R b) (template : FunctionTemplate) :
    (a.addFunction template).Twins R (b.addFunction template) := by
  rw [Contract.addFunction, Contract.addFunction, h.functionOrFresh]
  exact h.putFunction _

theorem addModifier (h : a.Twins R b) (modifier : String) (template : FunctionTemplate) :
    (a.addModifier modifier template).Twins R (b.addModifier modifier template) := by
  rw [Contract.addModifier, Contract.addModifier, h.functionOrFresh]
  exact h.putFunction _

theorem attemptOn (h : a.Twins R b) (template : FunctionTemplate)
    (change : ContractFunction → Except Refusal ContractFunction) :
    (a.attemptOn template change).contract.Twins R (b.attemptOn template change).contract := by
  simp only [Contract.attemptOn, h.functionOrFresh template]
  split <;> exact h.putFunction _

theorem describe (h : a.Twins R b) (info info' : Metadata) :
    ((Operation.describe info).attempt a).contract.Twins R
      ((Operation.describe info').attempt b).contract := by
  simp only [Operation.attempt, describe_eq]
  exact { h with }

variable (hbase : ∀ {p q}, R p q → p.base = q.base)
include hbase

theorem addParent (h : a.Twins R b) {base : BaseModule} {params params' : List Value}
    (hparams : R ⟨base, params⟩ ⟨base, params'⟩) :
    (a.addParent base params).2.Twins R (b.addParent base params').2 :=
  { h with
    parents := Registry.forall₂_putIn (R := R)
      (fun hpq => congrArg BaseModule.name (hbase hpq)) hparams h.parents }

variable (hrefl : ∀ p, R p p)
include hrefl

/-- A guard brings along what is missing, which is the same in twins. -/
theorem restrict (h : a.Twins R b) (entry : FunctionTemplate) (mode : AccessMode) (role : String) :
    (a.restrict entry mode role).Twins R (b.restrict entry mode role) := by
  have hgrants : a.newGrants role mode = b.newGrants role mode := by
    cases mode with
    | ownable => rfl
    | roles => rw [newGrants, newGrants, h.hasParent hbase, h.variableRegistry]
  rw [restrict_eq, restrict_eq]
  exact {
    upgradeable := h.upgradeable
    attachments := h.attachments
    constructorArgs := by rw [h.constructorArgs, h.hasParent hbase]
    constructorCode := by rw [h.constructorCode, hgrants]
    functionRegistry := by rw [h.functionRegistry, h.functionOrFresh]
    variableRegistry := by rw [h.variableRegistry]
    parents := (h.addParent hbase (hrefl mode.parent)).parents }

theorem makePausable (h : a.Twins R b) (mode : AccessMode) (entries : List FunctionTemplate) :
    (a.makePausable mode entries).Twins R (b.makePausable mode entries) := by
  -- by induction on the entry points, over twins as they stand before each one
  have hguarded : ∀ {a b : Contract}, a.Twins R b →
      (entries.foldl (fun c entry => c.addModifier notPausedGuard entry) a).Twins R
        (entries.foldl (fun c entry => c.addModifier notPausedGuard entry) b) := by
    intro a b hab
    induction entries generalizing a b with
    | nil => exact hab
    | cons entry rest ih => exact ih (hab.addModifier _ entry)
  have hpausable := hguarded (h.addParent hbase (hrefl ⟨.pausable, []⟩))
  exact ((hpausable.addFunction .paused).restrict hbase hrefl .pause mode "PAUSER").restrict
    hbase hrefl .unpause mode "PAUSER"

theorem makeUpgradeable (h : a.Twins R b) (upgradeable : Bool) (mode : AccessMode) :
    (a.makeUpgradeable upgradeable mode).Twins R (b.makeUpgradeable upgradeable mode) := by
  cases upgradeable with
  | false => exact h
  | true =>
    have hset : (a.setUpgradeable true).Twins R (b.setUpgradeable true) :=
      { h with upgradeable := rfl }
    have hguarded := (hset.addParent hbase (hrefl ⟨.initializable, []⟩)).restrict hbase hrefl
      .upgrade mode "UPGRADER"
    exact hguarded.addParent hbase (hrefl ⟨.proxy, [.literal "owner"]⟩)

/-- **A step keeps twins alike.** -/
theorem attempt (h : a.Twins R b) {operation operation' : Operation}
    (hoperation : operation.Twins R operation') :
    (operation.attempt a).contract.Twins R (operation'.attempt b).contract := by
  cases hoperation with
  | addParent hparams => exact h.addParent hbase hparams
  | describe info info' => exact h.describe info info'
  | same operation =>
    cases operation with
    | addParent base params => exact h.addParent hbase (hrefl _)
    | addAttachment library target =>
      exact { h with attachments := congrArg (· ++ _) h.attachments }
    | addFunction template => exact h.addFunction template
    | addModifier modifier template => exact h.addModifier modifier template
    | addCode line template => exact h.attemptOn template _
    | setBody lines template => exact h.attemptOn template _
    | addConstructorArg arg =>
      exact { h with constructorArgs := congrArg (· ++ _) h.constructorArgs }
    | addConstructorCode line =>
      exact { h with constructorCode := congrArg (· ++ _) h.constructorCode }
    | addVariable declaration =>
      exact { h with variableRegistry := congrArg (·.put declaration) h.variableRegistry }
    | addTag key value =>
      -- whether the key is refused does not depend on the contract
      change (Operation.orUnchanged a (a.addTag key value)).contract.Twins R
        (Operation.orUnchanged b (b.addTag key value)).contract
      unfold addTag
      split
      · exact { h with }
      · exact h
    | setLicense license => exact { h with }
    | setUpgradeable upgradeable => exact { h with upgradeable := rfl }
    | restrict entry mode role => exact h.restrict hbase hrefl entry mode role
    | makePausable mode entries => exact h.makePausable hbase hrefl mode entries
    | makeUpgradeable upgradeable mode => exact h.makeUpgradeable hbase hrefl upgradeable mode
    | describe info => exact h.describe info info

/-- **Twin runs end in twins.** -/
theorem run (h : a.Twins R b) {operations operations' : List Operation}
    (hoperations : List.Forall₂ (Operation.Twins R) operations operations') :
    (a.run operations).Twins R (b.run operations') := by
  induction hoperations generalizing a b with
  | nil => exact h
  | cons hoperation _ ih =>
    rw [run_cons, run_cons]
    exact ih (h.attempt hbase hrefl hoperation)

end Contract.Twins

/-! ## License and tags -/

/-- Does the change concern the license or the tags? -/
def Operation.describes : Operation → Bool
  | addTag _ _ => true
  | setLicense _ => true
  | describe _ => true
  | _ => false

namespace Contract

theorem heading_attempt (c : Contract) {operation : Operation}
    (h : operation.describes = false) :
    (operation.attempt c).contract.license = c.license ∧
      (operation.attempt c).contract.tags = c.tags := by
  -- license and tags are written by calls that describe the contract, and by no other
  cases operation with
  | addTag => cases h
  | setLicense => cases h
  | describe => cases h
  | addCode line template =>
    simp only [Operation.attempt, addCode, attemptOn]
    split <;> exact ⟨rfl, rfl⟩
  | setBody lines template =>
    simp only [Operation.attempt, setBody, attemptOn]
    split <;> exact ⟨rfl, rfl⟩
  | restrict entry mode role =>
    rw [Operation.attempt, restrict_eq]
    exact ⟨rfl, rfl⟩
  | makePausable mode entries =>
    simp only [Operation.attempt, makePausable, restrict_eq, addModifiers_eq]
    exact ⟨rfl, rfl⟩
  | makeUpgradeable upgradeable mode =>
    cases upgradeable with
    | false => exact ⟨rfl, rfl⟩
    | true =>
      simp only [Operation.attempt, makeUpgradeable, if_true, restrict_eq]
      exact ⟨rfl, rfl⟩
  | _ => exact ⟨rfl, rfl⟩

/-- Runs that describe nothing leave license and tags alone. -/
theorem heading_run (c : Contract) {operations : List Operation}
    (h : ∀ operation ∈ operations, operation.describes = false) :
    (c.run operations).license = c.license ∧ (c.run operations).tags = c.tags := by
  induction operations generalizing c with
  | nil => exact ⟨rfl, rfl⟩
  | cons operation rest ih =>
    obtain ⟨hfirst, hrest⟩ := List.forall_mem_cons.mp h
    obtain ⟨hlicense, htags⟩ := heading_attempt c hfirst
    obtain ⟨hlicense', htags'⟩ := ih (operation.attempt c).contract hrest
    exact ⟨hlicense'.trans hlicense, htags'.trans htags⟩

end Contract

end CairoForge
