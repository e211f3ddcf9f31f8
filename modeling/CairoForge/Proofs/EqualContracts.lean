import CairoForge.Proofs.ImportClosure
import CairoForge.Proofs.RelatedLists

/-!
# Equal contracts

Contracts are compared as they are presented, and numbers as numbers: the place in which a base
module is kept and the sign of a zero make no difference. Nothing that is printed depends on either.

## Main definitions

* `Parent.Alike` — the same base module, with arguments in both contracts or in none.
* `Contract.SameFrame` — contracts that differ at most in license, tags and arguments of
  initializers.
* `Contract.initializing` — what initializes a contract, once the initializer calls are known.

## Main results

* `Contract.SameFrame.importBlocks`, `Contract.SameFrame.routines`, … — what contracts of the same
  frame share.
* `Contract.source_eq_of_beq` — equal contracts have one source or are refused for one reason.
-/

namespace CairoForge

/-! ## Base modules that look alike -/

/-- The same base module, with arguments in both contracts or in none. -/
structure Parent.Alike (p q : Parent) : Prop where
  base : p.base = q.base
  params : p.params.isEmpty = q.params.isEmpty

theorem Parent.eq_and_forall₂_of_beq {p q : Parent} (h : (p == q) = true) :
    p.base = q.base ∧ List.Forall₂ (fun v w => (v == w) = true) p.params q.params := by
  obtain ⟨base, params⟩ := p
  obtain ⟨base', params'⟩ := q
  simp only [BEq.beq, instBEqParent.beq, Bool.and_eq_true] at h
  exact ⟨of_decide_eq_true h.1, forall₂_of_beq h.2⟩

/-- Equal base modules look alike, and their initializers are called alike. -/
theorem Parent.alike_of_beq {p q : Parent} (h : (p == q) = true) :
    p.Alike q ∧ p.initializerCall = q.initializerCall := by
  obtain ⟨hbase, hparams⟩ := eq_and_forall₂_of_beq h
  have hrender : p.params.mapM Value.render = q.params.mapM Value.render :=
    mapM_congr_forall₂ (hparams.imp fun _ _ => Value.render_eq_of_beq)
  refine ⟨⟨hbase, isEmpty_eq_of_forall₂ hparams⟩, ?_⟩
  rw [initializerCall, initializerCall, hbase, hrender]

/-- The same module with equal arguments is an equal one. -/
theorem Parent.beq_self_of_params {p : Parent} (h : (p.params == p.params) = true) :
    (p == p) = true := by
  obtain ⟨base, params⟩ := p
  simp only [BEq.beq, instBEqParent.beq, Bool.and_eq_true, decide_eq_true_eq]
  exact ⟨trivial, h⟩

/-- A base module whose initializer can be called equals itself. -/
theorem Parent.beq_self_of_initializerCall {p : Parent} {call : String}
    (h : p.initializerCall = .ok call) : (p == p) = true := by
  unfold initializerCall at h
  cases hrender : p.params.mapM Value.render with
  | error refusal =>
    rw [hrender] at h
    cases h
  | ok texts =>
    refine beq_self_of_params (beq_self_of_forall_mem fun v hv => ?_)
    obtain ⟨text, -, htext⟩ := exists_of_mem_forall₂ (mapM_eq_ok_iff_forall₂.mp hrender) hv
    exact Value.beq_self_of_render htext

/-- What is kept for its module alone is kept in both contracts. -/
theorem Parent.forall₂_filter {R : Parent → Parent → Prop}
    (hbase : ∀ {p q}, R p q → p.base = q.base) (keep : BaseModule → Bool) {l l' : List Parent}
    (h : List.Forall₂ R l l') :
    List.Forall₂ R (l.filter (keep ·.base)) (l'.filter (keep ·.base)) := by
  refine List.rel_filter ?_ h
  intro p q hpq
  change keep p.base = true ↔ keep q.base = true
  rw [hbase hpq]

/-! ## Contracts of the same frame -/

/-- Contracts that differ at most in license, tags and arguments of initializers. -/
structure Contract.SameFrame (a b : Contract) : Prop where
  upgradeable : a.upgradeable = b.upgradeable
  attachments : a.attachments = b.attachments
  constructorArgs : a.constructorArgs = b.constructorArgs
  constructorCode : a.constructorCode = b.constructorCode
  functions : a.functions = b.functions
  declarations : a.declarations = b.declarations
  parents : List.Forall₂ Parent.Alike a.parents b.parents

/-- What initializes a contract that has something to initialize, given the initializer calls. -/
def Contract.initializing (c : Contract) (naming : Renaming) (calls : List String) :
    List Routine :=
  let statements := [c.onceGuard ++ calls, c.constructorCode]
  if c.upgradeable then
    [.initializing naming
        ["# @custom:oz-upgrades-unsafe-allow constructor", "@constructor"] "constructor" []
        [c.onceGuard],
      .initializing naming ["@external"] "initializer" c.constructorArgs statements]
  else
    [.initializing naming ["@constructor"] "constructor" c.constructorArgs statements]

namespace Contract

theorem constructors_eq (c : Contract) (naming : Renaming) :
    c.constructors naming =
      if c.hasConstructor then c.initializerCalls.map (c.initializing naming) else .ok [] := by
  unfold constructors initializing
  split
  · cases c.initializerCalls with
    | error refusal => rfl
    | ok calls => split <;> rfl
  · rfl

/-- What a function needs depends on the base modules alone, whatever their arguments are. -/
theorem functionDemand?_eq (c : Contract) (function : ContractFunction) :
    c.functionDemand? function = function.template.base?.bind fun name =>
      ((c.parents.map (·.base)).find? (·.name == name)).map fun base =>
        { path := base.importPath, symbols := [name ++ "_" ++ function.template.name] } := by
  unfold functionDemand?
  cases function.template.base? with
  | none => rfl
  | some name =>
    rw [Option.bind_some, List.find?_map, Option.map_map]
    change (c.parents.find? (·.base.name == name)).bind _ =
      (c.parents.find? (·.base.name == name)).map _
    cases c.parents.find? (·.base.name == name) with
    | none => rfl
    | some p => rfl

namespace SameFrame

variable {a b : Contract}

theorem map_base (h : a.SameFrame b) : a.parents.map (·.base) = b.parents.map (·.base) :=
  map_congr_forall₂ (h.parents.imp fun _ _ hpq => hpq.base)

theorem imports (h : a.SameFrame b) : a.imports = b.imports := by
  have hpaths := congrArg (List.map BaseModule.path) h.map_base
  rw [List.map_map, List.map_map] at hpaths
  rw [Contract.imports, Contract.imports, h.attachments]
  exact congrArg (· ++ _) hpaths

theorem hasParent (h : a.SameFrame b) (name : String) : a.hasParent name = b.hasParent name := by
  have hnames := congrArg (List.map BaseModule.name) h.map_base
  rw [List.map_map, List.map_map] at hnames
  have hmem : ∀ c : Contract, c.hasParent name = true ↔
      name ∈ c.parents.map (BaseModule.name ∘ (·.base)) := by
    intro c
    rw [hasParent_iff, List.mem_map]
    rfl
  rw [Bool.eq_iff_iff, hmem, hmem, hnames]

theorem hasConstructor (h : a.SameFrame b) : a.hasConstructor = b.hasConstructor := by
  have hparams : a.parents.map (!·.params.isEmpty) = b.parents.map (!·.params.isEmpty) :=
    map_congr_forall₂ (h.parents.imp fun _ _ hpq => congrArg (!·) hpq.params)
  have hany := congrArg (List.any · id) hparams
  simp only [List.any_map] at hany
  rw [Contract.hasConstructor, Contract.hasConstructor, h.constructorCode]
  exact congrArg (· || _) hany

theorem onceGuard (h : a.SameFrame b) : a.onceGuard = b.onceGuard := by
  rw [Contract.onceGuard, Contract.onceGuard, h.upgradeable, h.hasParent]

theorem initializing (h : a.SameFrame b) (naming : Renaming) (calls : List String) :
    a.initializing naming calls = b.initializing naming calls := by
  unfold Contract.initializing
  rw [h.onceGuard, h.upgradeable, h.constructorArgs, h.constructorCode]

theorem routines (h : a.SameFrame b) (naming : Renaming) (part : Part) :
    a.routines naming part = b.routines naming part := by
  rw [Contract.routines, Contract.routines, h.functions]

theorem functionDemand? (h : a.SameFrame b) (function : ContractFunction) :
    a.functionDemand? function = b.functionDemand? function := by
  rw [functionDemand?_eq, functionDemand?_eq, h.map_base]

theorem importBlocks (h : a.SameFrame b) : a.importBlocks = b.importBlocks := by
  have hparents : a.parents.map a.parentDemand = b.parents.map b.parentDemand := by
    refine map_congr_forall₂ (h.parents.imp fun p q hpq => ?_)
    rw [parentDemand, parentDemand, hpq.base, h.hasConstructor]
  have hdemands : a.importDemands = b.importDemands := by
    rw [importDemands, importDemands, hparents, h.functions, h.attachments,
      funext h.functionDemand?]
  rw [Contract.importBlocks, Contract.importBlocks, hdemands]

/-- Contracts of the same frame whose license, tags and initializer calls agree have one source. -/
theorem source (h : a.SameFrame b) (hlicense : a.license = b.license) (htags : a.tags = b.tags)
    (hcalls : a.initializerCalls = b.initializerCalls) (naming : Renaming) :
    a.source naming = b.source naming := by
  have hconstructors : a.constructors naming = b.constructors naming := by
    rw [constructors_eq, constructors_eq, h.hasConstructor, hcalls,
      funext (h.initializing naming)]
  have hdocument : a.document naming = b.document naming := by
    simp only [document, hconstructors, hlicense, htags, h.importBlocks, h.declarations,
      h.routines naming]
  rw [Contract.source, Contract.source, hdocument]

end SameFrame

/-! ## Equality -/

/-- What equality compares: the frame, license, tags, and the arguments of initializers, of which
the calls depend on nothing that equality passes over. -/
theorem sameFrame_of_beq {a b : Contract} (h : (a == b) = true) :
    a.SameFrame b ∧ a.license = b.license ∧ a.tags = b.tags ∧
      List.Forall₂ (fun p q => (p == q) = true) a.parents b.parents := by
  change a.same b = true at h
  simp only [same, Bool.and_eq_true, beq_iff_eq] at h
  obtain ⟨⟨⟨⟨⟨⟨⟨⟨⟨-, hlicense⟩, hupgradeable⟩, hattachments⟩, htags⟩, hargs⟩, hcode⟩, hparents⟩,
    hfunctions⟩, hdeclarations⟩ := h
  have hbeq := forall₂_of_beq hparents
  exact ⟨⟨hupgradeable, hattachments, hargs, hcode, hfunctions, hdeclarations,
    hbeq.imp fun _ _ hpq => (Parent.alike_of_beq hpq).1⟩, hlicense, htags, hbeq⟩

/-- A contract that can be printed equals itself. -/
theorem beq_self {c : Contract} (h : ∀ p ∈ c.parents, ∃ call, p.initializerCall = .ok call) :
    (c == c) = true := by
  have hparents : (c.parents == c.parents) = true := by
    refine beq_self_of_forall_mem fun p hp => ?_
    obtain ⟨call, hcall⟩ := h p hp
    exact Parent.beq_self_of_initializerCall hcall
  change c.same c = true
  simp only [same, hparents, beq_self_eq_true, Bool.and_self]

/-- **Equal contracts print identically**, whatever is renamed: they have one source, or are refused
for one reason. They have the same imports and base modules of the same names. Numbers are compared
as numbers, so no initializer of equal contracts has NaN among its arguments. -/
theorem source_eq_of_beq {a b : Contract} (h : (a == b) = true) :
    (∀ naming, a.source naming = b.source naming) ∧
      a.imports = b.imports ∧
      (∀ name, a.hasParent name = b.hasParent name) ∧
      ∀ p ∈ a.parents, ∀ v ∈ p.params, ∀ n, v.innermost = .number n → n.datum ≠ .nan := by
  obtain ⟨hframe, hlicense, htags, hparents⟩ := sameFrame_of_beq h
  have hcalls : a.initializerCalls = b.initializerCalls := by
    -- the filter looks at the modules, which are the same
    have hcalled := Parent.forall₂_filter (fun hpq => (Parent.alike_of_beq hpq).1.base)
      BaseModule.hasInitializer hparents
    exact mapM_congr_forall₂ (hcalled.imp fun _ _ hpq => (Parent.alike_of_beq hpq).2)
  refine ⟨hframe.source hlicense htags hcalls, hframe.imports, hframe.hasParent, ?_⟩
  intro p hp v hv n hn
  obtain ⟨q, -, hpq⟩ := exists_of_mem_forall₂ hparents hp
  obtain ⟨w, -, hvw⟩ := exists_of_mem_forall₂ (Parent.eq_and_forall₂_of_beq hpq).2 hv
  exact Value.datum_ne_nan_of_beq hvw hn

/-- Two runs that end in equal contracts: one counts from zero and adds the module that guards
against a second initialization first, the other counts from minus zero and adds it last. -/
theorem source_eq_of_beq_of_zeros :
    let a := (Contract.new "Coin").run
      [.addParent .initializable [], .addParent .erc20 [.note "supply" (.number ⟨0⟩)]]
    let b := (Contract.new "coin").run
      [.addParent .erc20 [.note "supply" (.number ⟨0x8000000000000000⟩)],
        .addParent .initializable []]
    (a == b) = true ∧ a.source {} = b.source {} := by
  intro a b
  have h : (a == b) = true := by decide
  exact ⟨h, (source_eq_of_beq h).1 {}⟩

end Contract

end CairoForge
