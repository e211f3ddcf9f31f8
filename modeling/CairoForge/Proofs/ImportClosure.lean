import CairoForge.Proofs.Composition
import CairoForge.Proofs.PrintedFunctions

/-!
# Import closure

Statements name symbols of base modules, and the source imports symbols from the paths of base
modules. The two are computed apart from each other: initializer calls from the base modules,
guards and calls from the functions, grants from the constructor, imports from names and
descriptions of modules. In a composed contract they agree.

## Main definitions

* `Document.statements` — every statement that is printed.
* `Contract.Prints` — where a statement of a contract comes from.
* `Contract.Names` — what a statement of a contract names.

## Main results

* `Contract.Closed.document` — the printed statements of a closed contract.
* `Contract.Closed.imported` — what is named in a closed contract is imported.
* `Contract.Closed.named` — what is imported in a closed contract without unused guards is named.
-/

namespace CairoForge

/-! ## Printed statements -/

namespace Document

/-- The routines in the order of the source. -/
def routines (d : Document) : List Routine :=
  d.constructors ++ d.withCode ++ d.guarded ++ d.passThrough

/-- The statements of all routines, returns aside. -/
def statements (d : Document) : List String :=
  d.routines.flatMap (·.statements.flatten)

end Document

/-- A traversal succeeds where every element does, and has their results. -/
theorem mapM_eq_ok {α β ε : Type} {f : α → Except ε β} {l : List α}
    (h : ∀ a ∈ l, ∃ b, f a = .ok b) :
    ∃ bs, l.mapM f = .ok bs ∧ ∀ b, b ∈ bs ↔ ∃ a ∈ l, f a = .ok b := by
  induction l with
  | nil => exact ⟨[], rfl, by simp⟩
  | cons a rest ih =>
    obtain ⟨⟨b, hb⟩, hrest⟩ := List.forall_mem_cons.mp h
    obtain ⟨bs, hbs, hmem⟩ := ih hrest
    refine ⟨b :: bs, ?_, ?_⟩
    · rw [List.mapM_cons, hb, hbs]
      rfl
    · intro other
      simp only [List.mem_cons, exists_eq_or_imp, hmem, hb, Except.ok.injEq, eq_comm (a := other)]

/-- The call of an initializer is its name with arguments in parentheses. -/
theorem Parent.initializerCall_eq {p : Parent} {call : String}
    (h : p.initializerCall = .ok call) :
    ∃ params, call = p.base.initializerSymbol ++ "(" ++ params ++ ")" := by
  unfold initializerCall at h
  cases hparams : p.params.mapM Value.render with
  | error refusal =>
    rw [hparams] at h
    cases h
  | ok params =>
    rw [hparams] at h
    have hcall : p.base.initializerSymbol ++ "(" ++ Routine.commaSeparated params ++ ")" = call :=
      Except.ok.inj h
    exact ⟨_, hcall.symm⟩

namespace Contract

variable {c : Contract} {naming : Renaming}

/-- The base modules as they are presented are those that were added, in another order. -/
theorem parents_perm (c : Contract) : c.parents.Perm c.parentRegistry.toList := by
  rw [parents, List.partition_eq_filter_filter]
  exact List.filter_append_perm _ _

theorem mem_parents {p : Parent} : p ∈ c.parents ↔ p ∈ c.parentRegistry.toList :=
  c.parents_perm.mem_iff

/-- A base module of a name is there when one of the presented ones has it. -/
theorem hasParent_iff {name : String} :
    c.hasParent name = true ↔ ∃ p ∈ c.parents, p.base.name = name := by
  simp only [hasParent, Registry.contains, List.any_eq_true, beq_iff_eq, mem_parents]

theorem mem_statements_routines {part : Part} {statement : String} :
    statement ∈ (c.routines naming part).flatMap (·.statements.flatten) ↔
      ∃ function ∈ c.functions, partOf function = part ∧ statement ∈ function.statements := by
  simp only [routines, List.mem_flatMap, List.mem_map, List.mem_filter, beq_iff_eq]
  constructor
  · rintro ⟨_, ⟨function, ⟨hfunction, hpart⟩, rfl⟩, hstatement⟩
    exact ⟨function, hfunction, hpart, by simpa [ContractFunction.routine] using hstatement⟩
  · rintro ⟨function, hfunction, hpart, hstatement⟩
    exact ⟨_, ⟨function, ⟨hfunction, hpart⟩, rfl⟩,
      by simpa [ContractFunction.routine] using hstatement⟩

/-- The statements of the routines that initialize a contract. -/
theorem mem_statements_constructors {calls : List String} {routines : List Routine}
    (hconstructor : c.hasConstructor = true) (hcalls : c.initializerCalls = .ok calls)
    (h : c.constructors naming = .ok routines) {statement : String} :
    statement ∈ routines.flatMap (·.statements.flatten) ↔
      statement ∈ c.onceGuard ∨ statement ∈ calls ∨ statement ∈ c.constructorCode := by
  unfold constructors at h
  rw [if_pos hconstructor, hcalls] at h
  change (if c.upgradeable = true then _ else _) = _ at h
  split at h
  · obtain rfl := Except.ok.inj h
    simp [Routine.initializing]
  · obtain rfl := Except.ok.inj h
    simp [Routine.initializing]

theorem mem_statements_iff {d : Document} {calls : List String}
    (hconstructor : c.hasConstructor = true) (hcalls : c.initializerCalls = .ok calls)
    (h : c.document naming = .ok d) {statement : String} :
    statement ∈ d.statements ↔
      (∃ function ∈ c.functions, statement ∈ function.statements) ∨
        statement ∈ c.onceGuard ∨ statement ∈ calls ∨ statement ∈ c.constructorCode := by
  obtain ⟨routines, hroutines, rfl⟩ := document_eq_ok_iff.mp h
  simp only [Document.statements, Document.routines, List.flatMap_append, List.mem_append,
    mem_statements_constructors hconstructor hcalls hroutines, mem_statements_routines]
  -- the three parts hold every function, whichever part it stands in
  constructor
  · rintro (((h | ⟨f, hf, -, hs⟩) | ⟨f, hf, -, hs⟩) | ⟨f, hf, -, hs⟩)
    · exact .inr h
    · exact .inl ⟨f, hf, hs⟩
    · exact .inl ⟨f, hf, hs⟩
    · exact .inl ⟨f, hf, hs⟩
  · rintro (⟨f, hf, hs⟩ | h)
    · cases hpart : partOf f with
      | withCode => exact .inl (.inl (.inr ⟨f, hf, hpart, hs⟩))
      | guarded => exact .inl (.inr ⟨f, hf, hpart, hs⟩)
      | passThrough => exact .inr ⟨f, hf, hpart, hs⟩
    · exact .inl (.inl (.inl h))

/-- **Where printed statements come from**: functions, the guard against a second initialization,
initializer calls, and the code of the constructor. -/
inductive Prints (c : Contract) (statement : String) : Prop
  | function {function : ContractFunction} (hfunction : function ∈ c.functions)
      (hmem : statement ∈ function.statements)
  | once (hmem : statement ∈ c.onceGuard)
  | initializer {p : Parent} (hp : p ∈ c.parents) (hinitializer : p.base.hasInitializer = true)
      (hcall : p.initializerCall = .ok statement)
  | code (hmem : statement ∈ c.constructorCode)

/-! ## Names in statements -/

/-- **What a statement of a contract names**: a base module by its name, and a symbol of it. -/
inductive Names (c : Contract) : String → String → String → Prop
  /-- The call of an initializer names the initializer. -/
  | initializer {p : Parent} {call : String} (hp : p ∈ c.parents)
      (hinitializer : p.base.hasInitializer = true) (hcall : p.initializerCall = .ok call) :
      Names c call p.base.name p.base.initializerSymbol
  /-- The guard against a second initialization names itself. -/
  | once (hupgradeable : c.upgradeable = true) (hparent : c.hasParent "Initializable" = true) :
      Names c initializeGuard "Initializable" "Initializable_initialize"
  /-- The call of a base module names the function of the module. -/
  | call {function : ContractFunction} {base : String} (hfunction : function ∈ c.functions)
      (hbase : function.template.base? = some base) :
      Names c (ContractFunction.baseCall function.template base) base
        (base ++ "_" ++ function.template.name)
  /-- A guard names what it calls. -/
  | guard {function : ContractFunction} {modifier base symbol : String}
      (hfunction : function ∈ c.functions) (hmodifier : modifier ∈ function.modifiers)
      (hguard : Guard modifier base symbol) : Names c modifier base symbol
  /-- A grant names what it calls. -/
  | grant {constant : String} (hgrant : grantStatement constant ∈ c.constructorCode) :
      Names c (grantStatement constant) "AccessControl" "AccessControl_grant_role"
  /-- The grant of the first role names the role too. -/
  | administrator (hgrant : grantStatement "DEFAULT_ADMIN_ROLE" ∈ c.constructorCode) :
      Names c (grantStatement "DEFAULT_ADMIN_ROLE") "AccessControl" "DEFAULT_ADMIN_ROLE"

/-- What a function needs: the function of the same name, from the module that it calls. -/
theorem functionDemand?_eq_some_iff {function : ContractFunction} {demand : ImportBlock} :
    c.functionDemand? function = some demand ↔
      ∃ base p, function.template.base? = some base ∧
        c.parents.find? (·.base.name == base) = some p ∧
        demand = { path := p.base.importPath,
                   symbols := [base ++ "_" ++ function.template.name] } := by
  unfold functionDemand?
  constructor
  · intro h
    obtain ⟨base, hbase, h⟩ := Option.bind_eq_some_iff.mp h
    obtain ⟨p, hfind, h⟩ := Option.bind_eq_some_iff.mp h
    exact ⟨base, p, hbase, hfind, (Option.some.inj h).symm⟩
  · rintro ⟨base, p, hbase, hfind, rfl⟩
    simp [hbase, hfind]

theorem exists_find?_parents {name : String} (h : c.hasParent name = true) :
    ∃ p, c.parents.find? (·.base.name == name) = some p := by
  obtain ⟨p, hp, hname⟩ := hasParent_iff.mp h
  exact Option.isSome_iff_exists.mp (List.find?_isSome.mpr ⟨p, hp, by simpa using hname⟩)

theorem of_find?_parents {name : String} {p : Parent}
    (h : c.parents.find? (·.base.name == name) = some p) :
    p ∈ c.parents ∧ p.base.name = name :=
  ⟨List.mem_of_find?_eq_some h, by simpa using List.find?_some h⟩

namespace Closed

/-- The token has arguments for its initializer, so there is a constructor. -/
theorem hasConstructor (h : c.Closed) : c.hasConstructor = true := by
  obtain ⟨p, hp, -, hparams⟩ := h.token
  rw [Contract.hasConstructor, Bool.or_eq_true_iff]
  refine .inl (List.any_eq_true.mpr ⟨p, mem_parents.mpr hp, ?_⟩)
  simpa using hparams

/-- Every initializer can be called. -/
theorem initializerCalls (h : c.Closed) :
    ∃ calls, c.initializerCalls = .ok calls ∧ ∀ call, call ∈ calls ↔
      ∃ p ∈ c.parents, p.base.hasInitializer = true ∧ p.initializerCall = .ok call := by
  have hcalls : ∀ p ∈ c.parents.filter (·.base.hasInitializer),
      ∃ call, p.initializerCall = .ok call := by
    intro p hp
    exact (h.known p (mem_parents.mp (List.mem_filter.mp hp).1)).2
  obtain ⟨calls, hok, hmem⟩ := mapM_eq_ok hcalls
  refine ⟨calls, hok, fun call => ?_⟩
  simp only [hmem, List.mem_filter, and_assoc]

/-- A closed contract can be printed, and its statements are known. -/
theorem document (h : c.Closed) (naming : Renaming) :
    ∃ d, c.document naming = .ok d ∧
      ∀ statement, statement ∈ d.statements ↔ c.Prints statement := by
  obtain ⟨calls, hcalls, hmem⟩ := h.initializerCalls
  have hconstructors : ∃ routines, c.constructors naming = .ok routines := by
    -- behind a proxy there is an initializer besides the constructor
    unfold constructors
    rw [if_pos h.hasConstructor, hcalls]
    change ∃ _, (if c.upgradeable = true then _ else _) = _
    split
    · exact ⟨_, rfl⟩
    · exact ⟨_, rfl⟩
  obtain ⟨routines, hroutines⟩ := hconstructors
  have hd := document_eq_ok_iff.mpr ⟨routines, hroutines, rfl⟩
  refine ⟨_, hd, fun statement => ?_⟩
  rw [mem_statements_iff h.hasConstructor hcalls hd, hmem]
  constructor
  · rintro (⟨function, hfunction, hstatement⟩ | honce | ⟨p, hp, hinitializer, hcall⟩ | hcode)
    · exact .function hfunction hstatement
    · exact .once honce
    · exact .initializer hp hinitializer hcall
    · exact .code hcode
  · intro hprints
    cases hprints with
    | function hfunction hstatement => exact .inl ⟨_, hfunction, hstatement⟩
    | once honce => exact .inr (.inl honce)
    | initializer hp hinitializer hcall => exact .inr (.inr (.inl ⟨_, hp, hinitializer, hcall⟩))
    | code hcode => exact .inr (.inr (.inr hcode))

/-- A base module of a name is the module of the library with this name. -/
theorem exists_parent (h : c.Closed) {base : BaseModule} (hlibrary : base ∈ BaseModule.library)
    (hparent : c.hasParent base.name = true) : ∃ p ∈ c.parents, p.base = base := by
  obtain ⟨p, hp, hname⟩ := hasParent_iff.mp hparent
  exact ⟨p, hp, BaseModule.eq_of_name_eq (h.known p (mem_parents.mp hp)).1 hlibrary hname⟩

/-- A symbol that a module of the library always has is imported with the module. -/
theorem imported_of_mem_symbols (h : c.Closed) (base : BaseModule)
    (hlibrary : base ∈ BaseModule.library) (hparent : c.hasParent base.name = true)
    {symbol : String} (hsymbol : symbol ∈ base.symbols) :
    ∃ p ∈ c.parents, p.base.name = base.name ∧
      ∃ block ∈ c.importBlocks, block.path = p.base.importPath ∧ symbol ∈ block.symbols := by
  obtain ⟨p, hp, rfl⟩ := h.exists_parent hlibrary hparent
  refine ⟨p, hp, rfl, mem_importBlocks.mpr ⟨c.parentDemand p, ?_, rfl, ?_⟩⟩
  · exact List.mem_append_left _ (List.mem_append_left _ (List.mem_map_of_mem hp))
  · exact List.mem_append_right _ hsymbol

/-- **What is named is imported** from the path of the base module that provides it. -/
theorem imported (h : c.Closed) {statement base symbol : String}
    (hnames : c.Names statement base symbol) :
    ∃ p ∈ c.parents, p.base.name = base ∧
      ∃ block ∈ c.importBlocks, block.path = p.base.importPath ∧ symbol ∈ block.symbols := by
  cases hnames with
  | @initializer p call hp hinitializer hcall =>
    -- the constructor exists, so its calls are among the demands
    refine ⟨p, hp, rfl, mem_importBlocks.mpr ⟨c.parentDemand p, ?_, rfl, ?_⟩⟩
    · exact List.mem_append_left _ (List.mem_append_left _ (List.mem_map_of_mem hp))
    · refine List.mem_append_left _ ?_
      rw [h.hasConstructor, hinitializer]
      exact List.mem_singleton_self _
  | once hupgradeable hparent =>
    exact h.imported_of_mem_symbols .initializable (by decide) hparent (by decide)
  | @call function base hfunction hbase =>
    -- the demand is of the first base module with the name, which need not be the only witness
    have hparent := (h.functions function hfunction).call base hbase
    obtain ⟨p, hfind⟩ := exists_find?_parents hparent
    have hdemand := functionDemand?_eq_some_iff.mpr ⟨base, p, hbase, hfind, rfl⟩
    obtain ⟨hp, hname⟩ := of_find?_parents hfind
    have hmem := List.mem_filterMap.mpr ⟨function, hfunction, hdemand⟩
    exact ⟨p, hp, hname, mem_importBlocks.mpr
      ⟨_, List.mem_append_left _ (List.mem_append_right _ hmem), rfl, List.mem_singleton_self _⟩⟩
  | @guard function modifier base symbol hfunction hmodifier hguard =>
    -- the modifier is a guard of an available module, and a guard has one module only
    obtain ⟨other, _, hother, hparent⟩ := (h.functions function hfunction).guards _ hmodifier
    obtain rfl := hguard.base_unique hother
    obtain ⟨module, hlibrary, rfl, hsymbol⟩ := hguard.exists_module
    exact h.imported_of_mem_symbols module hlibrary hparent hsymbol
  | @grant constant hgrant =>
    exact h.imported_of_mem_symbols .accessControl (by decide)
      (h.granted.grants _ hgrant).2 (by decide)
  | administrator hgrant =>
    exact h.imported_of_mem_symbols .accessControl (by decide)
      (h.granted.grants _ hgrant).2 (by decide)

/-- Every printed statement names something. -/
theorem exists_names (h : c.Closed) {statement : String} (hprints : c.Prints statement) :
    ∃ base symbol, c.Names statement base symbol := by
  cases hprints with
  | @function function hfunction hmem =>
    -- there is no code, so a statement is a modifier or the call
    have hrelies := h.functions function hfunction
    rw [ContractFunction.statements, ContractFunction.code, hrelies.body, FunctionBody.code,
      List.append_nil, List.mem_append] at hmem
    rcases hmem with hmodifier | hcall
    · obtain ⟨base, symbol, hguard, -⟩ := hrelies.guards statement hmodifier
      exact ⟨base, symbol, .guard hfunction hmodifier hguard⟩
    · obtain ⟨base, hbase, rfl⟩ := Option.map_eq_some_iff.mp (Option.mem_toList.mp hcall)
      exact ⟨base, _, .call hfunction hbase⟩
  | once honce =>
    rw [onceGuard, List.mem_ite_nil_right, Bool.and_eq_true] at honce
    obtain ⟨⟨hupgradeable, hparent⟩, hguard⟩ := honce
    obtain rfl := List.mem_singleton.mp hguard
    exact ⟨_, _, .once hupgradeable hparent⟩
  | initializer hp hinitializer hcall => exact ⟨_, _, .initializer hp hinitializer hcall⟩
  | code hcode =>
    obtain ⟨⟨constant, rfl⟩, -⟩ := h.granted.grants statement hcode
    exact ⟨_, _, .grant hcode⟩

end Closed

/-- Whatever names something is printed. -/
theorem Names.prints {statement base symbol : String} (h : c.Names statement base symbol) :
    c.Prints statement := by
  cases h with
  | initializer hp hinitializer hcall => exact .initializer hp hinitializer hcall
  | once hupgradeable hparent =>
    refine .once ?_
    rw [onceGuard, hupgradeable]
    exact List.mem_ite_nil_right.mpr ⟨hparent, List.mem_singleton_self _⟩
  | call hfunction hbase =>
    refine .function hfunction (List.mem_append_left _ (List.mem_append_right _ ?_))
    rw [hbase]
    exact List.mem_singleton_self _
  | guard hfunction hmodifier hguard =>
    exact .function hfunction (List.mem_append_left _ (List.mem_append_left _ hmodifier))
  | grant hgrant => exact .code hgrant
  | administrator hgrant => exact .code hgrant

/-- Whatever is named occurs in the text of the statement. -/
theorem Names.occurs {statement base symbol : String} (h : c.Names statement base symbol) :
    ∃ before after, statement = before ++ symbol ++ after := by
  -- the text is appended piece by piece, with the symbol as a piece of its own
  cases h with
  | initializer _ _ hcall =>
    obtain ⟨params, rfl⟩ := Parent.initializerCall_eq hcall
    refine ⟨"", "(" ++ (params ++ ")"), ?_⟩
    simp only [String.empty_append, String.append_assoc]
  | once => exact ⟨"", "()", by decide⟩
  | @call function base _ _ =>
    refine ⟨ContractFunction.binding function.template, "(" ++
      (", ".intercalate (function.template.args.map (·.name)) ++ ")"), ?_⟩
    simp only [ContractFunction.baseCall_eq, String.append_assoc]
  | guard _ _ hguard =>
    cases hguard with
    | owner => exact ⟨"", "()", by decide⟩
    | role constant =>
      have hopen : "AccessControl_only_role(" = "AccessControl_only_role" ++ "(" := by decide
      refine ⟨"", "(" ++ (constant ++ ")"), ?_⟩
      rw [hopen, String.empty_append, String.append_assoc, String.append_assoc]
    | notPaused => exact ⟨"", "()", by decide⟩
  | @grant constant _ =>
    have hopen : "AccessControl_grant_role(" = "AccessControl_grant_role" ++ "(" := by decide
    refine ⟨"", "(" ++ (constant ++ ", owner)"), ?_⟩
    unfold grantStatement
    rw [hopen, String.empty_append, String.append_assoc, String.append_assoc]
  | administrator => exact ⟨"AccessControl_grant_role(", ", owner)", rfl⟩

/-- The symbols that modules of the library always have are those of guards, those of the grants,
and the guard against a second initialization. -/
theorem library_symbols {base : BaseModule} (hlibrary : base ∈ BaseModule.library) {symbol : String}
    (hsymbol : symbol ∈ base.symbols) :
    (∃ guard, Guard guard base.name symbol) ∨
      (base.name = "AccessControl" ∧
        (symbol = "AccessControl_grant_role" ∨ symbol = "DEFAULT_ADMIN_ROLE")) ∨
      (base.name = "Initializable" ∧ symbol = "Initializable_initialize") := by
  -- the library is a closed table, so its symbols can be listed
  have hall : ∀ base ∈ BaseModule.library, ∀ symbol ∈ base.symbols,
      (base.name, symbol) ∈ [("Ownable", "Ownable_only_owner"),
        ("AccessControl", "AccessControl_only_role"), ("Pausable", "Pausable_when_not_paused"),
        ("AccessControl", "AccessControl_grant_role"), ("AccessControl", "DEFAULT_ADMIN_ROLE"),
        ("Initializable", "Initializable_initialize")] := by decide
  have hmem := hall base hlibrary symbol hsymbol
  simp only [List.mem_cons, Prod.mk.injEq, List.not_mem_nil, or_false] at hmem
  rcases hmem with ⟨hname, rfl⟩ | ⟨hname, rfl⟩ | ⟨hname, rfl⟩ | ⟨hname, rfl⟩ | ⟨hname, rfl⟩ |
    ⟨hname, rfl⟩
  · rw [hname]
    exact .inl ⟨_, .owner⟩
  · rw [hname]
    exact .inl ⟨_, .role ""⟩
  · rw [hname]
    exact .inl ⟨_, .notPaused⟩
  · exact .inr (.inl ⟨hname, .inl rfl⟩)
  · exact .inr (.inl ⟨hname, .inr rfl⟩)
  · exact .inr (.inr ⟨hname, rfl⟩)

/-- **What is imported is named** where no guard goes unused. -/
theorem Closed.named (h : c.Closed) (hused : c.Used) {block : ImportBlock}
    (hblock : block ∈ c.importBlocks) {symbol : String} (hsymbol : symbol ∈ block.symbols) :
    ∃ statement base, c.Names statement base symbol ∧
      ∃ p ∈ c.parents, p.base.name = base ∧ p.base.importPath = block.path := by
  -- someone needs the symbol: a base module for itself, or a function that calls one
  obtain ⟨demand, hdemand, hpath, hneeded⟩ := mem_importBlocks.mp ⟨block, hblock, rfl, hsymbol⟩
  rw [importDemands, h.attachments, List.map_nil, List.append_nil] at hdemand
  rcases List.mem_append.mp hdemand with hparent | hfunction
  · obtain ⟨p, hp, rfl⟩ := List.mem_map.mp hparent
    obtain ⟨hlibrary, call, hcall⟩ := h.known p (mem_parents.mp hp)
    have hname : c.hasParent p.base.name = true := hasParent_iff.mpr ⟨p, hp, rfl⟩
    rw [parentDemand, h.hasConstructor] at hneeded
    rcases List.mem_append.mp hneeded with hinitializer | hown
    · obtain ⟨hinit, hsymbol⟩ := List.mem_ite_nil_right.mp hinitializer
      obtain rfl := List.mem_singleton.mp hsymbol
      exact ⟨call, _, .initializer hp hinit hcall, p, hp, rfl, hpath⟩
    · -- the module needs it: then a guard, a grant or the guard of initialization names it
      rcases library_symbols hlibrary hown with ⟨guard, hguard⟩ | ⟨hroles, rfl | rfl⟩ | ⟨hinit, rfl⟩
      · obtain ⟨function, hfunction, modifier, hmodifier, other, hcalled⟩ :=
          hused p.base.name hname ⟨guard, symbol, hguard⟩
        obtain rfl := hcalled.symbol_unique hguard
        exact ⟨modifier, _, .guard hfunction hmodifier hcalled, p, hp, rfl, hpath⟩
      · have hgrant := h.granted.administrator (hroles ▸ hname)
        exact ⟨_, _, .grant hgrant, p, hp, hroles, hpath⟩
      · have hgrant := h.granted.administrator (hroles ▸ hname)
        exact ⟨_, _, .administrator hgrant, p, hp, hroles, hpath⟩
      · have honce : c.hasParent "Initializable" = true := hinit ▸ hname
        exact ⟨_, _, .once (h.proxied honce) honce, p, hp, hinit, hpath⟩
  · -- what a function needs is named by its call
    obtain ⟨function, hmem, hsome⟩ := List.mem_filterMap.mp hfunction
    obtain ⟨base, p, hbase, hfind, rfl⟩ := functionDemand?_eq_some_iff.mp hsome
    obtain ⟨hp, hname⟩ := of_find?_parents hfind
    obtain rfl := List.mem_singleton.mp hneeded
    exact ⟨_, base, .call hmem hbase, p, hp, hname, hpath⟩

theorem imports_of_document {d : Document} (h : c.document {} = .ok d) :
    d.imports = c.importBlocks := by
  obtain ⟨routines, -, rfl⟩ := document_eq_ok_iff.mp h
  exact List.map_id _

end Contract

end CairoForge
