import CairoForge.Proofs.EqualContracts
import CairoForge.Proofs.SourceLines

/-!
# Layout of what initializes a contract

A contract is initialized by the calls of the initializers of its base modules and then by its own
statements. Behind a proxy the constructor of the implementation never runs for the proxy, so the
same statements stand in an initializer instead, and the constructor is left with the guard that
locks it. Both shapes are printed from one list of statements.

## Main definitions

* `initializingRows` — the rows of a constructor or initializer.
* `Document.above` — the sections above what initializes the contract.

## Main results

* `Routine.rows_initializing` — a constructor or initializer is printed as these rows.
* `Document.render_eq_around_constructors` — the text of a document around them.
* `Contract.exists_initializerCalls` — the calls of a contract that can be printed, one for each
  base module with an initializer.
* `Contract.document_setUpgradeable` — what the proxy changes in the document of a contract.
* `Contract.countP_external_initializer` — functions that stand beside the initializer.
* `Contract.source_initializing` — the source with and without a proxy, row by row.
-/

namespace CairoForge

/-! ## Rows -/

/-- The rows of a constructor or initializer: annotations, head, the groups of statements that are
not empty with a blank row between each two, and the return of nothing. -/
def initializingRows (naming : Renaming) (annotations : List String) (name : String)
    (args : List Argument) (groups : List (List String)) : List String :=
  annotations ++
    ["func " ++ name ++ "\x7b", "        syscall_ptr: felt*,",
      "        pedersen_ptr: " ++ naming.typeName "HashBuiltin*" ++ ",",
      "        range_check_ptr",
      "    \x7d(" ++ ", ".intercalate (args.map (Argument.render naming)) ++ "):"] ++
    [""].intercalate ((groups.filter (!·.isEmpty)).map (·.map ("    " ++ ·))) ++
    ["    return ()", "end"]

/-- The head of a constructor or initializer: its implicit arguments are those of every entry
point. -/
theorem Routine.rows_head_initializing (naming : Renaming) (annotations : List String)
    (name : String) (args : List Argument) (groups : List (List String)) :
    Layout.rows (Routine.initializing naming annotations name args groups).head =
      ["func " ++ name ++ "\x7b", "        syscall_ptr: felt*,",
        "        pedersen_ptr: " ++ naming.typeName "HashBuiltin*" ++ ",",
        "        range_check_ptr",
        "    \x7d(" ++ ", ".intercalate (args.map (Argument.render naming)) ++ "):"] := by
  have hpointer : "        pedersen_ptr: " = "        " ++ "pedersen_ptr: " := by decide
  have hclose : "    \x7d(" = "    " ++ ("\x7d" ++ "(") := by decide
  simp [initializing, head, headEnd, withCommas, commaSeparated, Argument.implicits,
    Argument.render, isLibraryType, Layout.rows, Layout.rowsAt, Layout.rowsOf, Layout.lines,
    Layout.indentation, String.append_assoc]
  rw [hpointer, hclose]
  simp only [String.append_assoc, and_self]

/-- **The rows of a constructor or initializer.** -/
theorem Routine.rows_initializing (naming : Renaming) (annotations : List String) (name : String)
    (args : List Argument) (groups : List (List String)) :
    Layout.rows (Routine.initializing naming annotations name args groups).layout =
      initializingRows naming annotations name args groups := by
  have hopening : (Routine.initializing naming annotations name args groups).opening =
      annotations ++ Layout.rows (Routine.initializing naming annotations name args groups).head :=
    (Layout.rowsAt_append 0 _ _).trans (congrArg (· ++ _) (Layout.rows_lines annotations))
  have hreturn : Layout.indentation 1 ++
      (Routine.initializing naming annotations name args groups).returnStatement =
        "    return ()" :=
    (by decide : Layout.indentation 1 ++ ("return (" ++ commaSeparated [] ++ ")") = "    return ()")
  rw [rows_layout, hopening, rows_head_initializing, hreturn, initializingRows]
  simp only [List.append_assoc]
  rfl

/-! ## Sections -/

namespace Document

/-- The sections above what initializes the contract. -/
def above (d : Document) : List (List Layout) :=
  front { d with constructors := [] }

theorem front_eq (d : Document) : d.front = d.above ++ d.constructors.map Routine.layout := by
  simp [above, front]

/-- Every routine has rows, so none is left out. -/
theorem filter_map_layout (routines : List Routine) :
    (routines.map Routine.layout).filter (!·.isEmpty) = routines.map Routine.layout := by
  refine List.filter_eq_self.mpr fun group hgroup => ?_
  obtain ⟨r, -, rfl⟩ := List.mem_map.mp hgroup
  simpa using layout_ne_nil r

/-- The text of a document around what initializes the contract. -/
theorem render_eq_around_constructors (d : Document) :
    d.render =
      "\n".intercalate ([""].intercalate
        ((d.above.filter (!·.isEmpty)).map Layout.rows ++
          d.constructors.map (Layout.rows ·.layout) ++
          d.functionSections.map Layout.rows)) ++ "\n" := by
  rw [render_eq, front_eq, List.filter_append, filter_map_layout, List.map_append, List.map_map]
  rfl

end Document

namespace Contract

variable {c : Contract} {naming : Renaming}

/-! ## Statements -/

/-- Without a constructor there are no arguments that could keep a call from being printed. -/
theorem exists_initializerCalls_of_hasConstructor_eq_false (h : c.hasConstructor = false) :
    ∃ calls, c.initializerCalls = .ok calls := by
  refine exists_mapM_eq_ok_iff.mpr fun p hp => ?_
  rw [hasConstructor, Bool.or_eq_false_iff, List.any_eq_false] at h
  have hparams : p.params = [] := by simpa using h.1 p (List.mem_filter.mp hp).1
  rw [Parent.initializerCall, hparams]
  exact ⟨_, rfl⟩

/-- A contract that can be printed has a call for each base module with an initializer. -/
theorem exists_initializerCalls {d : Document} (h : c.document naming = .ok d) :
    ∃ calls, c.initializerCalls = .ok calls := by
  obtain ⟨routines, hroutines, -⟩ := document_eq_ok_iff.mp h
  rw [constructors_eq] at hroutines
  cases hconstructor : c.hasConstructor with
  | true =>
    rw [if_pos hconstructor] at hroutines
    cases hcalls : c.initializerCalls with
    | error refusal =>
      rw [hcalls] at hroutines
      cases hroutines
    | ok calls => exact ⟨calls, rfl⟩
  | false => exact exists_initializerCalls_of_hasConstructor_eq_false hconstructor

/-- The call of an initializer names the base module and has its arguments in order. -/
theorem initializerCall_eq_ok_iff {p : Parent} {call : String} :
    p.initializerCall = .ok call ↔
      ∃ params, p.params.mapM Value.render = .ok params ∧
        call = p.base.name ++ "_initializer(" ++ ", ".intercalate params ++ ")" := by
  have hopen : "_initializer(" = "_initializer" ++ "(" := by decide
  unfold Parent.initializerCall
  cases p.params.mapM Value.render with
  | error refusal => simp [bind, Except.bind]
  | ok params =>
    simp [bind, Except.bind, pure, Except.pure, BaseModule.initializerSymbol,
      Routine.commaSeparated, hopen, String.append_assoc, eq_comm]

/-! ## With and without a proxy -/

/-- The guard against a second initialization, of a contract that stands behind a proxy or not. -/
theorem onceGuard_setUpgradeable (c : Contract) (upgradeable : Bool) :
    (c.setUpgradeable upgradeable).onceGuard =
      if upgradeable then
        if c.hasParent "Initializable" then ["Initializable_initialize()"] else []
      else [] := by
  cases upgradeable with
  | false => rfl
  | true =>
    rw [if_pos rfl]
    rfl

/-- **The proxy changes nothing but what initializes the contract.** -/
theorem document_setUpgradeable {d : Document} {calls : List String}
    (h : c.document naming = .ok d) (hcalls : c.initializerCalls = .ok calls)
    (upgradeable : Bool) :
    (c.setUpgradeable upgradeable).document naming =
      .ok { d with
        constructors :=
          if c.hasConstructor then (c.setUpgradeable upgradeable).initializing naming calls
          else [] } := by
  obtain ⟨routines, -, rfl⟩ := document_eq_ok_iff.mp h
  refine document_eq_ok_iff.mpr ⟨_, ?_, rfl⟩
  have hsame : (c.setUpgradeable upgradeable).initializerCalls = .ok calls := hcalls
  have hconstructor : (c.setUpgradeable upgradeable).hasConstructor = c.hasConstructor := rfl
  rw [constructors_eq, hsame, hconstructor]
  split <;> rfl

/-- What initializes a contract, row by row. -/
theorem rows_initializing_setUpgradeable (c : Contract) (naming : Renaming) (upgradeable : Bool)
    (calls : List String) :
    let guard := if c.hasParent "Initializable" then ["Initializable_initialize()"] else []
    ((c.setUpgradeable upgradeable).initializing naming calls).map (Layout.rows ·.layout) =
      if upgradeable then
        [initializingRows naming
            ["# @custom:oz-upgrades-unsafe-allow constructor", "@constructor"] "constructor" []
            [guard],
          initializingRows naming ["@external"] "initializer" c.constructorArgs
            [guard ++ calls, c.constructorCode]]
      else
        [initializingRows naming ["@constructor"] "constructor" c.constructorArgs
          [calls, c.constructorCode]] := by
  intro guard
  have hguard := c.onceGuard_setUpgradeable upgradeable
  unfold initializing
  rw [hguard]
  cases upgradeable with
  | true =>
    simp only [setUpgradeable, if_true, List.map_cons, List.map_nil, Routine.rows_initializing]
    rfl
  | false =>
    simp only [setUpgradeable, Bool.false_eq_true, if_false, List.map_cons, List.map_nil,
      Routine.rows_initializing, List.nil_append]

/-- A contract has no constructor if no base module has arguments and it has no statements. -/
theorem hasConstructor_eq_false_iff {c : Contract} :
    c.hasConstructor = false ↔ (∀ p ∈ c.parents, p.params = []) ∧ c.constructorCode = [] := by
  simp [hasConstructor]

/-- The function sections have no constructor among them. -/
theorem constructor_notMem_annotations {d : Document} (h : c.document naming = .ok d) :
    ∀ r ∈ d.withCode ++ d.guarded ++ d.passThrough, "@constructor" ∉ r.annotations := by
  intro r hr
  obtain ⟨function, -, rfl⟩ := List.mem_map.mp ((routines_perm h).mem_iff.mp hr)
  change "@constructor" ∉ (function.template.kind?.map fun kind => "@" ++ kind.name).toList
  rcases function.template.kind? with _ | _ | _ <;> decide

/-- A function is annotated by its kind. -/
theorem external_mem_annotations_iff {function : ContractFunction} :
    "@external" ∈ (function.routine naming).annotations ↔
      function.template.kind? = some .external := by
  change "@external" ∈ (function.template.kind?.map fun kind => "@" ++ kind.name).toList ↔ _
  rcases function.template.kind? with _ | _ | _ <;> decide

/-- The function sections have as many external initializers among them as were registered as
functions. -/
theorem countP_external_initializer {d : Document} (h : c.document naming = .ok d) :
    (d.withCode ++ d.guarded ++ d.passThrough).countP
        (fun r => r.name = "initializer" ∧ "@external" ∈ r.annotations) =
      c.functions.countP fun function =>
        function.template.name = "initializer" ∧ function.template.kind? = some .external := by
  rw [(routines_perm h).countP_eq, List.countP_map]
  refine List.countP_congr fun function _ => ?_
  simp only [Function.comp, decide_eq_true_eq, external_mem_annotations_iff]
  rfl

/-- **What initializes a contract, with and without a proxy.** The calls are those of the base
modules with an initializer, in the order of presentation. Without arguments and statements nothing
is printed for them. Otherwise a contract has one constructor, which takes the arguments and has the
calls and then the statements of the contract. Behind a proxy an external initializer takes the same
arguments and has the same calls and statements behind the guard against a second initialization,
and the constructor is left with that guard alone. All that stands above and below is the same in
both shapes. No function is annotated as a constructor, and the only functions that stand there as
external initializers are those that were registered as such. -/
theorem source_initializing (c : Contract) {naming : Renaming} {text : String}
    (h : c.source naming = .ok text) :
    ∃ d calls, c.document naming = .ok d ∧
      List.Forall₂ (fun p call => ∃ params, p.params.mapM Value.render = .ok params ∧
          call = p.base.name ++ "_initializer(" ++ ", ".intercalate params ++ ")")
        (c.parents.filter (·.base.hasInitializer)) calls ∧
      (∀ r ∈ d.withCode ++ d.guarded ++ d.passThrough, "@constructor" ∉ r.annotations) ∧
      (d.withCode ++ d.guarded ++ d.passThrough).countP
          (fun r => r.name = "initializer" ∧ "@external" ∈ r.annotations) =
        c.functions.countP (fun function =>
          function.template.name = "initializer" ∧ function.template.kind? = some .external) ∧
      let guard := if c.hasParent "Initializable" then ["Initializable_initialize()"] else []
      let constructor := initializingRows naming ["@constructor"] "constructor" c.constructorArgs
        [calls, c.constructorCode]
      let stub := initializingRows naming
        ["# @custom:oz-upgrades-unsafe-allow constructor", "@constructor"] "constructor" [] [guard]
      let initializer := initializingRows naming ["@external"] "initializer" c.constructorArgs
        [guard ++ calls, c.constructorCode]
      let printed := fun upgradeable : Bool =>
        "\n".intercalate ([""].intercalate
          ((d.above.filter (!·.isEmpty)).map Layout.rows ++
            (if (∀ p ∈ c.parents, p.params = []) ∧ c.constructorCode = [] then []
              else if upgradeable then [stub, initializer]
              else [constructor]) ++
            d.functionSections.map Layout.rows)) ++ "\n"
      text = printed c.upgradeable ∧
        ∀ upgradeable,
          (c.setUpgradeable upgradeable).source naming = .ok (printed upgradeable) := by
  obtain ⟨d, hd, rfl⟩ := source_eq_ok_iff.mp h
  obtain ⟨calls, hcalls⟩ := exists_initializerCalls hd
  have hcalled := (mapM_eq_ok_iff_forall₂.mp hcalls).imp fun _ _ => initializerCall_eq_ok_iff.mp
  refine ⟨d, calls, hd, hcalled, constructor_notMem_annotations hd, countP_external_initializer hd,
    ?_⟩
  intro guard constructor stub initializer printed
  have hprinted : ∀ upgradeable,
      (c.setUpgradeable upgradeable).source naming = .ok (printed upgradeable) := by
    intro upgradeable
    refine source_eq_ok_iff.mpr ⟨_, document_setUpgradeable hd hcalls upgradeable, ?_⟩
    have hrows : (if c.hasConstructor then (c.setUpgradeable upgradeable).initializing naming calls
          else []).map (Layout.rows ·.layout) =
        if (∀ p ∈ c.parents, p.params = []) ∧ c.constructorCode = [] then []
        else if upgradeable then [stub, initializer]
        else [constructor] := by
      cases hconstructor : c.hasConstructor with
      | false =>
        rw [if_pos (hasConstructor_eq_false_iff.mp hconstructor)]
        rfl
      | true =>
        have hsome : ¬((∀ p ∈ c.parents, p.params = []) ∧ c.constructorCode = []) := by
          rw [← hasConstructor_eq_false_iff, hconstructor]
          exact Bool.noConfusion
        rw [if_pos rfl, if_neg hsome]
        exact rows_initializing_setUpgradeable c naming upgradeable calls
    rw [Document.render_eq_around_constructors, hrows]
    rfl
  -- the contract is the one of the two that has its own flag
  have hsource := hprinted c.upgradeable
  rw [show c.setUpgradeable c.upgradeable = c from rfl, h] at hsource
  exact ⟨Except.ok.inj hsource, hprinted⟩

/-- A contract with a module that initializes itself although it has an argument, a token, and what
a proxy adds: its source, and its source once it stands behind no proxy any more. -/
theorem source_initializing_of_proxied :
    let c := (Contract.new "Coin").run
      [.addParent ⟨"Vault", "lib/vault", .implicit, []⟩ [.literal "hidden"],
        .addParent .erc20 [.text "Coin", .literal "owner"],
        .addConstructorCode "log(owner)", .makeUpgradeable true .ownable]
    let head := fun name args => ["func " ++ name ++ "\x7b", "        syscall_ptr: felt*,",
      "        pedersen_ptr: HashBuiltin*,", "        range_check_ptr", "    \x7d(" ++ args ++ "):"]
    let statements := ["    ERC20_initializer('Coin', owner)", "    Ownable_initializer(owner)",
      "    Proxy_initializer(owner)", "", "    log(owner)", "    return ()", "end"]
    ∃ above below,
      c.source {} = .ok ("\n".intercalate ([""].intercalate (above ++
        [["# @custom:oz-upgrades-unsafe-allow constructor", "@constructor"] ++
            head "constructor" "" ++ ["    Initializable_initialize()", "    return ()", "end"],
          ["@external"] ++ head "initializer" "owner: felt" ++
            ["    Initializable_initialize()"] ++ statements] ++ below)) ++ "\n") ∧
      (c.setUpgradeable false).source {} = .ok ("\n".intercalate ([""].intercalate (above ++
        [["@constructor"] ++ head "constructor" "owner: felt" ++ statements] ++ below)) ++
          "\n") := by
  intro c head statements
  obtain ⟨text, h⟩ : ∃ text, c.source {} = .ok text := ⟨_, rfl⟩
  obtain ⟨d, calls, -, hcalls, -, -, htext, hflip⟩ := c.source_initializing h
  obtain rfl : calls = ["ERC20_initializer('Coin', owner)", "Ownable_initializer(owner)",
      "Proxy_initializer(owner)"] := by
    have hok : c.initializerCalls = .ok calls :=
      mapM_eq_ok_iff_forall₂.mpr (hcalls.imp fun _ _ => initializerCall_eq_ok_iff.mpr)
    exact (Except.ok.inj (hok.symm.trans rfl))
  have hsome : ¬((∀ p ∈ c.parents, p.params = []) ∧ c.constructorCode = []) := by
    rw [← hasConstructor_eq_false_iff]
    decide +kernel
  refine ⟨(d.above.filter (!·.isEmpty)).map Layout.rows, d.functionSections.map Layout.rows, ?_, ?_⟩
  · have htrue := hflip true
    simp only [if_neg hsome, if_true] at htrue
    exact htrue
  · have hfalse := hflip false
    simp only [if_neg hsome] at hfalse
    exact hfalse

/-- A registered function may have the name, the arguments and the kind of the initializer, which
then stands in the source twice. -/
theorem external_initializer_twice :
    let c := (Contract.new "Demo").run
      [.addCode "setup(owner)"
          { name := "initializer", implicitArgs := Argument.implicits,
            args := [⟨"owner", some "felt"⟩], kind? := some .external },
        .makeUpgradeable true .ownable]
    let head := fun name args => ["func " ++ name ++ "\x7b", "        syscall_ptr: felt*,",
      "        pedersen_ptr: HashBuiltin*,", "        range_check_ptr", "    \x7d(" ++ args ++ "):"]
    ∃ above below,
      c.source {} = .ok ("\n".intercalate ([""].intercalate (above ++
        [["# @custom:oz-upgrades-unsafe-allow constructor", "@constructor"] ++
            head "constructor" "" ++ ["    Initializable_initialize()", "    return ()", "end"],
          ["@external"] ++ head "initializer" "owner: felt" ++
            ["    Initializable_initialize()", "    Ownable_initializer(owner)",
              "    Proxy_initializer(owner)", "    return ()", "end"]] ++
        (["@external"] ++ head "initializer" "owner: felt" ++
            ["    setup(owner)", "    return ()", "end"]) :: below)) ++ "\n") := by
  intro c head
  exact ⟨_, _, source_eq_ok_iff.mpr ⟨_, rfl, Document.render_eq_around_constructors _⟩⟩

end Contract

end CairoForge
