import CairoForge.Contract.Operation
import CairoForge.Source.Document
import Mathlib.Tactic.Common

/-!
# Functions in printed source

The source of a contract is its sections one below the other, and every function has one section.
Which part of the source the section stands in depends on what the function has: code, or only
modifiers, or neither.

## Main definitions

* `Document.front` — the sections above the functions.
* `Document.functionSections` — the sections of the functions and the divider between them.
* `Routine.opening` — what stands above the statements of a routine.

## Main results

* `Document.render_eq` — the text of a document, section by section and row by row.
* `Contract.functions_perm` — the three parts hold every function once.
* `ContractFunction.rows_routine` — the rows of a function: opening, statements, return, end.
* `Contract.source_functions` — all of this about the source of a contract after a run.
-/

namespace CairoForge

/-! ## Sections of a document -/

namespace Document

/-- The sections above the functions. -/
def front (d : Document) : List (List Layout) :=
  [Layout.lines ["# SPDX-License-Identifier: " ++ d.license],
    Layout.lines ["%lang starknet"],
    Layout.lines builtinImports,
    d.imports.flatMap importLines,
    Layout.lines (d.tags.map tagLine),
    Layout.lines d.declarations] ++
  d.constructors.map Routine.layout

/-- The sections of the functions, with the divider in front of those that only pass a call on. -/
def functionSections (d : Document) : List (List Layout) :=
  d.withCode.map Routine.layout ++ d.guarded.map Routine.layout ++
    (if d.passThrough.isEmpty then [] else [Layout.lines divider]) ++
    d.passThrough.map Routine.layout

theorem sections_eq (d : Document) : d.sections = d.front ++ d.functionSections := by
  simp only [sections, front, functionSections, List.append_assoc]

theorem layout_ne_nil (r : Routine) : r.layout ≠ [] := by
  simp [Routine.layout]

theorem functionSections_ne_nil {d : Document} {group : List Layout}
    (h : group ∈ d.functionSections) : group.isEmpty = false := by
  simp only [functionSections, List.mem_append, List.mem_map] at h
  -- a routine has a head, and the divider has rows
  rcases h with ((⟨r, -, rfl⟩ | ⟨r, -, rfl⟩) | h) | ⟨r, -, rfl⟩
  · simpa using layout_ne_nil r
  · simpa using layout_ne_nil r
  · split at h
    · cases h
    · rw [List.mem_singleton.mp h]
      rfl
  · simpa using layout_ne_nil r

/-- **The text of a document**: its sections in order, a blank row between each two, and a newline
at the end. Sections above the functions may be empty and then leave nothing. -/
theorem render_eq (d : Document) :
    d.render =
      "\n".intercalate ([""].intercalate
        ((d.front.filter (!·.isEmpty)).map Layout.rows ++
          d.functionSections.map Layout.rows)) ++ "\n" := by
  -- what the layout drops are empty sections, and those of functions are not
  have hfunctions : d.functionSections.filter (!·.isEmpty) = d.functionSections := by
    refine List.filter_eq_self.mpr fun group hgroup => ?_
    rw [functionSections_ne_nil hgroup]
    rfl
  have hrows : Layout.rows (Layout.spaceBetween d.sections) = _ :=
    Layout.rowsAt_spaceBetween 0 d.sections
  rw [sections_eq, List.filter_append, hfunctions, List.map_append] at hrows
  rw [render, Layout.render, sections_eq, hrows]
  rfl

end Document

/-! ## Rows of a routine -/

/-- What stands above the statements of a routine: its annotations and its head. -/
def Routine.opening (r : Routine) : List String :=
  Layout.rows (Layout.lines r.annotations ++ r.head)

/-- **The rows of a routine**: the opening, then the statements group by group and what is returned,
indented, then the end. Empty groups leave nothing. -/
theorem Routine.rows_layout (r : Routine) :
    Layout.rows r.layout =
      r.opening ++
        ([""].intercalate
          ((r.statements.filter (!·.isEmpty)).map (·.map (Layout.indentation 1 ++ ·))) ++
          [Layout.indentation 1 ++ r.returnStatement]) ++
        ["end"] := by
  have hgroups : Layout.rowsAt 1 (Layout.spaceBetween (r.statements.map Layout.lines)) =
      [""].intercalate
        ((r.statements.filter (!·.isEmpty)).map (·.map (Layout.indentation 1 ++ ·))) := by
    have hkept : (r.statements.map Layout.lines).filter (!·.isEmpty) =
        (r.statements.filter (!·.isEmpty)).map Layout.lines := by
      rw [List.filter_map]
      simp only [Function.comp_def, Layout.lines, List.isEmpty_map]
    rw [Layout.rowsAt_spaceBetween, hkept, List.map_map]
    exact congrArg _ (List.map_congr_left fun group _ => Layout.rowsAt_lines 1 group)
  have hbody : Layout.rowsAt 1 r.body = _ := Layout.rowsAt_append 1 _ _
  rw [hgroups] at hbody
  rw [layout, opening, Layout.rows, Layout.rowsAt_append, Layout.rows, List.append_assoc]
  simp only [Layout.rowsAt, Layout.rowsOf, Nat.zero_add, hbody]
  rfl

namespace ContractFunction

/-- **The rows of a function**: the opening, then one indented row for each statement and one for
what is returned, then the end. -/
theorem rows_routine (naming : Renaming) (function : ContractFunction) :
    Layout.rows (function.routine naming).layout =
      (function.routine naming).opening ++
        (function.statements ++ [(function.routine naming).returnStatement]).map
          (Layout.indentation 1 ++ ·) ++
        ["end"] := by
  -- the statements are one group, so no blank row stands between them
  have hgroup : [""].intercalate (([function.statements].filter (!·.isEmpty)).map
      (·.map (Layout.indentation 1 ++ ·))) =
      function.statements.map (Layout.indentation 1 ++ ·) := by
    cases function.statements with
    | nil => rfl
    | cons first rest => exact List.intercalate_singleton
  rw [Routine.rows_layout, List.map_append]
  exact congrArg (fun rows => _ ++ (rows ++ _) ++ _) hgroup

/-- What a call binds its answer to, up to the call: the returned names, unless there are none or
a value is returned instead of them. -/
def binding (template : FunctionTemplate) : String :=
  if template.returnValue? = none ∧ results template ≠ [] then
    "let (" ++ ", ".intercalate (results template) ++ ") = "
  else ""

/-- **A call binds what is returned**: the bound names are the returned ones in the same order. -/
theorem baseCall_eq (template : FunctionTemplate) (base : String) :
    baseCall template base =
      binding template ++ (base ++ "_" ++ template.name ++ "(" ++
        ", ".intercalate (template.args.map (·.name)) ++ ")") := by
  unfold baseCall binding results
  cases hvalue : template.returnValue? with
  -- the value is returned, so nothing is bound
  | some value => simp [Routine.commaSeparated]
  | none =>
    -- no list of returns, an empty one, or names to bind
    rcases hreturns : template.returns? with _ | _ | ⟨first, rest⟩
    · simp [Routine.commaSeparated]
    · simp [Routine.commaSeparated]
    · simp [Routine.commaSeparated]

/-- The statements of a function: modifiers, then the call if there is a base module, then code. -/
theorem statements_eq (function : ContractFunction) :
    function.statements =
      function.modifiers ++
        (function.template.base?.map fun base =>
          binding function.template ++ (base ++ "_" ++ function.template.name ++ "(" ++
            ", ".intercalate (function.template.args.map (·.name)) ++ ")")).toList ++
        function.code := by
  unfold statements
  cases function.template.base? with
  | none => rfl
  | some base => rw [Option.map_some, Option.map_some, baseCall_eq]

end ContractFunction

/-! ## The parts of a contract -/

namespace Contract

variable {c : Contract} {naming : Renaming}

/-- Every function stands in one of the three parts. -/
theorem functions_perm (c : Contract) :
    ((c.functions.filter fun f => !f.code.isEmpty) ++
      (c.functions.filter fun f => f.code.isEmpty && !f.modifiers.isEmpty) ++
      (c.functions.filter fun f => f.code.isEmpty && f.modifiers.isEmpty)).Perm c.functions := by
  -- the functions without code split once more
  have hcode := List.filter_append_perm (fun f : ContractFunction => !f.code.isEmpty) c.functions
  have hrest := List.filter_append_perm (fun f : ContractFunction => !f.modifiers.isEmpty)
    (c.functions.filter fun f => f.code.isEmpty)
  simp only [List.filter_filter, Bool.not_not] at hcode hrest
  rw [List.append_assoc]
  simp only [Bool.and_comm (List.isEmpty (ContractFunction.code _))]
  exact (hrest.append_left _).trans hcode

theorem partOf_withCode (f : ContractFunction) : (partOf f == .withCode) = !f.code.isEmpty := by
  cases hcode : f.code.isEmpty <;> cases hmodifiers : f.modifiers.isEmpty <;>
    simp [partOf, hcode, hmodifiers]

theorem partOf_guarded (f : ContractFunction) :
    (partOf f == .guarded) = (f.code.isEmpty && !f.modifiers.isEmpty) := by
  cases hcode : f.code.isEmpty <;> cases hmodifiers : f.modifiers.isEmpty <;>
    simp [partOf, hcode, hmodifiers]

theorem partOf_passThrough (f : ContractFunction) :
    (partOf f == .passThrough) = (f.code.isEmpty && f.modifiers.isEmpty) := by
  cases hcode : f.code.isEmpty <;> cases hmodifiers : f.modifiers.isEmpty <;>
    simp [partOf, hcode, hmodifiers]

/-- A document fails where the constructors fail, and there only. -/
theorem document_eq_ok_iff {d : Document} :
    c.document naming = .ok d ↔ ∃ constructors, c.constructors naming = .ok constructors ∧
      d = {
        license := c.license
        imports := c.importBlocks.map fun b => { b with path := naming.modulePath b.path }
        tags := c.tags
        declarations := c.declarations.map naming.declaration
        constructors := constructors
        withCode := c.routines naming .withCode
        guarded := c.routines naming .guarded
        passThrough := c.routines naming .passThrough } := by
  unfold document
  cases c.constructors naming with
  | error refusal => simp [bind, Except.bind]
  | ok constructors => simp [bind, Except.bind, pure, Except.pure, eq_comm]

/-- A source is the text of a document. -/
theorem source_eq_ok_iff {text : String} :
    c.source naming = .ok text ↔ ∃ d, c.document naming = .ok d ∧ d.render = text := by
  unfold source
  cases c.document naming <;> simp [Except.map]

theorem rows_functionSections {d : Document} (h : c.document naming = .ok d) :
    d.functionSections.map Layout.rows =
      (c.functions.filter fun f => !f.code.isEmpty).map
          (fun f => Layout.rows (f.routine naming).layout) ++
        (c.functions.filter fun f => f.code.isEmpty && !f.modifiers.isEmpty).map
          (fun f => Layout.rows (f.routine naming).layout) ++
        (if (c.functions.filter fun f => f.code.isEmpty && f.modifiers.isEmpty).isEmpty then []
          else [["#", "# Externals", "#"]]) ++
        (c.functions.filter fun f => f.code.isEmpty && f.modifiers.isEmpty).map
          (fun f => Layout.rows (f.routine naming).layout) := by
  have hdivider : Layout.rows (Layout.lines Document.divider) = ["#", "# Externals", "#"] := by
    decide
  obtain ⟨constructors, -, rfl⟩ := document_eq_ok_iff.mp h
  simp only [Document.functionSections, routines, partOf_withCode, partOf_guarded,
    partOf_passThrough, List.map_append, List.map_map, List.isEmpty_map]
  split
  · rfl
  · rw [List.map_singleton, hdivider]
    rfl

/-- The routines behind the front of a document are those of the functions, each once. -/
theorem routines_perm {d : Document} (h : c.document naming = .ok d) :
    (d.withCode ++ d.guarded ++ d.passThrough).Perm
      (c.functions.map (ContractFunction.routine naming)) := by
  obtain ⟨constructors, -, rfl⟩ := document_eq_ok_iff.mp h
  simp only [routines, partOf_withCode, partOf_guarded, partOf_passThrough, ← List.map_append]
  exact c.functions_perm.map _

/-- What initializes a contract is a constructor or an initializer, and no function. -/
theorem name_constructors {routines : List Routine}
    (h : c.constructors naming = .ok routines) :
    ∀ r ∈ routines, r.name = "constructor" ∨ r.name = "initializer" := by
  unfold constructors at h
  split at h
  · cases hcalls : c.initializerCalls with
    | error refusal =>
      rw [hcalls] at h
      cases h
    | ok calls =>
      -- behind a proxy the constructor is followed by an initializer
      rw [hcalls] at h
      change (if c.upgradeable = true then _ else _) = _ at h
      split at h <;> obtain rfl := Except.ok.inj h
      · intro r hr
        rcases List.mem_cons.mp hr with rfl | hr
        · exact .inl rfl
        · rw [List.mem_singleton.mp hr]
          exact .inr rfl
      · intro r hr
        rw [List.mem_singleton.mp hr]
        exact .inl rfl
  · -- nothing to initialize, no routine
    obtain rfl := Except.ok.inj h
    intro r hr
    cases hr

/-- **Functions in the source.** Behind the front of the source, which holds at most a constructor
and an initializer, stand the functions of the contract, each once: those with code, then those
with modifiers only, then the divider and those with neither, each part in order of first mention
and the divider only if there are such. A function is printed as its opening, its modifiers in
order, the call of its base module if it has one, its code in order, one return and the end; and
what the call binds is what is returned. -/
theorem source_functions {title : String} {operations : List Operation} {naming : Renaming}
    {text : String} (h : ((Contract.new title).run operations).source naming = .ok text) :
    let functions := ((Contract.new title).run operations).functions
    let printed := fun function : ContractFunction => Layout.rows (function.routine naming).layout
    let withCode := functions.filter fun f => !f.code.isEmpty
    let guarded := functions.filter fun f => f.code.isEmpty && !f.modifiers.isEmpty
    let passing := functions.filter fun f => f.code.isEmpty && f.modifiers.isEmpty
    (∃ d, ((Contract.new title).run operations).document naming = .ok d ∧
      (∀ r ∈ d.constructors, r.name = "constructor" ∨ r.name = "initializer") ∧
      text = "\n".intercalate ([""].intercalate
        ((d.front.filter (!·.isEmpty)).map Layout.rows ++
          (withCode.map printed ++ guarded.map printed ++
            (if passing.isEmpty then [] else [["#", "# Externals", "#"]]) ++
            passing.map printed))) ++ "\n") ∧
    (withCode ++ guarded ++ passing).Perm functions ∧
    ∀ function ∈ functions, ∃ binding results,
      printed function =
        (function.routine naming).opening ++
          (function.modifiers ++
            (function.template.base?.map fun base =>
              binding ++ (base ++ "_" ++ function.template.name ++ "(" ++
                ", ".intercalate (function.template.args.map (·.name)) ++ ")")).toList ++
            function.code ++
            ["return (" ++ ", ".intercalate results ++ ")"]).map ("    " ++ ·) ++
          ["end"] ∧
      results =
        (match function.template.returnValue?, function.template.returns? with
          | some value, _ => [value]
          | none, some returns => returns.map (·.name)
          | none, none => []) ∧
      binding =
        (if function.template.returnValue? = none ∧ results ≠ [] then
          "let (" ++ ", ".intercalate results ++ ") = "
        else "") := by
  intro functions printed withCode guarded passing
  set c := (Contract.new title).run operations
  obtain ⟨d, hd, rfl⟩ := source_eq_ok_iff.mp h
  refine ⟨⟨d, hd, ?_, ?_⟩, c.functions_perm, ?_⟩
  · obtain ⟨constructors, hconstructors, rfl⟩ := document_eq_ok_iff.mp hd
    exact name_constructors hconstructors
  · rw [d.render_eq, rows_functionSections hd]
  · intro function hfunction
    refine ⟨ContractFunction.binding function.template, ContractFunction.results function.template,
      ?_, ?_, rfl⟩
    · show Layout.rows (function.routine naming).layout = _
      rw [function.rows_routine naming, function.statements_eq]
      rfl
    · unfold ContractFunction.results
      cases function.template.returnValue? with
      | some value => rfl
      | none => cases function.template.returns? <;> rfl

/-- A function of each part: the one mentioned last has code and comes first. -/
theorem source_functions_of_three :
    ∃ text front,
      ((Contract.new "Demo").run
        [.addFunction
            { base? := some "Token", name := "total", returns? := some [⟨"total", some "felt"⟩] },
          .addModifier "check()" { base? := some "Token", name := "send", args := [⟨"to", none⟩] },
          .addCode "let x = 1" { name := "run" }]).source {} = .ok text ∧
      text = "\n".intercalate ([""].intercalate (front ++
        [["func run():", "    let x = 1", "    return ()", "end"],
          ["func send(to):", "    check()", "    Token_send(to)", "    return ()", "end"],
          ["#", "# Externals", "#"],
          ["func total() -> (total: felt):", "    let (total) = Token_total()",
            "    return (total)", "end"]])) ++ "\n" := by
  obtain ⟨text, h⟩ : ∃ text, ((Contract.new "Demo").run
      [.addFunction
          { base? := some "Token", name := "total", returns? := some [⟨"total", some "felt"⟩] },
        .addModifier "check()" { base? := some "Token", name := "send", args := [⟨"to", none⟩] },
        .addCode "let x = 1" { name := "run" }]).source {} = .ok text := ⟨_, rfl⟩
  obtain ⟨⟨d, -, -, htext⟩, -, -⟩ := source_functions h
  exact ⟨text, _, h, htext⟩

end Contract

end CairoForge
