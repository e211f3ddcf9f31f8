import CairoForge.Proofs.GatheredImports

/-!
# Import closure in the source

A source shows what it imports and what it does in rows: one for each symbol of an import block, one
for each statement of a function, constructor or initializer. What the rows of statements name
stands in the rows of imports, and in the source of a token nothing else does.

## Main definitions

* `Routine.printedRows` — the rows of a routine.
* `Document.printedRows` — the rows of a source, section by section.

## Main results

* `Document.rows_eq_printedRows` — a document is printed as these rows.
* `Document.importRows_isInfix` — every import block stands in them.
* `Document.statementRow_mem` — every statement has a row.
* `Contract.imports_closed` — the rows of a composed contract, and of a token.
-/

namespace CairoForge

/-! ## The rows of a source -/

/-- The rows of a routine: the opening, the groups of statements that are not empty with a blank row
between each two, what is returned, and the end. -/
def Routine.printedRows (r : Routine) : List String :=
  r.opening ++ [""].intercalate ((r.statements.filter (!·.isEmpty)).map (·.map ("    " ++ ·))) ++
    ["    return (" ++ ", ".intercalate r.results ++ ")", "end"]

theorem Routine.rows_eq_printedRows (r : Routine) : Layout.rows r.layout = r.printedRows := by
  have hreturn : Layout.indentation 1 ++ r.returnStatement =
      "    return (" ++ ", ".intercalate r.results ++ ")" := by
    have hopen : Layout.indentation 1 ++ "return (" = "    return (" := by decide
    rw [returnStatement, ← String.append_assoc, ← String.append_assoc, hopen]
    rfl
  rw [rows_layout, hreturn, printedRows]
  simp only [List.append_assoc]
  rfl

namespace Document

/-- **The rows of a source**: license, language, the imports of every contract, import blocks, tags,
declarations, what initializes the contract, and its functions, with a divider in front of those
that only pass a call on. A blank row stands between each two sections, and empty ones are left
out. -/
def printedRows (d : Document) : List String :=
  [""].intercalate
    ([["# SPDX-License-Identifier: " ++ d.license], ["%lang starknet"],
        ["from starkware.cairo.common.cairo_builtins import HashBuiltin",
          "from starkware.cairo.common.uint256 import Uint256"]] ++
      [d.imports.flatMap importRows, d.tags.map fun tag => "# " ++ tag.key ++ " " ++ tag.value,
        d.declarations].filter (!·.isEmpty) ++
      d.constructors.map Routine.printedRows ++ d.withCode.map Routine.printedRows ++
      d.guarded.map Routine.printedRows ++
      (if d.passThrough.isEmpty then [] else [["#", "# Externals", "#"]]) ++
      d.passThrough.map Routine.printedRows)

/-- Routines are never left out. -/
theorem map_rows_filter_layout (routines : List Routine) :
    ((routines.map Routine.layout).filter (!·.isEmpty)).map Layout.rows =
      routines.map Routine.printedRows := by
  rw [filter_map_layout, List.map_map]
  exact List.map_congr_left fun r _ => r.rows_eq_printedRows

/-- Sections that have rows unless they are empty are left out when they have none. -/
theorem map_rows_filter {sections : List (List Layout)}
    (h : ∀ group ∈ sections, (Layout.rows group).isEmpty = group.isEmpty) :
    (sections.filter (!·.isEmpty)).map Layout.rows =
      (sections.map Layout.rows).filter (!·.isEmpty) := by
  rw [List.filter_map]
  refine congrArg _ (List.filter_congr fun group hgroup => ?_)
  rw [Function.comp, h group hgroup]

/-- Imports, tags and declarations are the sections that may be empty. -/
theorem map_rows_optional (d : Document) :
    ([d.imports.flatMap importLines, Layout.lines (d.tags.map tagLine),
        Layout.lines d.declarations].filter (!·.isEmpty)).map Layout.rows =
      [d.imports.flatMap importRows, d.tags.map fun tag => "# " ++ tag.key ++ " " ++ tag.value,
        d.declarations].filter (!·.isEmpty) := by
  have hlines : ∀ texts, (Layout.rows (Layout.lines texts)).isEmpty =
      (Layout.lines texts).isEmpty := by
    intro texts
    rw [Layout.rows_lines, Layout.lines, List.isEmpty_map]
  have himports : (Layout.rows (d.imports.flatMap importLines)).isEmpty =
      (d.imports.flatMap importLines).isEmpty := by
    rw [rows_flatMap_importLines]
    cases d.imports <;> rfl
  rw [map_rows_filter (by simp [hlines, himports])]
  simp only [List.map_cons, List.map_nil, rows_flatMap_importLines, Layout.rows_lines]
  rfl

/-- **A document is printed as these rows.** -/
theorem rows_eq_printedRows (d : Document) : d.rows = d.printedRows := by
  have hdivider : ((if d.passThrough.isEmpty then [] else [Layout.lines divider]).filter
      (!·.isEmpty)).map Layout.rows =
        if d.passThrough.isEmpty then [] else [["#", "# Externals", "#"]] := by
    split <;> rfl
  have hsections : d.sections = [Layout.lines ["# SPDX-License-Identifier: " ++ d.license],
      Layout.lines ["%lang starknet"], Layout.lines builtinImports] ++
        [d.imports.flatMap importLines, Layout.lines (d.tags.map tagLine),
          Layout.lines d.declarations] ++
        d.constructors.map Routine.layout ++ d.withCode.map Routine.layout ++
        d.guarded.map Routine.layout ++
        (if d.passThrough.isEmpty then [] else [Layout.lines divider]) ++
        d.passThrough.map Routine.layout := rfl
  have hrows : d.rows = [""].intercalate ((d.sections.filter (!·.isEmpty)).map Layout.rows) :=
    Layout.rowsAt_spaceBetween 0 d.sections
  rw [hrows, hsections]
  simp only [List.filter_append, List.map_append, map_rows_filter_layout]
  rw [rows_heading, d.map_rows_optional, hdivider]
  rfl

/-- Every import block stands in the source, row below row. -/
theorem importRows_isInfix {d : Document} {block : ImportBlock} (h : block ∈ d.imports) :
    importRows block <:+: d.printedRows := by
  have hblock : importRows block <:+: d.imports.flatMap importRows :=
    List.infix_of_mem_flatten (List.mem_map_of_mem h)
  -- the section is not empty, so it is there
  have hsome : (d.imports.flatMap importRows).isEmpty = false := by
    obtain ⟨before, after, himports⟩ := List.append_of_mem h
    rw [himports]
    simp [importRows]
  exact hblock.trans (isInfix_intercalate_of_mem (by simp [hsome]))

theorem printedRows_isInfix {d : Document} {r : Routine} (h : r ∈ d.routines) :
    r.printedRows <:+: d.printedRows := by
  refine isInfix_intercalate_of_mem ?_
  simp only [routines, List.mem_append] at h
  simp only [List.mem_append]
  rcases h with ((h | h) | h) | h
  · exact .inl (.inl (.inl (.inl (.inr (List.mem_map_of_mem h)))))
  · exact .inl (.inl (.inl (.inr (List.mem_map_of_mem h))))
  · exact .inl (.inl (.inr (List.mem_map_of_mem h)))
  · exact .inr (List.mem_map_of_mem h)

/-- Every statement has a row in the source. -/
theorem statementRow_mem {d : Document} {statement : String} (h : statement ∈ d.statements) :
    "    " ++ statement ∈ d.printedRows := by
  obtain ⟨r, hr, hstatement⟩ := List.mem_flatMap.mp h
  obtain ⟨group, hgroup, hmem⟩ := List.mem_flatten.mp hstatement
  have hkept : group.map ("    " ++ ·) ∈
      (r.statements.filter (!·.isEmpty)).map (·.map ("    " ++ ·)) := by
    refine List.mem_map_of_mem (List.mem_filter.mpr ⟨hgroup, ?_⟩)
    simpa using List.ne_nil_of_mem hmem
  have hrow : "    " ++ statement ∈ r.printedRows :=
    List.mem_append_left _ (List.mem_append_right _
      ((isInfix_intercalate_of_mem hkept).subset (List.mem_map_of_mem hmem)))
  exact (printedRows_isInfix hr).subset hrow

end Document

namespace Contract

/-- The source of a contract has the rows of its document. -/
theorem source_eq_of_document {c : Contract} {naming : Renaming} {d : Document}
    (h : c.document naming = .ok d) : c.source naming = .ok (textOfRows d.printedRows) := by
  refine source_eq_ok_iff.mpr ⟨d, h, ?_⟩
  rw [d.render_eq_textOfRows, d.rows_eq_printedRows]

/-- **Import closure.** Whatever mixins make of the base of a token can be printed. The source has a
row for each statement; the statement names symbols, and for each of them the source has an import
block with the path of the base module that provides it, and with a row for the symbol. In the
source of a token every symbol with a row in an import block is also named by a statement that has a
row. -/
theorem imports_closed :
    (∀ c, Composed c → ∃ d, c.document {} = .ok d ∧
      c.source {} = .ok (textOfRows d.printedRows) ∧
      (∀ statement ∈ d.statements, "    " ++ statement ∈ d.printedRows ∧
        ∃ base symbol, c.Names statement base symbol) ∧
      ∀ statement base symbol, c.Names statement base symbol →
        statement ∈ d.statements ∧ "    " ++ statement ∈ d.printedRows ∧
        (∃ before after, statement = before ++ symbol ++ after) ∧
        ∃ p ∈ c.parents, p.base.name = base ∧
          ∃ block ∈ d.imports, block.path = p.base.importPath ∧ symbol ∈ block.symbols ∧
            importRows block <:+: d.printedRows) ∧
    ∀ o : TokenOptions, o.validate = .ok () →
      ∃ c d, o.build = .ok c ∧ Composed c ∧ c.document {} = .ok d ∧
        c.source {} = .ok (textOfRows d.printedRows) ∧
        ∀ block ∈ d.imports, importRows block <:+: d.printedRows ∧
          ∀ symbol ∈ block.symbols, ∃ statement ∈ d.statements,
            "    " ++ statement ∈ d.printedRows ∧
            (∃ before after, statement = before ++ symbol ++ after) ∧
            ∃ base, c.Names statement base symbol ∧
              ∃ p ∈ c.parents, p.base.name = base ∧ p.base.importPath = block.path := by
  constructor
  · intro c hcomposed
    have hclosed := hcomposed.closed
    obtain ⟨d, hd, hstatements⟩ := hclosed.document {}
    refine ⟨d, hd, source_eq_of_document hd, ?_, ?_⟩
    · intro statement hstatement
      exact ⟨d.statementRow_mem hstatement,
        hclosed.exists_names ((hstatements statement).mp hstatement)⟩
    · intro statement base symbol hnames
      have hstatement := (hstatements statement).mpr hnames.prints
      obtain ⟨p, hp, hname, block, hblock, hpath, hsymbol⟩ := hclosed.imported hnames
      rw [← imports_of_document hd] at hblock
      exact ⟨hstatement, d.statementRow_mem hstatement, hnames.occurs, p, hp, hname, block, hblock,
        hpath, hsymbol, d.importRows_isInfix hblock⟩
  · intro o hvalid
    have hcomposed := TokenOptions.composed_assembled hvalid
    obtain ⟨d, hd, hstatements⟩ := hcomposed.closed.document {}
    refine ⟨o.assembled, d, TokenOptions.build_eq hvalid, hcomposed, hd, source_eq_of_document hd,
      ?_⟩
    intro block hblock
    refine ⟨d.importRows_isInfix hblock, fun symbol hsymbol => ?_⟩
    rw [imports_of_document hd] at hblock
    obtain ⟨statement, base, hnames, hprovided⟩ :=
      hcomposed.closed.named o.used_assembled hblock hsymbol
    have hstatement := (hstatements statement).mpr hnames.prints
    exact ⟨statement, hstatement, d.statementRow_mem hstatement, hnames.occurs, base, hnames,
      hprovided⟩

/-- A coin without `permit`, which is refused votes and pauses a function that it has and one that
has no base module; and a token by default. -/
theorem imports_closed_of_coin :
    (∃ c d, c = (Mixin.pausing .roles [EntryPoint.transfer, { name := "halt" }]).apply
          (Mixin.votes.apply ((Contract.new "Coin").addTokenBase {})) ∧
      c.document {} = .ok d ∧ c.source {} = .ok (textOfRows d.printedRows) ∧
      "    AccessControl_grant_role(DEFAULT_ADMIN_ROLE, owner)" ∈ d.printedRows ∧
      ∃ symbols, "DEFAULT_ADMIN_ROLE" ∈ symbols ∧
        importRows ⟨"contracts.AccessControl_base", symbols⟩ <:+: d.printedRows) ∧
    ({} : TokenOptions).validate = .ok () ∧
    ∃ c d, ({} : TokenOptions).build = .ok c ∧ c.document {} = .ok d ∧
      c.source {} = .ok (textOfRows d.printedRows) ∧
      ∀ block ∈ d.imports, ∀ symbol ∈ block.symbols,
        ∃ statement ∈ d.statements, "    " ++ statement ∈ d.printedRows ∧
          ∃ base, c.Names statement base symbol := by
  obtain ⟨hcomposed, htoken⟩ := imports_closed
  refine ⟨?_, rfl, ?_⟩
  · have hcoin : Composed ((Mixin.pausing .roles [EntryPoint.transfer, { name := "halt" }]).apply
        (Mixin.votes.apply ((Contract.new "Coin").addTokenBase {}))) := by
      refine .apply (.apply (.base "Coin" [] {}) trivial) ?_
      intro entry hentry base hbase
      rcases (by simpa using hentry : entry = EntryPoint.transfer ∨ entry = _) with rfl | rfl
      · obtain rfl := Option.some.inj hbase
        rfl
      · cases hbase
    obtain ⟨d, hd, hsource, -, hnamed⟩ := hcomposed _ hcoin
    obtain ⟨-, hrow, -, p, hp, hname, ⟨path, symbols⟩, -, hpath, hsymbol, hrows⟩ :=
      hnamed _ _ _ (.administrator (by decide))
    have hknown := (hcoin.closed.known p (mem_parents.mp hp)).1
    have hbase : p.base = .accessControl := BaseModule.eq_of_name_eq hknown (by decide) hname
    have hdotted : p.base.importPath = "contracts.AccessControl_base" := by
      rw [hbase]
      decide +kernel
    obtain rfl : path = "contracts.AccessControl_base" := hpath.trans hdotted
    exact ⟨_, d, rfl, hd, hsource, hrow, symbols, hsymbol, hrows⟩
  · obtain ⟨c, d, hbuild, -, hd, hsource, hnamed⟩ := htoken {} rfl
    refine ⟨c, d, hbuild, hd, hsource, fun block hblock symbol hsymbol => ?_⟩
    obtain ⟨statement, hstatement, hrow, -, base, hnames, -⟩ :=
      (hnamed block hblock).2 symbol hsymbol
    exact ⟨statement, hstatement, hrow, base, hnames⟩

end Contract

end CairoForge
