import CairoForge.Proofs.ConstructorLayout
import Mathlib.Data.List.Induction

/-!
# Gathered imports

Base modules, functions and attached libraries each need symbols of some path and know nothing of
each other. The source has one block for a path, whoever needs something of it, and in the block
every symbol once, however often it is needed.

## Main definitions

* `ImportBlock.gathered` — the block of a path among demands.
* `Contract.Uses`, `Contract.Needs` — what a contract needs of a path, without and with the
  initializers that its constructor calls.
* `importRows` — the rows of an import block.

## Main results

* `Contract.toList_gatherImports` — the blocks that gathering makes of demands.
* `Contract.eraseDups_paths_importDemands` — functions bring up no path that is not there.
* `Contract.mem_gathered` — the symbols of a block are what the contract needs.
* `Contract.importBlocks_eq` — the blocks of a contract, path by path.
* `Contract.source_imports` — the import section of a source.
-/

namespace CairoForge

/-! ## First occurrences -/

theorem nodup_eraseDups (l : List String) : l.eraseDups.Nodup := by
  induction l using List.reverseRecOn with
  | nil => exact List.nodup_nil
  | append_singleton rest a ih =>
    rw [eraseDups_append_singleton]
    split
    · exact ih
    · next h =>
      refine List.nodup_append.mpr ⟨ih, List.nodup_cons.mpr ⟨List.not_mem_nil, List.nodup_nil⟩, ?_⟩
      rintro b hb _ hba rfl
      exact h (List.mem_singleton.mp hba ▸ List.mem_eraseDups.mp hb)

/-- What is there already makes no first occurrence, and hides none behind it. -/
theorem eraseDups_append_append_of_subset {l known : List String} (h : known ⊆ l)
    (rest : List String) : (l ++ known ++ rest).eraseDups = (l ++ rest).eraseDups := by
  have hknown : known.removeAll l = [] := by
    refine List.filter_eq_nil_iff.mpr fun a ha => ?_
    simpa using h ha
  have hrest : rest.removeAll (l ++ known) = rest.removeAll l := by
    refine List.filter_congr fun a _ => ?_
    by_cases ha : a ∈ l
    · simp [ha]
    · have hak : a ∉ known := fun hk => ha (h hk)
      simp [ha, hak]
  have hfirst : (l ++ known).eraseDups = l.eraseDups := by
    rw [List.eraseDups_append, hknown, List.eraseDups_nil, List.append_nil]
  rw [List.eraseDups_append, hrest, hfirst, ← List.eraseDups_append]

namespace ImportBlock

/-- Symbols that are added to first occurrences leave first occurrences. -/
theorem foldl_insertNew (first more : List String) :
    more.foldl insertNew first.eraseDups = (first ++ more).eraseDups := by
  induction more generalizing first with
  | nil => rw [List.foldl_nil, List.append_nil]
  | cons symbol rest ih =>
    have hinsert : insertNew first.eraseDups symbol = (first ++ [symbol]).eraseDups := by
      rw [eraseDups_append_singleton, insertNew]
      simp only [List.mem_eraseDups]
    rw [List.foldl_cons, hinsert, ih, List.append_assoc, List.singleton_append]

/-- The block of a path: what the demands of this path ask for, first occurrences only. -/
def gathered (demands : List ImportBlock) (path : String) : ImportBlock where
  path := path
  symbols := ((demands.filter (·.path == path)).flatMap (·.symbols)).eraseDups

/-- One more demand adds its symbols to the block of its path. -/
theorem withSymbols_gathered (demands : List ImportBlock) (demand : ImportBlock) :
    (gathered demands demand.path).withSymbols demand.symbols =
      gathered (demands ++ [demand]) demand.path := by
  have hsymbols := foldl_insertNew
    ((demands.filter (·.path == demand.path)).flatMap (·.symbols)) demand.symbols
  simp only [withSymbols, gathered, hsymbols]
  simp

/-- One more demand leaves the blocks of other paths as they are. -/
theorem gathered_append_of_ne (demands : List ImportBlock) {demand : ImportBlock} {path : String}
    (h : path ≠ demand.path) : gathered (demands ++ [demand]) path = gathered demands path := by
  simp [gathered, Ne.symm h]

/-- The block of a path that no demand has is empty. -/
theorem gathered_of_notMem {demands : List ImportBlock} {path : String}
    (h : path ∉ demands.map (·.path)) : gathered demands path = ⟨path, []⟩ := by
  have hnone : demands.filter (·.path == path) = [] := by
    refine List.filter_eq_nil_iff.mpr fun demand hdemand => ?_
    simpa using fun hpath : demand.path = path => h (hpath ▸ List.mem_map_of_mem hdemand)
  rw [gathered, hnone]
  rfl

end ImportBlock

/-! ## Blocks of demands -/

namespace Contract

open ImportBlock

/-- A demand joins the block of its path, which is empty if there was none. -/
theorem getD_find?_gathered {demands : List ImportBlock} {blocks : Registry ImportBlock (·.path)}
    (h : blocks.toList = (demands.map (·.path)).eraseDups.map (gathered demands))
    (path : String) : (blocks.find? path).getD ⟨path, []⟩ = gathered demands path := by
  by_cases hmem : path ∈ demands.map (·.path)
  · have hfound : blocks.find? path = some (gathered demands path) := by
      refine Registry.find?_eq_some_iff.mpr ⟨?_, rfl⟩
      rw [h]
      exact List.mem_map_of_mem (List.mem_eraseDups.mpr hmem)
    rw [hfound]
    rfl
  · have hnone : blocks.find? path = none := by
      refine Option.eq_none_iff_forall_ne_some.mpr fun block hblock => hmem ?_
      obtain ⟨hstored, rfl⟩ := Registry.find?_eq_some_iff.mp hblock
      rw [h] at hstored
      obtain ⟨other, hother, rfl⟩ := List.mem_map.mp hstored
      exact List.mem_eraseDups.mp hother
    rw [hnone, gathered_of_notMem hmem]
    rfl

/-- **Gathering makes one block for each path**, in order of first occurrence. -/
theorem toList_gatherImports (demands : List ImportBlock) :
    (gatherImports demands).toList =
      (demands.map (·.path)).eraseDups.map (gathered demands) := by
  induction demands using List.reverseRecOn with
  | nil => rfl
  | append_singleton demands demand ih =>
    -- the last demand writes the block of its path, and no other block
    have hfold : gatherImports (demands ++ [demand]) = (gatherImports demands).put
        ((((gatherImports demands).find? demand.path).getD ⟨demand.path, []⟩).withSymbols
          demand.symbols) := List.foldl_append
    rw [hfold, getD_find?_gathered ih, withSymbols_gathered,
      Registry.toList_put_of_eq_map ih (fun _ => rfl), List.map_append, List.map_singleton,
      eraseDups_append_singleton]
    simp only [List.mem_eraseDups]
    refine List.map_congr_left fun path _ => ?_
    split
    · next hsame =>
      rw [hsame]
      rfl
    · next hother =>
      have hpath : path ≠ demand.path := hother
      exact (gathered_append_of_ne demands hpath).symm

variable {c : Contract}

/-- **The paths of the demands** are the imports of the contract with dots: what a function needs
is at the path of a base module. -/
theorem eraseDups_paths_importDemands (c : Contract) :
    (c.importDemands.map (·.path)).eraseDups =
      (c.imports.map (·.map fun ch => if ch = '/' then '.' else ch)).eraseDups := by
  have hfunctions : (c.functions.filterMap c.functionDemand?).map (·.path) ⊆
      (c.parents.map c.parentDemand).map (·.path) := by
    intro path hpath
    obtain ⟨demand, hdemand, rfl⟩ := List.mem_map.mp hpath
    obtain ⟨function, -, hneeded⟩ := List.mem_filterMap.mp hdemand
    obtain ⟨base, p, -, hfind, rfl⟩ := functionDemand?_eq_some_iff.mp hneeded
    exact List.mem_map.mpr ⟨_, List.mem_map_of_mem (of_find?_parents hfind).1, rfl⟩
  rw [importDemands, List.map_append, List.map_append,
    eraseDups_append_append_of_subset hfunctions, imports, List.map_append]
  simp only [List.map_map]
  rfl

/-! ## What a contract needs -/

/-- **What a contract uses of a path**, whether it has a constructor or not. -/
inductive Uses (c : Contract) (path : String) : String → Prop
  /-- What a base module at the path is always imported with. -/
  | declared {p : Parent} {symbol : String} (hp : p ∈ c.parents) (hpath : p.base.importPath = path)
      (hsymbol : symbol ∈ p.base.symbols) : Uses c path symbol
  /-- The function of a base module at the path that a function of the contract calls. -/
  | called {function : ContractFunction} {p : Parent} (hfunction : function ∈ c.functions)
      (hp : p ∈ c.parents) (hpath : p.base.importPath = path)
      (hbase : function.template.base? = some p.base.name) :
      Uses c path (p.base.name ++ "_" ++ function.template.name)
  /-- A library at the path that is attached to a type. -/
  | attached {a : Attachment} (ha : a ∈ c.attachments) (hpath : a.library.importPath = path) :
      Uses c path a.library.name

/-- **What a contract needs of a path**: what it uses, and the initializers of the base modules at
the path if it has a constructor to call them. -/
inductive Needs (c : Contract) (path : String) : String → Prop
  | initializer {p : Parent} (hp : p ∈ c.parents) (hpath : p.base.importPath = path)
      (hconstructor : c.hasConstructor = true) (hinitializer : p.base.hasInitializer = true) :
      Needs c path (p.base.name ++ "_initializer")
  | used {symbol : String} (huses : c.Uses path symbol) : Needs c path symbol

theorem mem_gathered_iff {demands : List ImportBlock} {path symbol : String} :
    symbol ∈ (gathered demands path).symbols ↔
      ∃ demand ∈ demands, demand.path = path ∧ symbol ∈ demand.symbols := by
  simp [gathered, List.mem_eraseDups, and_assoc]

/-- **The symbols of a block** are what the contract needs of its path. -/
theorem mem_gathered {path symbol : String} :
    symbol ∈ (gathered c.importDemands path).symbols ↔ c.Needs path symbol := by
  simp only [mem_gathered_iff, importDemands, List.mem_append]
  constructor
  · rintro ⟨demand, (hparent | hfunction) | hattachment, hpath, hsymbol⟩
    · obtain ⟨p, hp, rfl⟩ := List.mem_map.mp hparent
      rcases List.mem_append.mp hsymbol with hinitializer | hdeclared
      · rw [List.mem_ite_nil_right, Bool.and_eq_true] at hinitializer
        obtain ⟨⟨hconstructor, hinitializer⟩, hsymbol⟩ := hinitializer
        obtain rfl := List.mem_singleton.mp hsymbol
        exact .initializer hp hpath hconstructor hinitializer
      · exact .used (.declared hp hpath hdeclared)
    · obtain ⟨function, hmentioned, hneeded⟩ := List.mem_filterMap.mp hfunction
      obtain ⟨base, p, hbase, hfind, rfl⟩ := functionDemand?_eq_some_iff.mp hneeded
      obtain ⟨hp, rfl⟩ := of_find?_parents hfind
      obtain rfl := List.mem_singleton.mp hsymbol
      exact .used (.called hmentioned hp hpath hbase)
    · obtain ⟨a, ha, rfl⟩ := List.mem_map.mp hattachment
      obtain rfl := List.mem_singleton.mp hsymbol
      exact .used (.attached ha hpath)
  · rintro (⟨hp, hpath, hconstructor, hinitializer⟩ | hused)
    · refine ⟨_, .inl (.inl (List.mem_map_of_mem hp)), hpath, List.mem_append_left _ ?_⟩
      rw [hconstructor, hinitializer]
      exact List.mem_singleton_self _
    · cases hused with
      | declared hp hpath hsymbol =>
        exact ⟨_, .inl (.inl (List.mem_map_of_mem hp)), hpath, List.mem_append_right _ hsymbol⟩
      | @called function p hfunction hp hpath hbase =>
        -- names of base modules are distinct, so the first of this name is this one
        obtain ⟨q, hfind⟩ := exists_find?_parents (hasParent_iff.mpr ⟨p, hp, rfl⟩)
        obtain ⟨hq, hname⟩ := of_find?_parents hfind
        obtain rfl := Registry.eq_of_key_eq (mem_parents.mp hq) (mem_parents.mp hp) hname
        have hneeded := functionDemand?_eq_some_iff.mpr ⟨_, q, hbase, hfind, rfl⟩
        exact ⟨_, .inl (.inr (List.mem_filterMap.mpr ⟨function, hfunction, hneeded⟩)), hpath,
          List.mem_singleton_self _⟩
      | attached ha hpath =>
        exact ⟨_, .inr (List.mem_map_of_mem ha), hpath, List.mem_singleton_self _⟩

/-- Whether anything is needed of a path shows in its block. -/
theorem exists_needs_iff {path : String} :
    (∃ symbol, c.Needs path symbol) ↔
      (!(gathered c.importDemands path).symbols.isEmpty) = true := by
  simp only [← mem_gathered]
  cases (gathered c.importDemands path).symbols with
  | nil => simp
  | cons symbol rest => exact iff_of_true ⟨symbol, List.mem_cons_self⟩ rfl

instance (c : Contract) (path : String) : Decidable (∃ symbol, c.Needs path symbol) :=
  decidable_of_iff _ exists_needs_iff.symm

/-- The blocks of a contract: one for each path of its imports of which anything is needed. -/
theorem importBlocks_eq (c : Contract) :
    c.importBlocks =
      ((c.imports.map (·.map fun ch => if ch = '/' then '.' else ch)).eraseDups.filter
        fun path => ∃ symbol, c.Needs path symbol).map (gathered c.importDemands) := by
  rw [importBlocks, toList_gatherImports, eraseDups_paths_importDemands, List.filter_map]
  refine congrArg (List.map _) (List.filter_congr fun path _ => ?_)
  exact Bool.eq_iff_iff.mpr (exists_needs_iff.symm.trans decide_eq_true_iff.symm)

/-! ## The import section -/

/-- The initializer of a base module is needed when the constructor calls it, and when the contract
uses a symbol that is spelled like it. -/
theorem needs_initializer_iff {p : Parent} (hp : p ∈ c.parents) :
    c.Needs p.base.importPath (p.base.name ++ "_initializer") ↔
      (c.hasConstructor = true ∧ p.base.hasInitializer = true) ∨
        c.Uses p.base.importPath (p.base.name ++ "_initializer") := by
  constructor
  · intro hneeds
    generalize hsymbol : p.base.name ++ "_initializer" = symbol at hneeds
    cases hneeds with
    | @initializer q hq hpath hconstructor hinitializer =>
      -- one name, one base module
      have hname : p.base.name = q.base.name := String.append_left_inj _ |>.mp hsymbol
      obtain rfl := Registry.eq_of_key_eq (mem_parents.mp hp) (mem_parents.mp hq) hname
      exact .inl ⟨hconstructor, hinitializer⟩
    | used huses => exact .inr huses
  · rintro (⟨hconstructor, hinitializer⟩ | huses)
    · exact .initializer hp rfl hconstructor hinitializer
    · exact .used huses

/-- The call of an initializer is printed where there is a constructor. -/
theorem initializerCall_printed_iff {naming : Renaming} {d : Document}
    (h : c.document naming = .ok d) {p : Parent} (hp : p ∈ c.parents)
    (hinitializer : p.base.hasInitializer = true) :
    (∃ call, p.initializerCall = .ok call ∧ ∃ r ∈ d.constructors, call ∈ r.statements.flatten) ↔
      c.hasConstructor = true := by
  obtain ⟨calls, hcalls⟩ := exists_initializerCalls h
  obtain ⟨routines, hroutines, rfl⟩ := document_eq_ok_iff.mp h
  constructor
  · rintro ⟨-, -, r, hr, -⟩
    by_contra hconstructor
    rw [constructors_eq, if_neg hconstructor] at hroutines
    obtain rfl := Except.ok.inj hroutines
    cases hr
  · intro hconstructor
    obtain ⟨call, hcall, hok⟩ := exists_of_mem_forall₂ (mapM_eq_ok_iff_forall₂.mp hcalls)
      (List.mem_filter.mpr ⟨hp, hinitializer⟩)
    have hprinted := (mem_statements_constructors hconstructor hcalls hroutines).mpr
      (.inr (.inl hcall))
    exact ⟨call, hok, List.mem_flatMap.mp hprinted⟩

end Contract

/-- The rows of an import block: a symbol a row, each with a comma. -/
def importRows (block : ImportBlock) : List String :=
  ["from " ++ block.path ++ " import ("] ++ block.symbols.map ("    " ++ · ++ ",") ++ [")"]

namespace Document

/-- The sections below the imports, without empty ones. -/
def belowImports (d : Document) : List (List Layout) :=
  [Layout.lines (d.tags.map tagLine), Layout.lines d.declarations].filter (!·.isEmpty) ++
    d.constructors.map Routine.layout ++ d.functionSections

theorem rows_importLines (block : ImportBlock) :
    Layout.rows (importLines block) = importRows block := by
  have hrows : Layout.rowsAt 1 (Layout.lines (block.symbols.map (· ++ ","))) =
      block.symbols.map ("    " ++ · ++ ",") := by
    rw [Layout.rowsAt_lines, List.map_map]
    refine List.map_congr_left fun symbol _ => ?_
    exact String.append_assoc.symm
  simp [Layout.rows, importLines, Layout.rowsAt, Layout.rowsOf, hrows, importRows,
    Layout.indentation]

theorem rows_flatMap_importLines (blocks : List ImportBlock) :
    Layout.rows (blocks.flatMap importLines) = blocks.flatMap importRows := by
  induction blocks with
  | nil => rfl
  | cons block rest ih =>
    rw [List.flatMap_cons, List.flatMap_cons, ← ih, ← rows_importLines]
    exact Layout.rowsAt_append 0 _ _

/-- The rows above the import blocks. -/
theorem rows_heading (license : String) :
    ([Layout.lines ["# SPDX-License-Identifier: " ++ license], Layout.lines ["%lang starknet"],
        Layout.lines builtinImports].filter (!·.isEmpty)).map Layout.rows =
      [["# SPDX-License-Identifier: " ++ license], ["%lang starknet"],
        ["from starkware.cairo.common.cairo_builtins import HashBuiltin",
          "from starkware.cairo.common.uint256 import Uint256"]] :=
  congrArg (fun rows => [rows, ["%lang starknet"], builtinImports])
    (Layout.rows_lines ["# SPDX-License-Identifier: " ++ license])

/-- The text of a document around its imports. -/
theorem render_eq_around_imports (d : Document) :
    d.render =
      "\n".intercalate ([""].intercalate
        ([["# SPDX-License-Identifier: " ++ d.license], ["%lang starknet"],
            ["from starkware.cairo.common.cairo_builtins import HashBuiltin",
              "from starkware.cairo.common.uint256 import Uint256"]] ++
          (if d.imports.isEmpty then [] else [d.imports.flatMap importRows]) ++
          d.belowImports.map Layout.rows)) ++ "\n" := by
  -- without imports the section is empty, and empty sections are left out
  have himports : ([d.imports.flatMap importLines].filter (!·.isEmpty)).map Layout.rows =
      if d.imports.isEmpty then [] else [d.imports.flatMap importRows] := by
    cases himports : d.imports with
    | nil => rfl
    | cons block rest => exact congrArg (fun rows => [rows]) (rows_flatMap_importLines _)
  -- the sections above the constructors, cut around the imports
  have habove : d.above = [Layout.lines ["# SPDX-License-Identifier: " ++ d.license],
      Layout.lines ["%lang starknet"], Layout.lines builtinImports] ++
        [d.imports.flatMap importLines] ++
        [Layout.lines (d.tags.map tagLine), Layout.lines d.declarations] := rfl
  have hconstructors : d.constructors.map (Layout.rows ·.layout) =
      (d.constructors.map Routine.layout).map Layout.rows := (List.map_map ..).symm
  rw [render_eq_around_constructors, habove, List.filter_append, List.filter_append,
    List.map_append, List.map_append, himports, rows_heading, hconstructors, belowImports,
    List.map_append, List.map_append]
  simp only [List.append_assoc]

end Document

namespace Contract

open ImportBlock

variable {c : Contract}

/-- **The import section of a source.** It has one block for each path, in the order in which the
paths first occur among the imports of the contract, with dots for slashes, and no block for a path
of which nothing is needed. A block has, each symbol once, what the contract needs of its path: the
initializers of the base modules there if there is a constructor, what these are declared with, the
functions of them that are called, and the libraries there. So the initializer of a base module is
imported when its call is printed in the constructor, and otherwise just when the contract uses a
symbol of this spelling from the same path. -/
theorem source_imports (c : Contract) {text : String} (h : c.source {} = .ok text) :
    ∃ d, c.document {} = .ok d ∧
      text = "\n".intercalate ([""].intercalate
        ([["# SPDX-License-Identifier: " ++ c.license], ["%lang starknet"],
            ["from starkware.cairo.common.cairo_builtins import HashBuiltin",
              "from starkware.cairo.common.uint256 import Uint256"]] ++
          (if d.imports.isEmpty then [] else [d.imports.flatMap importRows]) ++
          d.belowImports.map Layout.rows)) ++ "\n" ∧
      (d.imports.map (·.path)).Nodup ∧
      d.imports.map (·.path) =
        (c.imports.map (·.map fun ch => if ch = '/' then '.' else ch)).eraseDups.filter
          (fun path => ∃ symbol, c.Needs path symbol) ∧
      (∀ block ∈ d.imports, block.symbols.Nodup ∧
        ∀ symbol, symbol ∈ block.symbols ↔ c.Needs block.path symbol) ∧
      ∀ p ∈ c.parents,
        ((∃ block ∈ d.imports, block.path = p.base.importPath ∧
            p.base.name ++ "_initializer" ∈ block.symbols) ↔
          (p.base.hasInitializer = true ∧ ∃ call, p.initializerCall = .ok call ∧
              ∃ r ∈ d.constructors, call ∈ r.statements.flatten) ∨
            c.Uses p.base.importPath (p.base.name ++ "_initializer")) := by
  obtain ⟨d, hd, rfl⟩ := source_eq_ok_iff.mp h
  have himports : d.imports = c.importBlocks := imports_of_document hd
  have hlicense : d.license = c.license := by
    obtain ⟨routines, -, rfl⟩ := document_eq_ok_iff.mp hd
    rfl
  have hpaths : c.importBlocks.map (·.path) =
      (c.imports.map (·.map fun ch => if ch = '/' then '.' else ch)).eraseDups.filter
        (fun path => ∃ symbol, c.Needs path symbol) := by
    rw [importBlocks_eq, List.map_map]
    exact List.map_id _
  have hneeds : ∀ block ∈ c.importBlocks, block.symbols.Nodup ∧
      ∀ symbol, symbol ∈ block.symbols ↔ c.Needs block.path symbol := by
    intro block hblock
    rw [importBlocks_eq] at hblock
    obtain ⟨path, -, rfl⟩ := List.mem_map.mp hblock
    exact ⟨nodup_eraseDups _, fun symbol => mem_gathered⟩
  refine ⟨d, hd, hlicense ▸ d.render_eq_around_imports, ?_⟩
  rw [himports]
  refine ⟨?_, hpaths, hneeds, fun p hp => ?_⟩
  · rw [hpaths]
    exact (nodup_eraseDups _).filter _
  · have hprinted : (c.hasConstructor = true ∧ p.base.hasInitializer = true) ↔
        p.base.hasInitializer = true ∧ ∃ call, p.initializerCall = .ok call ∧
          ∃ r ∈ d.constructors, call ∈ r.statements.flatten :=
      and_comm.trans (and_congr_right fun hinitializer =>
        (initializerCall_printed_iff hd hp hinitializer).symm)
    rw [mem_importBlocks, ← mem_gathered_iff, mem_gathered, needs_initializer_iff hp, hprinted]

/-- Two base modules and a library at one path, a path of which nothing is needed, and the module
that is presented first although it was added last. -/
theorem source_imports_of_shared_path :
    let c := (Contract.new "Demo").run
      [.addParent ⟨"Vault", "lib/v", .explicit, ["Vault_lock"]⟩ [.literal "owner"],
        .addParent ⟨"Empty", "lib/e", .implicit, []⟩ [],
        .addAttachment ⟨"Math", "lib/v", .implicit, []⟩ "Uint256",
        .addParent ⟨"Safe", "lib.v", .implicit, ["Vault_lock"]⟩ [],
        .addParent ⟨"Initializable", "lib/i", .implicit, ["Initializable_initialize"]⟩ [],
        .addFunction { base? := some "Safe", name := "open" }]
    ∃ text d, c.source {} = .ok text ∧ c.document {} = .ok d ∧
      d.imports.map (·.path) = ["lib.i", "lib.v"] ∧
      ∀ block ∈ d.imports, block.path = "lib.v" → block.symbols.Nodup ∧
        ∀ symbol, symbol ∈ block.symbols ↔
          symbol ∈ ["Vault_initializer", "Vault_lock", "Safe_open", "Math"] := by
  intro c
  obtain ⟨text, h⟩ : ∃ text, c.source {} = .ok text := ⟨_, rfl⟩
  obtain ⟨d, hd, -, -, hpaths, hsymbols, -⟩ := c.source_imports h
  have hgathered : (gathered c.importDemands "lib.v").symbols =
      ["Vault_initializer", "Vault_lock", "Safe_open", "Math"] := by
    decide +kernel
  have hdotted : c.imports.map (·.map fun ch => if ch = '/' then '.' else ch) =
      ["lib.i", "lib.v", "lib.e", "lib.v", "lib.v"] := by
    decide +kernel
  have hfirst : ["lib.i", "lib.v", "lib.e", "lib.v", "lib.v"].eraseDups =
      ["lib.i", "lib.v", "lib.e"] := by
    decide +kernel
  rw [hdotted, hfirst] at hpaths
  refine ⟨text, d, h, hd, hpaths.trans (by decide +kernel), fun block hblock hpath => ?_⟩
  obtain ⟨hnodup, hneeds⟩ := hsymbols block hblock
  refine ⟨hnodup, fun symbol => ?_⟩
  rw [hneeds, hpath, ← mem_gathered, hgathered]

/-- A base module may declare a symbol that is spelled like its initializer, which is then imported
although there is nothing to initialize and so no call of it. -/
theorem imports_declared_initializer :
    let c := (Contract.new "Demo").run
      [.addParent ⟨"Vault", "lib/v", .explicit, ["Vault_initializer"]⟩ []]
    ∃ d, c.document {} = .ok d ∧
      ¬∀ p ∈ c.parents,
        ((∃ block ∈ d.imports, block.path = p.base.importPath ∧
            p.base.name ++ "_initializer" ∈ block.symbols) ↔
          (p.base.hasInitializer = true ∧ ∃ call, p.initializerCall = .ok call ∧
            ∃ r ∈ d.constructors, call ∈ r.statements.flatten)) := by
  intro c
  refine ⟨_, rfl, fun h => ?_⟩
  have hvault : (⟨⟨"Vault", "lib/v", .explicit, ["Vault_initializer"]⟩, []⟩ : Parent) ∈
      c.parents := List.mem_singleton_self _
  obtain ⟨-, call, -, r, hr, -⟩ := (h _ hvault).mp
    ⟨⟨"lib.v", ["Vault_initializer"]⟩, by decide +kernel, by decide +kernel,
      by decide +kernel⟩
  cases hr

end Contract

end CairoForge
