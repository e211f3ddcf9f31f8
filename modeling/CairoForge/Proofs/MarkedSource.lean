import CairoForge.Proofs.GatheredImports

/-!
# Sources with marked pieces

Three kinds of text can be changed while a contract is printed. The source is laid out here with
these texts marked and everything else spelled, once for all ways to change them: a source is what
its marked lines read when the marked pieces are filled in.

## Main definitions

* `Piece`, `Line.text` — a piece of a line, and what a line of pieces reads.
* `Outline`, `Outline.lines` — a routine before its types are spelled, and its lines.
* `Contract.sectionLines`, `Contract.sourceLines` — the lines of a source, by section and in all.
* `Contract.IsSection` — what sections there are.

## Main results

* `Outline.rows_routine` — the rows of a routine are its lines filled in.
* `Contract.sectionRows_of_document` — so are the rows of each section.
* `Contract.rows_of_document` — so are the rows of the whole source.
-/

namespace CairoForge

/-! ## Pieces and lines -/

/-- A piece of a line, by what may change it. -/
inductive Piece where
  /-- Text that is printed as it is. -/
  | plain (text : String)
  /-- A type of a library. -/
  | typeName (type : String)
  /-- The path of a module in an import. -/
  | modulePath (path : String)
  /-- The declaration of a variable. -/
  | declaration (source : String)
  deriving DecidableEq

/-- What is printed for a piece. -/
def Piece.text (naming : Renaming) : Piece → String
  | plain text => text
  | typeName type => naming.typeName type
  | modulePath path => naming.modulePath path
  | declaration source => naming.declaration source

/-- A line of a source. -/
abbrev Line := List Piece

namespace Line

variable {naming : Renaming}

/-- A line that nothing changes. -/
def plain (text : String) : Line := [.plain text]

/-- What a line reads. -/
def text (naming : Renaming) : Line → String
  | [] => ""
  | piece :: rest => piece.text naming ++ text naming rest

@[simp] theorem text_nil : text naming [] = "" := rfl

@[simp] theorem text_cons (piece : Piece) (rest : Line) :
    text naming (piece :: rest) = piece.text naming ++ text naming rest := rfl

@[simp] theorem text_append (first second : Line) :
    text naming (first ++ second) = text naming first ++ text naming second := by
  induction first with
  | nil => exact String.empty_append.symm
  | cons piece rest ih => rw [List.cons_append, text_cons, text_cons, ih, String.append_assoc]

@[simp] theorem text_plain (content : String) : text naming (plain content) = content :=
  String.append_empty

theorem map_text_plain (rows : List String) : (rows.map plain).map (text naming) = rows := by
  rw [List.map_map]
  exact List.map_id'' text_plain rows

theorem text_intercalate (separator : Line) (groups : List Line) :
    text naming (separator.intercalate groups) =
      (text naming separator).intercalate (groups.map (text naming)) := by
  induction groups with
  | nil => rfl
  | cons group rest ih =>
    cases rest with
    | nil => simp
    | cons next rest =>
      rw [List.intercalate_cons_cons, text_append, text_append, ih, List.map_cons, List.map_cons,
        List.map_cons, String.intercalate_cons_cons]

end Line

theorem map_intercalate {α β : Type} (f : α → β) (separator : List α) (groups : List (List α)) :
    (separator.intercalate groups).map f =
      (separator.map f).intercalate (groups.map (List.map f)) := by
  induction groups with
  | nil => rfl
  | cons group rest ih =>
    cases rest with
    | nil => simp
    | cons next rest =>
      simp only [List.intercalate_cons_cons, List.map_cons, List.map_append] at ih ⊢
      rw [ih]

/-! ## Arguments -/

/-- An argument; a library type in it is marked. -/
def Argument.pieces (arg : Argument) : Line :=
  match arg.type? with
  | some type =>
    [.plain (arg.name ++ ": "), if isLibraryType type then .typeName type else .plain type]
  | none => [.plain arg.name]

theorem Argument.text_pieces (naming : Renaming) (arg : Argument) :
    Line.text naming arg.pieces = arg.render naming := by
  unfold pieces render
  cases arg.type? with
  | none => exact String.append_empty
  | some type =>
    dsimp only
    split <;> simp [Piece.text]

/-- Arguments in one line, separated by commas. -/
def Argument.listPieces (args : List Argument) : Line :=
  [.plain ", "].intercalate (args.map pieces)

theorem Argument.text_listPieces (naming : Renaming) (args : List Argument) :
    Line.text naming (listPieces args) = Routine.commaSeparated (args.map (render naming)) := by
  rw [listPieces, Line.text_intercalate, List.map_map]
  exact congrArg _ (List.map_congr_left fun arg _ => arg.text_pieces naming)

/-- Implicit arguments, one a line, with a comma behind each but the last. -/
def Argument.implicitLines : List Argument → List Line
  | [] => []
  | [arg] => [.plain "        " :: arg.pieces]
  | arg :: rest => (.plain "        " :: arg.pieces ++ [.plain ","]) :: implicitLines rest

theorem Argument.text_implicitLines (naming : Renaming) (args : List Argument) :
    (implicitLines args).map (Line.text naming) =
      (Routine.withCommas (args.map (render naming))).map (Layout.indentation 2 ++ ·) := by
  have hindentation : Layout.indentation 2 = "        " := by decide
  -- what stands behind an argument depends on whether there is another one
  induction args with
  | nil => rfl
  | cons arg rest ih =>
    cases rest with
    | nil => simp [implicitLines, Routine.withCommas, Piece.text, text_pieces, hindentation]
    | cons next rest =>
      have hcomma : Line.text naming (.plain "        " :: arg.pieces ++ [.plain ","]) =
          Layout.indentation 2 ++ (arg.render naming ++ ",") := by
        simp [Piece.text, text_pieces, hindentation]
      rw [implicitLines, List.map_cons, ih, hcomma]
      · rfl
      · simp

/-! ## Routines -/

/-- A routine before its types are spelled. -/
structure Outline where
  annotations : List String := []
  name : String
  implicitArgs : List Argument := []
  args : List Argument := []
  returns? : Option (List Argument) := none
  statements : List (List String) := []
  results : List String := []

namespace Outline

/-- The routine of an outline. -/
def routine (naming : Renaming) (f : Outline) : Routine where
  annotations := f.annotations
  name := f.name
  implicitArgs := f.implicitArgs.map (Argument.render naming)
  args := f.args.map (Argument.render naming)
  returns? := f.returns?.map (·.map (Argument.render naming))
  statements := f.statements
  results := f.results

/-- The arguments and what is returned, up to the colon that ends the head. -/
def headEnd (f : Outline) : Line :=
  [.plain "("] ++ Argument.listPieces f.args ++ [.plain ")"] ++
    (match f.returns? with
      | some returns => [.plain " -> ("] ++ Argument.listPieces returns ++ [.plain ")"]
      | none => []) ++
    [.plain ":"]

/-- The head: one line, or one line for each implicit argument between braces. -/
def head (f : Outline) : List Line :=
  if f.implicitArgs.isEmpty then
    [.plain ("func " ++ f.name) :: f.headEnd]
  else
    .plain ("func " ++ f.name ++ "\x7b") ::
      (Argument.implicitLines f.implicitArgs ++ [.plain "    \x7d" :: f.headEnd])

/-- The statements in groups and what is returned. -/
def body (f : Outline) : List String :=
  [""].intercalate ((f.statements.filter (!·.isEmpty)).map (·.map ("    " ++ ·))) ++
    ["    return (" ++ ", ".intercalate f.results ++ ")"]

/-- The lines of a routine; only types in its head are marked. -/
def lines (f : Outline) : List Line :=
  f.annotations.map Line.plain ++ f.head ++ f.body.map Line.plain ++ [.plain "end"]

/-- What holds of the opening, the body and the end of a routine holds of its lines. -/
theorem forall_mem_lines {Q : Line → Prop} {f : Outline}
    (hopening : ∀ line ∈ f.annotations.map Line.plain ++ f.head, Q line)
    (hbody : ∀ row ∈ f.body, Q (.plain row)) (hend : Q (.plain "end")) :
    ∀ line ∈ f.lines, Q line :=
  List.forall_mem_append.mpr ⟨List.forall_mem_append.mpr ⟨hopening, List.forall_mem_map.mpr hbody⟩,
    List.forall_mem_singleton.mpr hend⟩

theorem map_text_lines (naming : Renaming) (f : Outline) :
    f.lines.map (Line.text naming) =
      (f.annotations.map Line.plain ++ f.head).map (Line.text naming) ++ f.body ++ ["end"] := by
  rw [lines, List.map_append, List.map_append, Line.map_text_plain]
  rfl

/-- Between statements of one group there is no empty row. -/
theorem body_of_statements_eq {f : Outline} {group : List String} (h : f.statements = [group]) :
    f.body = group.map ("    " ++ ·) ++ ["    return (" ++ ", ".intercalate f.results ++ ")"] := by
  rw [body, h]
  cases group with
  | nil => rfl
  | cons first rest => exact congrArg (· ++ _) List.intercalate_singleton

section

variable (naming : Renaming) (f : Outline)

theorem text_headEnd : Line.text naming f.headEnd = (f.routine naming).headEnd := by
  unfold headEnd Routine.headEnd routine
  cases f.returns? with
  | none => simp [Piece.text, Argument.text_listPieces, String.append_assoc]
  | some returns => simp [Piece.text, Argument.text_listPieces, String.append_assoc]

theorem rows_head : Layout.rows (f.routine naming).head = f.head.map (Line.text naming) := by
  have hend := f.text_headEnd naming
  unfold head Routine.head
  by_cases hargs : f.implicitArgs.isEmpty = true
  · have hempty : (f.routine naming).implicitArgs.isEmpty = true := by
      rwa [routine, List.isEmpty_map]
    rw [if_pos hargs, if_pos hempty]
    simp [Layout.rows, Layout.rowsAt, Layout.rowsOf, Layout.indentation, Piece.text, hend, routine]
  · have hsome : ¬(f.routine naming).implicitArgs.isEmpty = true := by
      rwa [routine, List.isEmpty_map]
    have hfirst : Layout.indentation 0 = "" := by decide
    have hclose : Layout.indentation 1 ++ "\x7d" = "    \x7d" := by decide
    rw [if_neg hargs, if_neg hsome, List.map_cons, List.map_append, Argument.text_implicitLines]
    simp [Layout.rows, Layout.rowsAt, Layout.rowsOf, Layout.rowsAt_lines, Piece.text, hend, hfirst,
      ← hclose, String.append_assoc, routine]

/-- **The rows of a routine are its lines filled in.** -/
theorem rows_routine :
    Layout.rows (f.routine naming).layout = f.lines.map (Line.text naming) := by
  have hopening : (f.routine naming).opening =
      f.annotations ++ Layout.rows (f.routine naming).head :=
    (Layout.rowsAt_append 0 _ _).trans (congrArg (· ++ _) (Layout.rows_lines _))
  have hindentation : Layout.indentation 1 = "    " := by decide
  -- an outline spells the indentation that a layout leaves to its depth
  have hopen : "    return (" = "    " ++ "return (" := by decide
  have hreturn : "    " ++ (f.routine naming).returnStatement =
      "    return (" ++ ", ".intercalate f.results ++ ")" := by
    rw [Routine.returnStatement, hopen, String.append_assoc, String.append_assoc,
      String.append_assoc]
    rfl
  rw [Routine.rows_layout, hopening, rows_head, hindentation, hreturn, lines, body]
  simp only [List.map_append, Line.map_text_plain]
  rfl

end

end Outline

/-- A function before its types are spelled. -/
def ContractFunction.outline (function : ContractFunction) : Outline :=
  let template := function.template
  { annotations := (template.kind?.map fun kind => "@" ++ kind.name).toList
    name := template.name
    implicitArgs := template.implicitArgs
    args := template.args
    returns? := template.returns?
    statements := [function.statements]
    results := results template }

/-! ## Sections -/

namespace Document

/-- A section leaves no rows just when nothing is in it. -/
theorem isEmpty_rows_of_mem_sections {d : Document} {group : List Layout}
    (h : group ∈ d.sections) : (Layout.rows group).isEmpty = group.isEmpty := by
  have hlines : ∀ texts : List String,
      (Layout.rows (Layout.lines texts)).isEmpty = (Layout.lines texts).isEmpty := by
    intro texts
    rw [Layout.rows_lines, Layout.lines, List.isEmpty_map]
  have hroutine : ∀ r : Routine, (Layout.rows r.layout).isEmpty = r.layout.isEmpty := by
    intro r
    have hrows : Layout.rows r.layout ≠ [] := by
      rw [Routine.rows_layout]
      exact List.append_ne_nil_of_right_ne_nil _ (List.cons_ne_nil _ _)
    rw [List.isEmpty_eq_false_iff.mpr hrows, List.isEmpty_eq_false_iff.mpr (layout_ne_nil r)]
  simp only [sections, List.mem_append, List.mem_cons, List.not_mem_nil, or_false,
    List.mem_map] at h
  rcases h with ((((h | ⟨r, -, rfl⟩) | ⟨r, -, rfl⟩) | ⟨r, -, rfl⟩) | hdivider) | ⟨r, -, rfl⟩
  · rcases h with rfl | rfl | rfl | rfl | rfl | rfl
    · exact hlines _
    · exact hlines _
    · exact hlines _
    · -- an import block has rows that open and close it
      rw [rows_flatMap_importLines]
      cases d.imports <;> rfl
    · exact hlines _
    · exact hlines _
  · exact hroutine r
  · exact hroutine r
  · exact hroutine r
  · split at hdivider
    · cases hdivider
    · obtain rfl := List.mem_singleton.mp hdivider
      exact hlines divider
  · exact hroutine r

/-- The rows of a document: those of its sections, with an empty row between each two that are not
empty. -/
theorem rows_eq (d : Document) :
    d.rows = [""].intercalate ((d.sections.map Layout.rows).filter (!·.isEmpty)) := by
  -- the layout drops sections that are empty before there are rows, the statement afterwards
  have hrows : d.rows = [""].intercalate ((d.sections.filter (!·.isEmpty)).map Layout.rows) :=
    Layout.rowsAt_spaceBetween 0 _
  have hkept : d.sections.filter (!·.isEmpty) =
      d.sections.filter fun group => !(Layout.rows group).isEmpty :=
    List.filter_congr fun group hgroup => by rw [isEmpty_rows_of_mem_sections hgroup]
  rw [hrows, hkept, List.filter_map]
  rfl

end Document

namespace Contract

/-- What initializes a contract, before types are spelled, given the initializer calls. -/
def initializingOutlines (c : Contract) (calls : List String) : List Outline :=
  let statements := [c.onceGuard ++ calls, c.constructorCode]
  if c.upgradeable then
    [{ annotations := ["# @custom:oz-upgrades-unsafe-allow constructor", "@constructor"]
       name := "constructor"
       implicitArgs := Argument.implicits
       statements := [c.onceGuard] },
      { annotations := ["@external"]
        name := "initializer"
        implicitArgs := Argument.implicits
        args := c.constructorArgs
        statements }]
  else
    [{ annotations := ["@constructor"]
       name := "constructor"
       implicitArgs := Argument.implicits
       args := c.constructorArgs
       statements }]

theorem initializing_eq (c : Contract) (naming : Renaming) (calls : List String) :
    c.initializing naming calls = (c.initializingOutlines calls).map (Outline.routine naming) := by
  unfold initializing initializingOutlines
  split <;> rfl

/-- The lines of an import block; the path in it is marked. -/
def blockLines (block : ImportBlock) : List Line :=
  [.plain "from ", .modulePath block.path, .plain " import ("] ::
    (block.symbols.map ("    " ++ · ++ ",") ++ [")"]).map Line.plain

/-- The lines of functions. -/
def functionLines (functions : List ContractFunction) : List (List Line) :=
  functions.map fun function => function.outline.lines

/-- The sections of a source, empty ones included, given the initializer calls. -/
def sectionLines (c : Contract) (calls : List String) : List (List Line) :=
  [["# SPDX-License-Identifier: " ++ c.license].map Line.plain,
    ["%lang starknet"].map Line.plain,
    Document.builtinImports.map Line.plain,
    c.importBlocks.flatMap blockLines,
    (c.tags.map Document.tagLine).map Line.plain,
    c.declarations.map fun declaration => [.declaration declaration]] ++
  (if c.hasConstructor then (c.initializingOutlines calls).map Outline.lines else []) ++
  functionLines (c.functions.filter fun f => !f.code.isEmpty) ++
  functionLines (c.functions.filter fun f => f.code.isEmpty && !f.modifiers.isEmpty) ++
  (if (c.functions.filter fun f => f.code.isEmpty && f.modifiers.isEmpty).isEmpty then []
    else [Document.divider.map Line.plain]) ++
  functionLines (c.functions.filter fun f => f.code.isEmpty && f.modifiers.isEmpty)

/-- **What sections there are.** -/
inductive IsSection (c : Contract) (calls : List String) : List Line → Prop
  | license : IsSection c calls (["# SPDX-License-Identifier: " ++ c.license].map Line.plain)
  | fixed {rows : List String}
      (h : rows ∈ [["%lang starknet"], Document.builtinImports, Document.divider]) :
      IsSection c calls (rows.map Line.plain)
  | imports : IsSection c calls (c.importBlocks.flatMap blockLines)
  | tags : IsSection c calls ((c.tags.map Document.tagLine).map Line.plain)
  | declarations :
      IsSection c calls (c.declarations.map fun declaration => [.declaration declaration])
  | initializing {f : Outline} (h : f ∈ c.initializingOutlines calls) : IsSection c calls f.lines
  | function {function : ContractFunction} (h : function ∈ c.functions) :
      IsSection c calls function.outline.lines

theorem isSection_of_mem_sectionLines {c : Contract} {calls : List String} {lines : List Line}
    (h : lines ∈ c.sectionLines calls) : c.IsSection calls lines := by
  -- each group of functions is some of all functions
  have hfunctions : ∀ kept : ContractFunction → Bool,
      lines ∈ functionLines (c.functions.filter kept) → c.IsSection calls lines := by
    intro kept hlines
    obtain ⟨function, hfunction, rfl⟩ := List.mem_map.mp hlines
    exact .function (List.mem_filter.mp hfunction).1
  simp only [sectionLines, List.mem_append, List.mem_cons, List.not_mem_nil, or_false] at h
  rcases h with ((((hheading | hinitializing) | hcode) | hguarded) | hdivider) | hpass
  · rcases hheading with rfl | rfl | rfl | rfl | rfl | rfl
    · exact .license
    · exact .fixed (by simp)
    · exact .fixed (by simp)
    · exact .imports
    · exact .tags
    · exact .declarations
  · obtain ⟨-, hmem⟩ := List.mem_ite_nil_right.mp hinitializing
    obtain ⟨f, hf, rfl⟩ := List.mem_map.mp hmem
    exact .initializing hf
  · exact hfunctions _ hcode
  · exact hfunctions _ hguarded
  · obtain ⟨-, hmem⟩ := List.mem_ite_nil_left.mp hdivider
    obtain rfl := List.mem_singleton.mp hmem
    exact .fixed (by simp)
  · exact hfunctions _ hpass

/-- The lines of a source: sections that are not empty, with an empty line between each two. -/
def sourceLines (c : Contract) (calls : List String) : List Line :=
  [.plain ""].intercalate ((c.sectionLines calls).filter (!·.isEmpty))

/-- The lines of a source, section by section. -/
theorem map_text_sourceLines (c : Contract) (calls : List String) (naming : Renaming) :
    (c.sourceLines calls).map (Line.text naming) =
      [""].intercalate
        (((c.sectionLines calls).map (List.map (Line.text naming))).filter (!·.isEmpty)) := by
  rw [sourceLines, map_intercalate, List.filter_map]
  simp only [Function.comp_def, List.isEmpty_map]
  rfl

section

variable {c : Contract} {naming : Renaming} {d : Document} {calls : List String}

theorem text_blockLines (block : ImportBlock) :
    (blockLines block).map (Line.text naming) =
      importRows { block with path := naming.modulePath block.path } := by
  rw [blockLines, List.map_cons, Line.map_text_plain]
  simp [Piece.text, importRows, String.append_assoc]

theorem text_functionLines (functions : List ContractFunction) :
    (functionLines functions).map (List.map (Line.text naming)) =
      functions.map fun f => Layout.rows (f.routine naming).layout := by
  rw [functionLines, List.map_map]
  exact List.map_congr_left fun f _ => (f.outline.rows_routine naming).symm

/-- What initializes a contract has the lines of its outlines. -/
theorem rows_constructors {routines : List Routine} (h : c.constructors naming = .ok routines)
    (hcalls : c.initializerCalls = .ok calls) :
    routines.map (Layout.rows ·.layout) =
      (if c.hasConstructor then (c.initializingOutlines calls).map Outline.lines else []).map
        (List.map (Line.text naming)) := by
  rw [constructors_eq, hcalls] at h
  cases hconstructor : c.hasConstructor with
  | true =>
    rw [if_pos hconstructor] at h
    obtain rfl := Except.ok.inj h
    rw [if_pos rfl, initializing_eq, List.map_map, List.map_map]
    exact List.map_congr_left fun f _ => f.rows_routine naming
  | false =>
    rw [hconstructor] at h
    obtain rfl := Except.ok.inj h
    rfl

/-- **The rows of each section are its lines filled in.** -/
theorem sectionRows_of_document (h : c.document naming = .ok d)
    (hcalls : c.initializerCalls = .ok calls) :
    d.sections.map Layout.rows =
      (c.sectionLines calls).map (List.map (Line.text naming)) := by
  have hfunctions := rows_functionSections h
  obtain ⟨routines, hroutines, rfl⟩ := document_eq_ok_iff.mp h
  -- blocks are grouped by path before the paths are renamed
  have himports : (c.importBlocks.map fun b => { b with path := naming.modulePath b.path }).flatMap
      importRows = (c.importBlocks.flatMap blockLines).map (Line.text naming) := by
    rw [List.map_flatMap, List.flatMap_map]
    exact List.flatMap_congr fun block _ => (text_blockLines block).symm
  have hconstructors : (routines.map Routine.layout).map Layout.rows = _ :=
    (List.map_map ..).trans (rows_constructors hroutines hcalls)
  have hdeclarations : c.declarations.map naming.declaration =
      (c.declarations.map fun declaration => [Piece.declaration declaration]).map
        (Line.text naming) := by
    rw [List.map_map]
    exact List.map_congr_left fun _ _ => String.append_empty.symm
  have hdivider : ∀ skip : Prop, ∀ [Decidable skip],
      (if skip then [] else [Document.divider.map Line.plain]).map (List.map (Line.text naming)) =
        if skip then [] else [["#", "# Externals", "#"]] := by
    intro skip _
    split
    · rfl
    · exact congrArg (fun rows => [rows]) (Line.map_text_plain Document.divider)
  rw [Document.sections_eq, List.map_append, hfunctions, Document.front, List.map_append,
    hconstructors, sectionLines]
  simp only [List.map_append, List.map_cons, List.map_nil, Layout.rows_lines,
    Document.rows_flatMap_importLines, himports, hdeclarations, hdivider, text_functionLines,
    Line.map_text_plain, Line.text_plain, List.append_assoc]

/-- **The rows of a source are its lines filled in.** -/
theorem rows_of_document (h : c.document naming = .ok d)
    (hcalls : c.initializerCalls = .ok calls) :
    d.rows = (c.sourceLines calls).map (Line.text naming) := by
  rw [d.rows_eq, sectionRows_of_document h hcalls, map_text_sourceLines]

end

end Contract

end CairoForge
