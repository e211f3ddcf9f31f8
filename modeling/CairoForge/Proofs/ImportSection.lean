import CairoForge.Proofs.FreeText
import CairoForge.Proofs.ImportedFeatures

/-!
# The import section of a source

The import section stands above all free text but the license, so it can be told from what
surrounds it whatever the texts are. The rows in it name the symbols that are imported.

## Main results

* `symbolRow_mem_iff` — a symbol is imported when its row is there.
* `Document.linesOf_render_around_imports` — the import section in the lines of a source.
* `Document.importRows_eq_of_render_eq` — sources of one license have one import section.
* `TokenOptions.needs_iff_of_source_eq` — tokens of one source import the same symbols.
-/

namespace CairoForge

/-! ## The import section in a source -/

/-- The rows of import blocks are those of symbols and those that open and close a block. -/
theorem mem_flatMap_importRows_iff {blocks : List ImportBlock} {row : String} :
    row ∈ blocks.flatMap importRows ↔
      ∃ block ∈ blocks, row = "from " ++ block.path ++ " import (" ∨
        (∃ symbol ∈ block.symbols, row = "    " ++ symbol ++ ",") ∨ row = ")" := by
  simp [importRows, eq_comm]

/-- A symbol has its row in a block: the other rows open otherwise. -/
theorem symbolRow_mem_iff {blocks : List ImportBlock} {symbol : String} :
    "    " ++ symbol ++ "," ∈ blocks.flatMap importRows ↔
      ∃ block ∈ blocks, symbol ∈ block.symbols := by
  rw [mem_flatMap_importRows_iff]
  refine exists_congr fun block => and_congr_right fun _ => ?_
  constructor
  · rintro (hopen | ⟨other, hother, hrow⟩ | hclose)
    · have hletters := congrArg String.toList hopen
      simp at hletters
    · rw [String.append_left_inj, String.append_right_inj] at hrow
      rwa [hrow]
    · have hletters := congrArg String.toList hclose
      simp at hletters
  · exact fun hsymbol => .inr (.inl ⟨symbol, hsymbol, rfl⟩)

theorem empty_notMem_flatMap_importRows (blocks : List ImportBlock) :
    "" ∉ blocks.flatMap importRows := by
  rw [mem_flatMap_importRows_iff]
  rintro ⟨block, -, hopen | ⟨symbol, -, hrow⟩ | hclose⟩
  · have hletters := congrArg String.toList hopen
    simp at hletters
  · have hletters := congrArg String.toList hrow
    simp at hletters
  · exact absurd hclose (by decide)

/-- The rows between the license and the import section. -/
def Document.preamble : List String :=
  ["", "%lang starknet", ""] ++ builtinImports ++ [""]

/-- **The import section in the lines of a source**: it stands below the license and the preamble,
and an empty line ends it. -/
theorem Document.linesOf_render_around_imports {d : Document} (himports : d.imports ≠ [])
    (hbelow : d.belowImports ≠ [])
    (hbreaks : ∀ row ∈ d.imports.flatMap importRows, breaks row = 0) :
    ∃ rest, linesOf d.render =
      linesOf ("# SPDX-License-Identifier: " ++ d.license) ++
        (preamble ++ (d.imports.flatMap importRows ++ "" :: rest)) := by
  obtain ⟨first, sections, hsections⟩ := List.exists_cons_of_ne_nil hbelow
  set below := [""].intercalate (Layout.rows first :: sections.map Layout.rows)
  have hrows : d.render = textOfRows (("# SPDX-License-Identifier: " ++ d.license) ::
      (preamble ++ (d.imports.flatMap importRows ++ "" :: below))) := by
    rw [render_eq_around_imports, hsections, if_neg (by simpa using himports), List.map_cons]
    simp only [List.cons_append, List.nil_append, List.intercalate_cons_cons, List.append_assoc]
    rfl
  have hpreamble : preamble.flatMap linesOf = preamble :=
    flatMap_linesOf_of_unbroken (by decide)
  have hempty : linesOf "" = [""] := rfl
  refine ⟨below.flatMap linesOf ++ [""], ?_⟩
  rw [hrows, linesOf_textOfRows (List.cons_ne_nil _ _), List.flatMap_cons, List.flatMap_append,
    List.flatMap_append, List.flatMap_cons, hpreamble,
    flatMap_linesOf_of_unbroken hbreaks, hempty]
  simp only [List.append_assoc, List.cons_append, List.nil_append]

/-- **Sources of one license have one import section.** -/
theorem Document.importRows_eq_of_render_eq {d d' : Document} (himports : d.imports ≠ [])
    (himports' : d'.imports ≠ []) (hbelow : d.belowImports ≠ []) (hbelow' : d'.belowImports ≠ [])
    (hbreaks : ∀ row ∈ d.imports.flatMap importRows, breaks row = 0)
    (hbreaks' : ∀ row ∈ d'.imports.flatMap importRows, breaks row = 0)
    (hlicense : d.license = d'.license) (h : d.render = d'.render) :
    d.imports.flatMap importRows = d'.imports.flatMap importRows := by
  obtain ⟨rest, hrest⟩ := linesOf_render_around_imports himports hbelow hbreaks
  obtain ⟨rest', hrest'⟩ := linesOf_render_around_imports himports' hbelow' hbreaks'
  have hlines := congrArg linesOf h
  rw [hrest, hrest', hlicense, List.append_cancel_left_eq, List.append_cancel_left_eq] at hlines
  exact (eq_of_append_cons_eq (empty_notMem_flatMap_importRows _)
    (empty_notMem_flatMap_importRows _) hlines).1

/-- The symbols of import blocks are those that are needed. -/
theorem Contract.exists_mem_symbols_iff {c : Contract} {symbol : String} :
    (∃ block ∈ c.importBlocks, symbol ∈ block.symbols) ↔ ∃ path, c.Needs path symbol := by
  constructor
  · rintro ⟨block, hblock, hsymbol⟩
    have hneeded := mem_importBlocks.mp ⟨block, hblock, rfl, hsymbol⟩
    exact ⟨block.path, mem_gathered.mp (mem_gathered_iff.mpr hneeded)⟩
  · rintro ⟨path, hneeds⟩
    obtain ⟨block, hblock, -, hsymbol⟩ :=
      mem_importBlocks.mpr (mem_gathered_iff.mp (mem_gathered.mpr hneeds))
    exact ⟨block, hblock, hsymbol⟩

/-- A path of the library stands in one line. -/
theorem BaseModule.breaks_importPath {base : BaseModule} (h : base ∈ library) :
    breaks base.importPath = 0 := by
  have hlibrary : ∀ base ∈ library, breaks base.path = 0 := by decide +kernel
  rw [breaks_importPath_eq, hlibrary base h]

namespace TokenOptions

section

variable {o o' : TokenOptions} (h : o.validate = .ok ()) {d : Document}
include h

/-- What a token imports is spelled in one line, and so is where it comes from. -/
theorem breaks_of_needs {path symbol : String} (hneeds : o.assembled.Needs path symbol) :
    breaks path = 0 ∧ breaks symbol = 0 := by
  have hclosed := (composed_assembled h).closed
  have hlibrary : ∀ base ∈ BaseModule.library,
      ∀ symbol ∈ base.initializerSymbol :: base.symbols, breaks symbol = 0 := by
    decide +kernel
  have hall : ∀ template ∈ EntryPoint.all, breaks template.callSymbol = 0 := by decide +kernel
  have hpath : ∀ p ∈ o.assembled.parents, breaks p.base.importPath = 0 := fun p hp =>
    BaseModule.breaks_importPath (hclosed.known p (Contract.mem_parents.mp hp)).1
  -- paths come from base modules of the library; symbols from there or from entry points
  refine ⟨?_, ?_⟩
  · cases hneeds with
    | initializer hp hpath' => exact hpath' ▸ hpath _ hp
    | used huses =>
      cases huses with
      | declared hp hpath' => exact hpath' ▸ hpath _ hp
      | called _ hp hpath' => exact hpath' ▸ hpath _ hp
      | attached ha =>
        rw [hclosed.attachments] at ha
        cases ha
  · rcases needs_cases h hneeds with ⟨base, hbase, -, hsymbol⟩ | ⟨template, htemplate, rfl⟩
    · exact hlibrary base hbase symbol hsymbol
    · exact hall template (subset_all htemplate)

variable (hd : o.assembled.document {} = .ok d)
include hd

theorem breaks_importRows : ∀ row ∈ d.imports.flatMap importRows, breaks row = 0 := by
  have hfixed : ∀ fixed ∈ ["from ", " import (", "    ", ",", ")"], breaks fixed = 0 := by decide
  simp only [List.forall_mem_cons] at hfixed
  intro row hrow
  obtain ⟨block, hblock, hrow⟩ := mem_flatMap_importRows_iff.mp hrow
  rw [Contract.imports_of_document hd] at hblock
  have hneeds : ∀ symbol ∈ block.symbols, o.assembled.Needs block.path symbol :=
    fun symbol hsymbol => Contract.mem_gathered.mp (Contract.mem_gathered_iff.mpr
      (Contract.mem_importBlocks.mp ⟨block, hblock, rfl, hsymbol⟩))
  -- a block has a symbol, so its path is that of something needed
  obtain ⟨symbol, hsymbol⟩ : ∃ symbol, symbol ∈ block.symbols := by
    have hsome := (List.mem_filter.mp hblock).2
    exact List.exists_mem_of_ne_nil _ (by simpa using hsome)
  have hpath := (breaks_of_needs h (hneeds symbol hsymbol)).1
  rcases hrow with rfl | ⟨symbol, hsymbol, rfl⟩ | rfl
  · simp only [breaks_append, hpath, hfixed]
  · simp only [breaks_append, (breaks_of_needs h (hneeds symbol hsymbol)).2, hfixed]
  · exact hfixed.2.2.2.2.1

/-- Every token imports something, and has something below its imports. -/
theorem imports_and_below_ne_nil : d.imports ≠ [] ∧ d.belowImports ≠ [] := by
  have hname : EntryPoint.name ∈ o.entryPoints := by simp [entryPoints, EntryPoint.standard]
  refine ⟨?_, ?_⟩
  · obtain ⟨block, hblock, -⟩ := Contract.exists_mem_symbols_iff.mpr
      ((exists_needs_callSymbol_iff h (subset_all hname)).mpr hname)
    rw [Contract.imports_of_document hd]
    exact List.ne_nil_of_mem hblock
  · obtain ⟨calls, -, hconstructors⟩ := constructors_document h hd
    have hsome : o.assembled.initializing {} calls ≠ [] := by
      unfold Contract.initializing
      split <;> exact List.cons_ne_nil _ _
    rw [Document.belowImports, hconstructors]
    simp [hsome]

end

/-- **Tokens of one source and one license import the same symbols.** -/
theorem needs_iff_of_source_eq {o o' : TokenOptions} (h : o.validate = .ok ())
    (h' : o'.validate = .ok ()) (hlicense : o.printedLicense = o'.printedLicense)
    (hsource : (Request.token o).source = (Request.token o').source) (symbol : String) :
    (∃ path, o.assembled.Needs path symbol) ↔ ∃ path, o'.assembled.Needs path symbol := by
  obtain ⟨d, hd, hrender⟩ := source_eq h
  obtain ⟨d', hd', hrender'⟩ := source_eq h'
  obtain ⟨himports, hbelow⟩ := imports_and_below_ne_nil h hd
  obtain ⟨himports', hbelow'⟩ := imports_and_below_ne_nil h' hd'
  have hsame : d.render = d'.render :=
    Except.ok.inj (hrender.symm.trans (hsource.trans hrender'))
  have hrows := Document.importRows_eq_of_render_eq himports himports' hbelow hbelow'
    (breaks_importRows h hd) (breaks_importRows h' hd')
    ((heading_document h hd).1.trans (hlicense.trans (heading_document h' hd').1.symm)) hsame
  rw [← Contract.exists_mem_symbols_iff, ← Contract.exists_mem_symbols_iff,
    ← Contract.imports_of_document hd, ← Contract.imports_of_document hd', ← symbolRow_mem_iff,
    ← symbolRow_mem_iff, hrows]

end TokenOptions

end CairoForge
