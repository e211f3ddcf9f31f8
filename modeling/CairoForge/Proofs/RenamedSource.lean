import CairoForge.Proofs.PrintedTexts
import CairoForge.Proofs.UnprintableNumbers

/-!
# Sources with and without renaming

Renaming changes a source in three kinds of lines: those that open an import block, those that
declare a variable, and those in the head of a routine that have a type of a library. As long as
nothing is renamed to a text with a line break, every line stays where it is, and all other lines
stay what they are. What is refused is refused for the same reason.

## Main results

* `keptByPrinting_unbroken` — printing keeps texts in one line.
* `Contract.exists_source_body` — the lines of a source are the marked lines filled in.
* `Contract.mem_sourceLines_cases` — which lines have marked pieces.
* `Contract.source_renamed` — the source with and without renaming, line by line.
-/

namespace CairoForge

/-- Printing keeps texts in one line. -/
theorem keptByPrinting_unbroken : KeptByPrinting (breaks · = 0) where
  legible h := by
    rw [isLegible, Bool.and_eq_true, beq_iff_eq] at h
    exact h.1
  append hfirst hsecond := by rw [breaks_append, hfirst, hsecond]
  spaced hspaces h := by
    rw [breaks_append, h, breaks, List.count_eq_zero.mpr]
    intro hbreak
    exact absurd (List.all_eq_true.mp hspaces _ hbreak) (by decide)
  dotted h := by rw [BaseModule.breaks_importPath_eq, h]

/-- Outside its head a routine has no marked pieces. -/
theorem Outline.mem_lines_cases {f : Outline} {line : Line} (h : line ∈ f.lines) :
    (∃ content, line = .plain content) ∨ line ∈ f.head := by
  refine forall_mem_lines (Q := fun line => (∃ content, line = .plain content) ∨ line ∈ f.head)
    ?_ (fun row _ => .inl ⟨row, rfl⟩) (.inl ⟨"end", rfl⟩) line h
  intro line hline
  rcases List.mem_append.mp hline with hmark | hhead
  · obtain ⟨mark, -, rfl⟩ := List.mem_map.mp hmark
    exact .inl ⟨mark, rfl⟩
  · exact .inr hhead

namespace Contract

variable {c : Contract} {naming : Renaming} {calls : List String}

/-- **The lines of a source are the marked lines filled in**, and a line feed ends the last one. -/
theorem exists_source_body (hc : c.EachText (breaks · = 0)) (hnaming : naming.Keeps (breaks · = 0))
    (hcalls : c.initializerCalls = .ok calls) {text : String} (h : c.source naming = .ok text) :
    ∃ body, text = body ++ "\n" ∧
      linesOf body = (c.sourceLines calls).map (Line.text naming) := by
  obtain ⟨d, hd, rfl⟩ := source_eq_ok_iff.mp h
  have hrows := rows_of_document hd hcalls
  obtain ⟨rest, hlicense⟩ := d.rows_license
  have hsome : d.rows ≠ [] := by
    have hfirst : d.rows = _ :: rest := hlicense d.license
    rw [hfirst]
    exact List.cons_ne_nil _ _
  have hunbroken : ∀ row ∈ d.rows, breaks row = 0 := by
    intro row hrow
    rw [hrows] at hrow
    obtain ⟨line, hline, rfl⟩ := List.mem_map.mp hrow
    rcases hc.text_sourceLines keptByPrinting_unbroken hnaming hcalls line hline with hkept | rfl
    · exact hkept
    · rfl
  refine ⟨"\n".intercalate d.rows, rfl, ?_⟩
  rw [linesOf_intercalate hsome, flatMap_linesOf_of_unbroken hunbroken, hrows]

theorem linesOf_source (hc : c.EachText (breaks · = 0)) (hnaming : naming.Keeps (breaks · = 0))
    (hcalls : c.initializerCalls = .ok calls) {text : String} (h : c.source naming = .ok text) :
    linesOf text = (c.sourceLines calls).map (Line.text naming) ++ [""] := by
  obtain ⟨body, rfl, hbody⟩ := exists_source_body hc hnaming hcalls h
  rw [linesOf_append_end, hbody]

/-- The lines with marked pieces. -/
inductive Renamable (c : Contract) (calls : List String) : Line → Prop
  /-- The line that opens an import block. -/
  | importing {block : ImportBlock} (h : block ∈ c.importBlocks) :
      Renamable c calls [.plain "from ", .modulePath block.path, .plain " import ("]
  | declaring {declaration : String} (h : declaration ∈ c.declarations) :
      Renamable c calls [.declaration declaration]
  /-- A line in the head of what initializes the contract. -/
  | initializing {f : Outline} (h : f ∈ c.initializingOutlines calls) {line : Line}
      (hline : line ∈ f.head) : Renamable c calls line
  /-- A line in the head of a function. -/
  | function {function : ContractFunction} (h : function ∈ c.functions) {line : Line}
      (hline : line ∈ function.outline.head) : Renamable c calls line

/-- **Which lines have marked pieces**: no others than these. -/
theorem mem_sourceLines_cases {line : Line} (h : line ∈ c.sourceLines calls) :
    (∃ content, line = .plain content) ∨ c.Renamable calls line := by
  have hplain : ∀ rows : List String, line ∈ rows.map Line.plain →
      ∃ content, line = .plain content := by
    intro rows hmem
    obtain ⟨row, -, rfl⟩ := List.mem_map.mp hmem
    exact ⟨row, rfl⟩
  -- a line stands in one of the sections or is empty between two of them
  rcases mem_of_mem_intercalate h with hblank | ⟨lines, hlines, hmem⟩
  · exact .inl ⟨"", List.mem_singleton.mp hblank⟩
  · cases isSection_of_mem_sectionLines (List.mem_filter.mp hlines).1 with
    | license => exact .inl (hplain _ hmem)
    | fixed => exact .inl (hplain _ hmem)
    | tags => exact .inl (hplain _ hmem)
    | imports =>
      obtain ⟨block, hblock, hline⟩ := List.mem_flatMap.mp hmem
      rcases List.mem_cons.mp hline with rfl | hrest
      · exact .inr (.importing hblock)
      · exact .inl (hplain _ hrest)
    | declarations =>
      obtain ⟨declaration, hdeclaration, rfl⟩ := List.mem_map.mp hmem
      exact .inr (.declaring hdeclaration)
    | initializing hf => exact (Outline.mem_lines_cases hmem).imp_right (.initializing hf)
    | function hfunction => exact (Outline.mem_lines_cases hmem).imp_right (.function hfunction)

/-- **The source with and without renaming.** Either both are refused for the same reason, or both
are printed with as many lines, and corresponding lines are equal but for the marked pieces: the
path in a line that opens an import block, the declaration of a variable, and types of libraries in
the head of a routine. Each of these is changed as it is declared, and nothing else is. -/
theorem source_renamed (c : Contract) (naming : Renaming) (hc : c.EachText (breaks · = 0))
    (hnaming : naming.Keeps (breaks · = 0)) :
    (∃ refusal, c.source {} = .error refusal ∧ c.source naming = .error refusal) ∨
      ∃ calls text text', c.initializerCalls = .ok calls ∧
        c.source {} = .ok text ∧ c.source naming = .ok text' ∧
        linesOf text = (c.sourceLines calls).map (Line.text {}) ++ [""] ∧
        linesOf text' = (c.sourceLines calls).map (Line.text naming) ++ [""] ∧
        (linesOf text).length = (linesOf text').length ∧
        ∀ line ∈ c.sourceLines calls,
          (∃ content, line = .plain content) ∨ c.Renamable calls line := by
  cases hcalls : c.initializerCalls with
  | error refusal =>
    left
    exact ⟨refusal, source_eq_error_iff_initializerCalls.mpr hcalls,
      source_eq_error_iff_initializerCalls.mpr hcalls⟩
  | ok calls =>
    right
    -- what is not refused is printed
    have hprinted : ∀ naming, ∃ text, c.source naming = .ok text := by
      intro naming
      refine exists_eq_ok_iff.mpr fun refusal hrefusal => ?_
      rw [source_eq_error_iff_initializerCalls, hcalls] at hrefusal
      cases hrefusal
    obtain ⟨text, htext⟩ := hprinted {}
    obtain ⟨text', htext'⟩ := hprinted naming
    -- both sources are the same marked lines, filled in differently
    have hlines := linesOf_source hc (Renaming.keeps_default _) hcalls htext
    have hlines' := linesOf_source hc hnaming hcalls htext'
    refine ⟨calls, text, text', rfl, htext, htext', hlines, hlines', ?_,
      fun line => mem_sourceLines_cases⟩
    simp only [hlines, hlines', List.length_append, List.length_map]

/-- A vault with a supply, a limit and a guarded function: its source, and its source once all that
can be renamed is. -/
theorem source_renamed_of_vault :
    let c := (Contract.new "Vault").run
      [.addParent ⟨"Vault", "contracts/Vault", .explicit, ["Vault_limit"]⟩ [.literal "supply"],
        .addConstructorArg ⟨"supply", some "Uint256"⟩, .addVariable "const LIMIT = 1",
        .addModifier "Vault_limit()"
          { base? := some "Vault", name := "open", args := [⟨"key", some "Key"⟩] }]
    let naming : Renaming :=
      { typeName := ("lib." ++ ·), modulePath := ("oz." ++ ·), declaration := (· ++ " # kept") }
    let printed := fun path declaration library =>
      ["# SPDX-License-Identifier: MIT", "", "%lang starknet", "",
        "from starkware.cairo.common.cairo_builtins import HashBuiltin",
        "from starkware.cairo.common.uint256 import Uint256", "",
        "from " ++ path ++ " import (", "    Vault_initializer,", "    Vault_limit,",
        "    Vault_open,", ")", "",
        declaration, "",
        "@constructor", "func constructor\x7b", "        syscall_ptr: felt*,",
        "        pedersen_ptr: " ++ library ++ "HashBuiltin*,", "        range_check_ptr",
        "    \x7d(supply: " ++ library ++ "Uint256):", "    Vault_initializer(supply)",
        "    return ()", "end", "",
        "func open(key: " ++ library ++ "Key):", "    Vault_limit()", "    Vault_open(key)",
        "    return ()", "end", ""]
    ∃ text text', c.source {} = .ok text ∧ c.source naming = .ok text' ∧
      linesOf text = printed "contracts.Vault" "const LIMIT = 1" "" ∧
      linesOf text' = printed "oz.contracts.Vault" "const LIMIT = 1 # kept" "lib." := by
  intro c naming printed
  have hc : c.EachText (breaks · = 0) := eachText_run keptByPrinting_unbroken "Vault" (by decide)
  have hnaming : naming.Keeps (breaks · = 0) := by
    constructor
    · intro text h
      exact keptByPrinting_unbroken.append (by decide) h
    · intro text h
      exact keptByPrinting_unbroken.append (by decide) h
    · intro text h
      exact keptByPrinting_unbroken.append h (by decide)
  obtain ⟨refusal, hrefusal, -⟩ | ⟨calls, text, text', hcalls, htext, htext', hlines, hlines', -⟩ :=
    c.source_renamed naming hc hnaming
  · cases hrefusal
  · obtain rfl : calls = ["Vault_initializer(supply)"] := Except.ok.inj (hcalls.symm.trans rfl)
    refine ⟨text, text', htext, htext', hlines.trans ?_, hlines'.trans ?_⟩
    · decide +kernel
    · decide +kernel

end Contract

end CairoForge
