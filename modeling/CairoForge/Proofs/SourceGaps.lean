import CairoForge.Proofs.RenamedSource
import Mathlib.Data.List.Chain

/-!
# Gaps in printed source

Where a source has a gap, the gap is one line high. No text is blank by itself, so the blank lines
are the ones that set sections apart, and within what initializes a contract those that set groups
of statements apart. Empty sections and groups leave no gap behind.

## Main definitions

* `IsBlank` — a line with nothing in it but white space.
* `Tidy` — lines without a gap at either end, and with no gap higher than one line.

## Main results

* `Tidy.intercalate` — tidy groups stay tidy when they are set apart.
* `keptByPrinting_clean` — printing keeps texts in one line that are not blank.
* `Contract.source_tidy` — the gaps in the source of a contract after a run.
-/

namespace CairoForge

/-- A line with nothing in it but white space, whatever counts as that. -/
def IsBlank (isSpace : Char → Bool) (line : String) : Prop :=
  ∀ ch ∈ line.toList, isSpace ch = true

instance (isSpace : Char → Bool) (line : String) : Decidable (IsBlank isSpace line) :=
  decidable_of_iff (line.toList.all isSpace = true) List.all_eq_true

/-- **Lines without stray gaps**: neither the first nor the last is blank, and no two blank lines
follow each other. -/
structure Tidy (isSpace : Char → Bool) (lines : List String) : Prop where
  first : ∀ line ∈ lines.head?, ¬IsBlank isSpace line
  last : ∀ line ∈ lines.getLast?, ¬IsBlank isSpace line
  apart : lines.IsChain fun line next => ¬(IsBlank isSpace line ∧ IsBlank isSpace next)

variable {isSpace : Char → Bool}

/-! ## Groups set apart -/

namespace Tidy

theorem of_forall_not_isBlank {lines : List String} (h : ∀ line ∈ lines, ¬IsBlank isSpace line) :
    Tidy isSpace lines where
  first line hline := h line (List.mem_of_mem_head? hline)
  last line hline := h line (List.mem_of_mem_getLast? hline)
  apart := by
    refine List.Pairwise.isChain (List.pairwise_of_forall_mem_list ?_)
    intro line hline next _ hblank
    exact h line hline hblank.1

variable {above below : List String}

theorem append (habove : Tidy isSpace above) (hbelow : Tidy isSpace below) :
    Tidy isSpace (above ++ below) where
  first line hline := by
    rw [List.head?_append, Option.mem_def, Option.or_eq_some_iff] at hline
    rcases hline with habove' | ⟨-, hbelow'⟩
    · exact habove.first line habove'
    · exact hbelow.first line hbelow'
  last line hline := by
    rw [List.getLast?_append, Option.mem_def, Option.or_eq_some_iff] at hline
    rcases hline with hbelow' | ⟨-, habove'⟩
    · exact hbelow.last line hbelow'
    · exact habove.last line habove'
  apart := List.isChain_append.mpr ⟨habove.apart, hbelow.apart, fun line hline next _ hblank =>
    habove.last line hline hblank.1⟩

/-- One empty line between tidy lines is no stray gap. -/
theorem append_gap (habove : Tidy isSpace above) (hbelow : Tidy isSpace below)
    (hsome : above ≠ []) (hmore : below ≠ []) : Tidy isSpace (above ++ [""] ++ below) where
  first line hline := by
    obtain ⟨top, rest, rfl⟩ := List.exists_cons_of_ne_nil hsome
    exact habove.first line hline
  last line hline := by
    rw [List.getLast?_append_of_ne_nil _ hmore] at hline
    exact hbelow.last line hline
  apart := by
    -- the lines around the gap are not blank
    have hgap := List.IsChain.append (R := fun line next => ¬(IsBlank isSpace line ∧
        IsBlank isSpace next)) habove.apart (.singleton "") fun line hline next _ hblank =>
      habove.last line hline hblank.1
    exact hgap.append hbelow.apart fun line _ next hnext hblank => hbelow.first next hnext hblank.2

/-- **Tidy groups stay tidy when they are set apart**, if none of them is empty. -/
theorem intercalate {groups : List (List String)}
    (h : ∀ group ∈ groups, group ≠ [] ∧ Tidy isSpace group) :
    Tidy isSpace ([""].intercalate groups) := by
  induction groups with
  | nil => exact of_forall_not_isBlank nofun
  | cons group rest ih =>
    obtain ⟨⟨hsome, hgroup⟩, hrest⟩ := List.forall_mem_cons.mp h
    cases rest with
    | nil => simpa using hgroup
    | cons next rest =>
      rw [List.intercalate_cons_cons]
      have hnext := (List.forall_mem_cons.mp hrest).1.1
      exact hgroup.append_gap (ih hrest) hsome (intercalate_cons_ne_nil hnext)

end Tidy

/-! ## What printing keeps -/

section

variable (hspace : ∀ ch, '!' ≤ ch → ch ≤ '~' → isSpace ch = false)
include hspace

/-- Printing keeps texts in one line that are not blank. -/
theorem keptByPrinting_clean :
    KeptByPrinting fun text => breaks text = 0 ∧ ¬IsBlank isSpace text where
  legible {text} h := by
    rw [isLegible, Bool.and_eq_true, beq_iff_eq, List.any_eq_true] at h
    obtain ⟨hunbroken, ch, hch, hrange⟩ := h
    simp only [Bool.and_eq_true, decide_eq_true_eq] at hrange
    refine ⟨hunbroken, fun hblank => ?_⟩
    exact Bool.false_ne_true ((hspace ch hrange.1 hrange.2).symm.trans (hblank ch hch))
  append {first second} hfirst hsecond := by
    refine ⟨keptByPrinting_unbroken.append hfirst.1 hsecond.1, fun hblank => hfirst.2 ?_⟩
    intro ch hch
    exact hblank ch (by simp [hch])
  spaced {spaces text} hspaces h := by
    refine ⟨keptByPrinting_unbroken.spaced hspaces h.1, fun hblank => h.2 ?_⟩
    intro ch hch
    exact hblank ch (by simp [hch])
  dotted {base} h := by
    refine ⟨keptByPrinting_unbroken.dotted h.1, fun hblank => h.2 ?_⟩
    -- a dot can be seen, so a path of white space has no slash
    intro ch hch
    have hdotted := hblank (if ch = '/' then '.' else ch) (by
      rw [BaseModule.importPath, String.toList_map]
      exact List.mem_map_of_mem hch)
    split at hdotted
    · exact absurd hdotted (by simp [hspace '.' (by decide) (by decide)])
    · exact hdotted

/-! ## The gaps in a source -/

/-- A routine has gaps between groups of statements and nowhere else. -/
theorem Outline.tidy_lines {f : Outline}
    (h : f.EachText fun text => breaks text = 0 ∧ ¬IsBlank isSpace text) :
    Tidy isSpace (f.lines.map (Line.text {})) := by
  have hclean := keptByPrinting_clean hspace
  have hopening := h.text_opening hclean (Renaming.keeps_default _)
  obtain ⟨hgroups, hreturn⟩ := h.rows_body hclean
  have hend : breaks "end" = 0 ∧ ¬IsBlank isSpace "end" := hclean.legible (by decide)
  rw [map_text_lines]
  -- only the groups of statements are set apart; the rest has no blank lines
  refine .append (.append ?_ (.append (.intercalate ?_) ?_)) ?_
  · refine .of_forall_not_isBlank fun row hrow => ?_
    obtain ⟨line, hline, rfl⟩ := List.mem_map.mp hrow
    exact (hopening line hline).2
  · intro group hgroup
    refine ⟨?_, .of_forall_not_isBlank fun row hrow => (hgroups group hgroup row hrow).2⟩
    obtain ⟨statements, hstatements, rfl⟩ := List.mem_map.mp hgroup
    have hsome := (List.mem_filter.mp hstatements).2
    simpa using hsome
  · exact .of_forall_not_isBlank (List.forall_mem_singleton.mpr hreturn.2)
  · exact .of_forall_not_isBlank (List.forall_mem_singleton.mpr hend.2)

namespace Contract

variable {c : Contract} {calls : List String}
  (h : c.EachText fun text => breaks text = 0 ∧ ¬IsBlank isSpace text)
include h

/-- The sections of a source are tidy, whichever of them there are. -/
theorem tidy_sections (hcalls : c.initializerCalls = .ok calls) :
    ∀ group ∈ (c.sectionLines calls).map (List.map (Line.text {})), Tidy isSpace group := by
  have hclean := keptByPrinting_clean hspace
  intro group hgroup
  obtain ⟨lines, hlines, rfl⟩ := List.mem_map.mp hgroup
  rcases h.text_sectionLines hclean (Renaming.keeps_default _) lines hlines with
    hkept | ⟨f, hf, rfl⟩
  · refine .of_forall_not_isBlank fun row hrow => ?_
    obtain ⟨line, hline, rfl⟩ := List.mem_map.mp hrow
    exact (hkept line hline).2
  · exact Outline.tidy_lines hspace (hclean.initializingOutlines h hcalls f hf)

/-- A function has no gaps. -/
theorem not_isBlank_of_mem_function {function : ContractFunction} (hf : function ∈ c.functions) :
    ∀ line ∈ function.outline.lines, ¬IsBlank isSpace (Line.text {} line) := by
  have hclean := keptByPrinting_clean hspace
  have houtline := hclean.outline (h.functions function hf)
  intro line hline
  exact (houtline.text_lines_of_statements_eq hclean (Renaming.keeps_default _) rfl line hline).2

/-- What initializes a contract has a gap between its calls and its own statements, if it has both,
and no other. -/
theorem exists_lines_initializing (hcalls : c.initializerCalls = .ok calls) {f : Outline}
    (hf : f ∈ c.initializingOutlines calls) :
    ∃ opening, f.lines.map (Line.text {}) =
        opening ++
          [""].intercalate ((f.statements.filter (!·.isEmpty)).map (·.map ("    " ++ ·))) ++
          ["    return ()", "end"] ∧
      ∀ line ∈ opening ++ f.statements.flatten, ¬IsBlank isSpace line := by
  have hclean := keptByPrinting_clean hspace
  have houtline := hclean.initializingOutlines h hcalls f hf
  -- constructors return nothing, so the last statement is the same in all of them
  have hresults : f.results = [] := by
    unfold initializingOutlines at hf
    dsimp only at hf
    split at hf
    · simp only [List.mem_cons, List.not_mem_nil, or_false] at hf
      rcases hf with rfl | rfl <;> rfl
    · rw [List.mem_singleton.mp hf]
  refine ⟨(f.annotations.map Line.plain ++ f.head).map (Line.text {}), ?_, ?_⟩
  · rw [Outline.map_text_lines, Outline.body, hresults]
    simp only [List.append_assoc]
    rfl
  · refine List.forall_mem_append.mpr ⟨fun row hrow => ?_, fun statement hstatement => ?_⟩
    · obtain ⟨line, hline, rfl⟩ := List.mem_map.mp hrow
      exact (houtline.text_opening hclean (Renaming.keeps_default _) line hline).2
    · obtain ⟨group, hgroup, hmem⟩ := List.mem_flatten.mp hstatement
      exact (houtline.statements group hgroup statement hmem).2

end Contract

end

namespace Contract

/-- **The gaps in the source of a contract.** No text that the operations were handed is blank or
breaks a line. Then the source ends in one line feed, and its lines begin and end with one that is
not blank and have no two blank ones in a row. They are the sections that are not empty, with one
empty line between each two, and no section begins or ends with a blank line. There is none at all
in a function, and in what initializes the contract there is one between the calls and the
statements of the contract if there are both. -/
theorem source_tidy {isSpace : Char → Bool}
    (hspace : ∀ ch, '!' ≤ ch → ch ≤ '~' → isSpace ch = false) (title : String)
    {operations : List Operation}
    (hoperations : ∀ operation ∈ operations, ∀ text ∈ operation.texts,
      breaks text = 0 ∧ ¬IsBlank isSpace text)
    {text : String} (h : ((Contract.new title).run operations).source {} = .ok text) :
    let c := (Contract.new title).run operations
    ∃ body calls, text = body ++ "\n" ∧ (∀ shorter, body ≠ shorter ++ "\n") ∧
      Tidy isSpace (linesOf body) ∧ c.initializerCalls = .ok calls ∧
      (let sections := ((c.sectionLines calls).map (List.map (Line.text {}))).filter (!·.isEmpty)
       linesOf body = [""].intercalate sections ∧ ∀ group ∈ sections, Tidy isSpace group) ∧
      (∀ function ∈ c.functions, ∀ line ∈ function.outline.lines,
        ¬IsBlank isSpace (Line.text {} line)) ∧
      ∀ f ∈ c.initializingOutlines calls,
        ∃ opening, f.lines.map (Line.text {}) =
            opening ++
              [""].intercalate ((f.statements.filter (!·.isEmpty)).map (·.map ("    " ++ ·))) ++
              ["    return ()", "end"] ∧
          ∀ line ∈ opening ++ f.statements.flatten, ¬IsBlank isSpace line := by
  intro c
  have hclean : c.EachText fun text => breaks text = 0 ∧ ¬IsBlank isSpace text :=
    eachText_run (keptByPrinting_clean hspace) title hoperations
  obtain ⟨d, hd, -⟩ := source_eq_ok_iff.mp h
  obtain ⟨calls, hcalls⟩ := exists_initializerCalls hd
  obtain ⟨body, hbody, hlines⟩ := exists_source_body (hclean.imp fun _ htext => htext.1)
    (Renaming.keeps_default _) hcalls h
  rw [map_text_sourceLines] at hlines
  have hsections := tidy_sections hspace hclean hcalls
  have htidy : Tidy isSpace (linesOf body) := by
    rw [hlines]
    refine .intercalate fun group hgroup => ?_
    obtain ⟨hmem, hsome⟩ := List.mem_filter.mp hgroup
    exact ⟨by simpa using hsome, hsections group hmem⟩
  refine ⟨body, calls, hbody, ?_, htidy, hcalls,
    ⟨hlines, fun group hgroup => hsections group (List.mem_filter.mp hgroup).1⟩,
    fun function => not_isBlank_of_mem_function hspace hclean,
    fun f => exists_lines_initializing hspace hclean hcalls⟩
  -- a line feed at the end would leave an empty line behind it
  rintro shorter rfl
  rw [linesOf_append_end] at htidy
  exact htidy.last "" (by simp) nofun

/-- A vault without tags and variables, with a statement of its own in the constructor: the lines of
its source. -/
theorem source_tidy_of_vault :
    let c := (Contract.new "Vault").run
      [.addParent ⟨"Vault", "contracts/Vault", .explicit, []⟩ [.literal "key"],
        .addConstructorArg ⟨"key", some "felt"⟩, .addConstructorCode "log(key)",
        .addCode "let x = 1" { name := "run" },
        .addFunction { base? := some "Vault", name := "open" }]
    ∃ body, c.source {} = .ok (body ++ "\n") ∧ (∀ shorter, body ≠ shorter ++ "\n") ∧
      Tidy Char.isWhitespace (linesOf body) ∧
      linesOf body =
        ["# SPDX-License-Identifier: MIT", "", "%lang starknet", "",
          "from starkware.cairo.common.cairo_builtins import HashBuiltin",
          "from starkware.cairo.common.uint256 import Uint256", "",
          "from contracts.Vault import (", "    Vault_initializer,", "    Vault_open,", ")", "",
          "@constructor", "func constructor\x7b", "        syscall_ptr: felt*,",
          "        pedersen_ptr: HashBuiltin*,", "        range_check_ptr", "    \x7d(key: felt):",
          "    Vault_initializer(key)", "", "    log(key)", "    return ()", "end", "",
          "func run():", "    let x = 1", "    return ()", "end", "", "#", "# Externals", "#", "",
          "func open():", "    Vault_open()", "    return ()", "end"] := by
  intro c
  have hspace : ∀ ch, '!' ≤ ch → ch ≤ '~' → Char.isWhitespace ch = false := by
    intro ch hlow _
    simp only [Char.isWhitespace, Bool.or_eq_false_iff, decide_eq_false_iff_not]
    refine ⟨⟨⟨?_, ?_⟩, ?_⟩, ?_⟩ <;> (rintro rfl; exact absurd hlow (by decide))
  obtain ⟨text, h⟩ : ∃ text, c.source {} = .ok text := ⟨_, rfl⟩
  obtain ⟨body, calls, rfl, hend, htidy, hcalls, ⟨hlines, -⟩, -⟩ :=
    source_tidy hspace "Vault" (by decide) h
  obtain rfl : calls = ["Vault_initializer(key)"] := Except.ok.inj (hcalls.symm.trans rfl)
  refine ⟨body, h, hend, htidy, hlines.trans ?_⟩
  decide +kernel

end Contract

end CairoForge
