import CairoForge.Proofs.PrintedFunctions
import CairoForge.Proofs.RelatedLists
import Mathlib.Algebra.GroupWithZero.Nat

/-!
# Rows and lines

A source is laid out in rows and read in lines. A row that holds a line feed is read as several
lines, so how many lines there are depends on the text in the rows. Two documents are compared row
by row, and then line by line as far as their rows break in the same places.

## Main definitions

* `linesOf` — the lines of a text.
* `Document.rows` — the rows of a document.
* `breaksIn` — how often rows break into new lines.
* `Document.Related` — documents that differ in a few places, and there by related rows.

## Main results

* `linesOf_textOfRows` — the lines of a text of rows are those of the rows.
* `length_linesOf_textOfRows` — how many lines they are.
* `forall₂_linesOf` — related rows with as many breaks are read as lines one by one.
* `Document.Related.forall₂_rows` — related documents have related rows.
* `Document.Related.breaksIn_rows` — they break alike but where they differ.
* `Document.exists_rows_concat` — the last row ends a routine.
-/

namespace CairoForge

/-! ## Lines of a text -/

/-- The lines of a text: what stands between line feeds. -/
def linesOf (text : String) : List String :=
  (text.toList.splitOn '\n').map String.ofList

/-- How often a text breaks into a new line. -/
def breaks (text : String) : Nat :=
  text.toList.count '\n'

theorem length_splitOn {α : Type} [BEq α] [LawfulBEq α] (a : α) (l : List α) :
    (l.splitOn a).length = l.count a + 1 := by
  induction l with
  | nil => simp
  | cons b rest ih =>
    rw [List.splitOn_cons_eq_if_modifyHead, List.count_cons]
    split
    · rw [List.length_cons, ih]
    · rw [List.length_modifyHead, ih, Nat.add_zero]

theorem length_linesOf (text : String) : (linesOf text).length = breaks text + 1 := by
  rw [linesOf, List.length_map, length_splitOn, breaks]

theorem breaks_append (first second : String) :
    breaks (first ++ second) = breaks first + breaks second := by
  rw [breaks, String.toList_append, List.count_append]
  rfl

/-- Dots for slashes break no line. -/
theorem BaseModule.breaks_importPath_eq (base : BaseModule) :
    breaks base.importPath = breaks base.path := by
  rw [breaks, breaks, importPath, String.toList_map, List.count, List.countP_map]
  refine List.countP_congr fun ch _ => ?_
  by_cases hslash : ch = '/'
  · simp [hslash]
  · simp [hslash]

theorem toList_decimalText (n : Nat) : (decimalText n).toList = Nat.toDigits 10 n := by
  simp [decimalText, decimalDigits]

theorem isDigit_of_mem_decimalText {n : Nat} {c : Char} (h : c ∈ (decimalText n).toList) :
    c.isDigit = true := by
  rw [toList_decimalText] at h
  exact Nat.isDigit_of_mem_toDigits (by decide) (by decide) h

/-- A number stands in one line. -/
theorem breaks_decimalText (n : Nat) : breaks (decimalText n) = 0 :=
  List.count_eq_zero.mpr fun hbreak =>
    absurd (isDigit_of_mem_decimalText hbreak) (by decide)

/-- A line feed ends a line and starts another one. -/
theorem linesOf_append_break (first second : String) :
    linesOf (first ++ "\n" ++ second) = linesOf first ++ linesOf second := by
  rw [linesOf, String.toList_append, String.toList_append, List.append_assoc]
  change (List.splitOn '\n' (first.toList ++ '\n' :: second.toList)).map _ = _
  rw [List.splitOn_append_cons_self, List.map_append]
  rfl

/-- The text of rows, each ended by a line feed. -/
def textOfRows (rows : List String) : String :=
  "\n".intercalate rows ++ "\n"

/-- Rows behind others add their text. -/
theorem textOfRows_append {above below : List String} (habove : above ≠ []) (hbelow : below ≠ []) :
    textOfRows (above ++ below) = textOfRows above ++ textOfRows below := by
  rw [textOfRows, String.intercalate_append_of_ne_nil habove hbelow]
  simp only [textOfRows, String.append_assoc]

/-- Rows one below the other have the lines of the rows. -/
theorem linesOf_intercalate {rows : List String} (h : rows ≠ []) :
    linesOf ("\n".intercalate rows) = rows.flatMap linesOf := by
  induction rows with
  | nil => exact absurd rfl h
  | cons row rest ih =>
    cases rest with
    | nil => simp
    | cons next rest =>
      rw [String.intercalate_cons_cons, linesOf_append_break, ih (List.cons_ne_nil _ _)]
      rfl

/-- A text that ends with a line feed has an empty line behind it. -/
theorem linesOf_append_end (text : String) : linesOf (text ++ "\n") = linesOf text ++ [""] := by
  have hlast := linesOf_append_break text ""
  rwa [String.append_empty] at hlast

/-- **The lines of a text of rows** are those of the rows, and an empty one behind the last. -/
theorem linesOf_textOfRows {rows : List String} (h : rows ≠ []) :
    linesOf (textOfRows rows) = rows.flatMap linesOf ++ [""] := by
  rw [textOfRows, linesOf_append_end, linesOf_intercalate h]

theorem linesOf_of_breaks_eq_zero {text : String} (h : breaks text = 0) :
    linesOf text = [text] := by
  rw [linesOf, List.splitOn_eq_singleton (List.count_eq_zero.mp h), List.map_singleton,
    String.ofList_toList]

theorem flatMap_linesOf_of_unbroken {rows : List String} (h : ∀ row ∈ rows, breaks row = 0) :
    rows.flatMap linesOf = rows := by
  rw [List.flatMap_congr fun row hrow => linesOf_of_breaks_eq_zero (h row hrow)]
  exact List.flatMap_singleton' rows

/-- How often rows break into new lines, all of them together. -/
def breaksIn (rows : List String) : Nat :=
  (rows.map breaks).sum

@[simp] theorem breaksIn_nil : breaksIn [] = 0 := rfl

@[simp] theorem breaksIn_cons (row : String) (rest : List String) :
    breaksIn (row :: rest) = breaks row + breaksIn rest := rfl

@[simp] theorem breaksIn_append (first second : List String) :
    breaksIn (first ++ second) = breaksIn first + breaksIn second := by
  simp only [breaksIn, List.map_append, List.sum_append]

/-- An indented row breaks where it did before. -/
theorem breaks_indentation (depth : Nat) (row : String) :
    breaks (Layout.indentation depth ++ row) = breaks row := by
  have hindentation : breaks (Layout.indentation depth) = 0 := by
    simp [breaks, Layout.indentation, List.count_replicate]
  rw [breaks_append, hindentation, Nat.zero_add]

theorem breaksIn_map_indentation (depth : Nat) (rows : List String) :
    breaksIn (rows.map (Layout.indentation depth ++ ·)) = breaksIn rows := by
  simp only [breaksIn, List.map_map, Function.comp_def, breaks_indentation]

/-- Empty groups add nothing. -/
theorem sum_map_filter_not_isEmpty {α : Type} {f : List α → Nat} (hempty : f [] = 0)
    (groups : List (List α)) :
    ((groups.filter (!·.isEmpty)).map f).sum = (groups.map f).sum := by
  induction groups with
  | nil => rfl
  | cons group rest ih => cases group <;> simp [ih, hempty]

/-- The blank rows between groups do not break. -/
theorem breaksIn_intercalate_blank (groups : List (List String)) :
    breaksIn ([""].intercalate groups) = (groups.map breaksIn).sum := by
  have hblank : breaksIn [""] = 0 := by decide
  induction groups with
  | nil => rfl
  | cons group rest ih =>
    cases rest with
    | nil => simp
    | cons next rest =>
      rw [List.intercalate_cons_cons, breaksIn_append, breaksIn_append, ih, hblank]
      simp

/-- **How many lines a text of rows has**: one for each row, one more wherever a row breaks, and an
empty one at the end. -/
theorem length_linesOf_textOfRows {rows : List String} (h : rows ≠ []) :
    (linesOf (textOfRows rows)).length = rows.length + breaksIn rows + 1 := by
  have hlines : ∀ rows : List String,
      (rows.flatMap linesOf).length = rows.length + breaksIn rows := by
    intro rows
    induction rows with
    | nil => rfl
    | cons row rest ih =>
      rw [List.flatMap_cons, List.length_append, ih, length_linesOf, breaksIn_cons,
        List.length_cons]
      omega
  rw [linesOf_textOfRows h, List.length_append, hlines, List.length_singleton]

/-- What is set apart ends with its last group. -/
theorem exists_intercalate_concat {α : Type} (separator : List α) (groups : List (List α))
    (last : List α) : ∃ before, separator.intercalate (groups ++ [last]) = before ++ last := by
  induction groups with
  | nil => exact ⟨[], List.intercalate_singleton⟩
  | cons group rest ih =>
    obtain ⟨before, hbefore⟩ := ih
    obtain ⟨next, rest, hnext⟩ := List.exists_cons_of_ne_nil
      (List.append_ne_nil_of_right_ne_nil rest (List.cons_ne_nil last []))
    refine ⟨group ++ separator ++ before, ?_⟩
    rw [List.cons_append, hnext, List.intercalate_cons_cons, ← hnext, hbefore]
    simp only [List.append_assoc]

/-- A text of rows ends with the last row and one line feed. -/
theorem exists_textOfRows_concat (rows : List String) (last : String) :
    ∃ before, textOfRows (rows ++ [last]) = before ++ (last ++ "\n") := by
  obtain ⟨before, hbefore⟩ :=
    exists_intercalate_concat "\n".toList (rows.map String.toList) last.toList
  have hinner : "\n".intercalate (rows ++ [last]) = String.ofList before ++ last := by
    rw [← String.toList_inj, String.toList_intercalate]
    simpa using hbefore
  exact ⟨String.ofList before, by rw [textOfRows, hinner, String.append_assoc]⟩

/-! ## Rows compared -/

/-- **Rows with as many breaks are read as lines one by one**: related rows are equal, or their
lines are paired. -/
theorem forall₂_linesOf {R : String → String → Prop} {rows rows' : List String} (hrows : rows ≠ [])
    (h : List.Forall₂ (fun row row' => row = row' ∨ R row row') rows rows')
    (hbreaks : ∀ row row', R row row' → breaks row = breaks row') :
    List.Forall₂
      (fun line line' => line = line' ∨
        ∃ row row', R row row' ∧ line ∈ linesOf row ∧ line' ∈ linesOf row')
      (linesOf (textOfRows rows)) (linesOf (textOfRows rows')) := by
  have hrows' : rows' ≠ [] := by
    rintro rfl
    exact hrows (List.forall₂_nil_right_iff.mp h)
  rw [linesOf_textOfRows hrows, linesOf_textOfRows hrows']
  refine List.rel_append (List.rel_flatMap h ?_) (.cons (.inl rfl) .nil)
  intro row row' hrow
  rcases hrow with rfl | hfree
  · exact forall₂_self (fun line => .inl rfl) _
  · -- as many breaks make as many lines, which can be paired
    have hlength : (linesOf row).length = (linesOf row').length := by
      rw [length_linesOf, length_linesOf, hbreaks row row' hfree]
    exact (forall₂_mem_of_length_eq hlength).imp fun line line' hmem =>
      .inr ⟨row, row', hfree, hmem⟩

/-! ## Documents compared -/

section

variable {R : String → String → Prop}

theorem Layout.rows_lines (texts : List String) : rows (lines texts) = texts := by
  have hindentation : (fun text => indentation 0 ++ text) = id :=
    funext fun _ => String.empty_append
  rw [rows, rowsAt_lines, hindentation, List.map_id]

/-- Groups set apart break as often as all groups together. -/
theorem Layout.breaksIn_rows_spaceBetween (groups : List (List Layout)) :
    breaksIn (rows (spaceBetween groups)) =
      (groups.map fun group => breaksIn (rows group)).sum := by
  rw [rows, rowsAt_spaceBetween, breaksIn_intercalate_blank, List.map_map]
  exact sum_map_filter_not_isEmpty rfl groups

/-- A routine breaks in its opening, in its statements and in what it returns. -/
theorem Routine.breaksIn_rows (r : Routine) :
    breaksIn (Layout.rows r.layout) =
      breaksIn r.opening + (r.statements.map breaksIn).sum + breaks r.returnStatement := by
  have hend : breaksIn ["end"] = 0 := by decide
  have hreturn := breaksIn_map_indentation 1 [r.returnStatement]
  rw [List.map_singleton] at hreturn
  simp only [rows_layout, breaksIn_append, breaksIn_intercalate_blank, List.map_map,
    Function.comp_def, breaksIn_map_indentation, sum_map_filter_not_isEmpty breaksIn_nil, hreturn,
    hend, breaksIn_cons, breaksIn_nil]
  omega

/-- Groups set apart have related rows when the groups have: the same groups are empty. -/
theorem Layout.forall₂_rows_spaceBetween (hblank : R "" "") {groups groups' : List (List Layout)}
    (h : List.Forall₂ (fun g g' => g.isEmpty = g'.isEmpty ∧ List.Forall₂ R (rows g) (rows g'))
      groups groups') :
    List.Forall₂ R (rows (spaceBetween groups)) (rows (spaceBetween groups')) := by
  rw [rows, rows, rowsAt_spaceBetween, rowsAt_spaceBetween]
  exact forall₂_intercalate (.cons hblank .nil)
    (List.rel_map (fun g g' hg => hg.2) (forall₂_filter_not_isEmpty h fun g g' hg => hg.1))

variable (hrefl : ∀ row, R row row)
include hrefl

/-- Routines that differ in statements only have related rows when their statements have. -/
theorem Routine.forall₂_rows {r r' : Routine} (hopening : r.opening = r'.opening)
    (hreturn : r.returnStatement = r'.returnStatement)
    (hstatements : List.Forall₂
      (List.Forall₂ fun s s' => R (Layout.indentation 1 ++ s) (Layout.indentation 1 ++ s'))
      r.statements r'.statements) :
    List.Forall₂ R (Layout.rows r.layout) (Layout.rows r'.layout) := by
  have hsame := forall₂_self hrefl
  rw [rows_layout, rows_layout, hopening, hreturn]
  refine List.rel_append (List.rel_append (hsame _) (List.rel_append ?_ (hsame _))) (hsame _)
  -- the same groups of statements are empty, so the blank rows stand in the same places
  refine forall₂_intercalate (hsame _) (List.rel_map ?_ (forall₂_filter_not_isEmpty hstatements ?_))
  · intro group group' hgroup
    change List.Forall₂ R (group.map (Layout.indentation 1 ++ ·))
      (group'.map (Layout.indentation 1 ++ ·))
    rwa [List.forall₂_map_left_iff, List.forall₂_map_right_iff]
  · exact fun group group' hgroup => isEmpty_eq_of_forall₂ hgroup

end

namespace Document

/-- The rows of a document. -/
def rows (d : Document) : List String :=
  Layout.rows (Layout.spaceBetween d.sections)

theorem render_eq_textOfRows (d : Document) : d.render = textOfRows d.rows := rfl

/-- Documents that differ in license, tags and what initializes the contract, there by related
rows. -/
structure Related (R : String → String → Prop) (d d' : Document) : Prop where
  license : R ("# SPDX-License-Identifier: " ++ d.license)
    ("# SPDX-License-Identifier: " ++ d'.license)
  imports : d.imports = d'.imports
  tags : List.Forall₂ (fun tag tag' => R (tagLine tag) (tagLine tag')) d.tags d'.tags
  declarations : d.declarations = d'.declarations
  constructors : List.Forall₂
    (fun r r' => List.Forall₂ R (Layout.rows r.layout) (Layout.rows r'.layout))
    d.constructors d'.constructors
  withCode : d.withCode = d'.withCode
  guarded : d.guarded = d'.guarded
  passThrough : d.passThrough = d'.passThrough

theorem Related.functionSections_eq {R : String → String → Prop} {d d' : Document}
    (h : d.Related R d') : d.functionSections = d'.functionSections := by
  rw [functionSections, functionSections, h.withCode, h.guarded, h.passThrough]

/-- **Related documents have related rows**, one by one. -/
theorem Related.forall₂_rows {R : String → String → Prop} (hrefl : ∀ row, R row row)
    {d d' : Document} (h : d.Related R d') : List.Forall₂ R d.rows d'.rows := by
  have hself : ∀ g : List Layout,
      g.isEmpty = g.isEmpty ∧ List.Forall₂ R (Layout.rows g) (Layout.rows g) := fun g =>
    ⟨rfl, forall₂_self hrefl _⟩
  have hlayout : ∀ r : Routine, r.layout.isEmpty = false := fun r => by
    simpa using layout_ne_nil r
  have htags : List.Forall₂ R (d.tags.map tagLine) (d'.tags.map tagLine) := by
    rw [List.forall₂_map_left_iff, List.forall₂_map_right_iff]
    exact h.tags
  refine Layout.forall₂_rows_spaceBetween (hrefl "") ?_
  rw [sections_eq, sections_eq, h.functionSections_eq, front, front, h.imports, h.declarations]
  refine List.rel_append (List.rel_append ?_ ?_) (forall₂_self hself _)
  · -- of the sections above what initializes the contract, license and tags may differ
    refine .cons ⟨rfl, .cons h.license .nil⟩
      (.cons (hself _) (.cons (hself _) (.cons (hself _) (.cons ⟨?_, ?_⟩ (.cons (hself _) .nil)))))
    · simpa only [Layout.lines, List.isEmpty_map] using isEmpty_eq_of_forall₂ h.tags
    · rwa [Layout.rows_lines, Layout.rows_lines]
  · refine List.rel_map ?_ h.constructors
    intro r r' hr
    exact ⟨(hlayout r).trans (hlayout r').symm, hr⟩

/-- How often the parts break that may differ between related documents. -/
def freeBreaks (d : Document) : Nat :=
  breaks d.license + breaksIn (d.tags.map tagLine) +
    (d.constructors.map fun r => breaksIn (Layout.rows r.layout)).sum

/-- **Related documents break alike** but for the parts in which they may differ. -/
theorem Related.breaksIn_rows {R : String → String → Prop} {d d' : Document} (h : d.Related R d') :
    breaksIn d.rows + d'.freeBreaks = breaksIn d'.rows + d.freeBreaks := by
  have hlicense : breaks "# SPDX-License-Identifier: " = 0 := by decide
  rw [rows, rows, Layout.breaksIn_rows_spaceBetween, Layout.breaksIn_rows_spaceBetween,
    sections_eq, sections_eq, h.functionSections_eq, front, front, h.imports, h.declarations]
  simp only [freeBreaks, List.map_append, List.map_cons, List.map_nil, List.sum_append,
    List.sum_cons, List.sum_nil, List.map_map, Function.comp_def, Layout.rows_lines, breaksIn_cons,
    breaksIn_nil, breaks_append, hlicense]
  omega

/-- The first row is the license, and the rows below it do not depend on it. -/
theorem rows_license (d : Document) :
    ∃ rest, ∀ license, { d with license }.rows =
      ("# SPDX-License-Identifier: " ++ license) :: rest := by
  have hfirst : ∀ groups : List (List String), ∃ rest, ∀ row : String,
      [""].intercalate ([row] :: groups) = row :: rest := by
    intro groups
    cases groups with
    | nil => exact ⟨[], fun row => List.intercalate_singleton⟩
    | cons group groups =>
      exact ⟨[""] ++ [""].intercalate (group :: groups), fun row => by
        rw [List.intercalate_cons_cons]
        rfl⟩
  obtain ⟨rest, hrest⟩ := hfirst ((d.sections.tail.filter (!·.isEmpty)).map Layout.rows)
  refine ⟨rest, fun license => ?_⟩
  rw [← hrest]
  exact Layout.rowsAt_spaceBetween 0 _

theorem rows_ne_nil (d : Document) : d.rows ≠ [] := by
  obtain ⟨rest, hrest⟩ := d.rows_license
  have hrows : d.rows = _ := hrest d.license
  rw [hrows]
  exact List.cons_ne_nil _ _

/-- If anything initializes the contract, the last section is a routine. -/
theorem exists_sections_concat {d : Document} (h : d.constructors ≠ []) :
    ∃ (before : List (List Layout)) (r : Routine), d.sections = before ++ [r.layout] := by
  have hlast : ∀ {routines : List Routine}, routines ≠ [] → ∃ (before : List (List Layout))
      (r : Routine), routines.map Routine.layout = before ++ [r.layout] := by
    intro routines hroutines
    refine ⟨routines.dropLast.map Routine.layout, routines.getLast hroutines, ?_⟩
    conv_lhs => rw [← List.dropLast_append_getLast hroutines, List.map_append, List.map_singleton]
  by_cases hpass : d.passThrough = []
  · have hsome : d.constructors ++ d.withCode ++ d.guarded ≠ [] := by simp [h]
    obtain ⟨before, r, hr⟩ := hlast hsome
    refine ⟨d.sections.take 6 ++ before, r, ?_⟩
    rw [List.append_assoc, ← hr]
    simp [sections, hpass]
  · obtain ⟨before, r, hr⟩ := hlast hpass
    rw [sections, hr, ← List.append_assoc]
    exact ⟨_, r, rfl⟩

/-- The last row ends a routine. -/
theorem exists_rows_concat {d : Document} (h : d.constructors ≠ []) :
    ∃ before, d.rows = before ++ ["end"] := by
  obtain ⟨sections, r, hsections⟩ := exists_sections_concat h
  have hkept : (d.sections.filter (!·.isEmpty)).map Layout.rows =
      (sections.filter (!·.isEmpty)).map Layout.rows ++ [Layout.rows r.layout] := by
    have hr : r.layout.isEmpty = false := by simpa using layout_ne_nil r
    rw [hsections, List.filter_append, List.map_append]
    simp [hr]
  have hrows : d.rows = [""].intercalate ((d.sections.filter (!·.isEmpty)).map Layout.rows) :=
    Layout.rowsAt_spaceBetween 0 _
  obtain ⟨before, hbefore⟩ := exists_intercalate_concat [""]
    ((sections.filter (!·.isEmpty)).map Layout.rows) (Layout.rows r.layout)
  rw [hrows, hkept, hbefore, r.rows_layout, ← List.append_assoc]
  exact ⟨_, rfl⟩

end Document

end CairoForge
