import CairoForge.Proofs.SourceLines
import Mathlib.Logic.Function.Iterate

/-!
# Layouts put together

A document is rendered piece by piece: documents one behind the other are rendered one behind the
other, groups set apart have one more newline between them, and a nested block is its inner text
with a margin. All of this needs documents that lay out something. A document without a leaf, such
as an empty one or a block around nothing, has no rows, and yet its text is a newline.

## Main definitions

* `Layout.HasLeaf`, `Layout.LaysOut` — a line or separator stands in a piece, in a document.
* `Layout.withMargin` — a document with a margin in front of each of its lines.

## Main results

* `Layout.rowsAt_ne_nil_iff` — documents have rows if a leaf stands in them.
* `Layout.render_append_iff` — which documents are rendered one behind the other.
* `Layout.rowsAt_add` — deeper rows are rows with a margin.
* `Layout.render_composes` — rendering of documents that are put together.
-/

namespace CairoForge

/-! ## Rows in groups -/

/-- An empty row between two groups is one more newline between their texts. -/
theorem textOfRows_intercalate {groups : List (List String)} (hsome : groups ≠ [])
    (h : ∀ group ∈ groups, group ≠ []) :
    textOfRows ([""].intercalate groups) = "\n".intercalate (groups.map textOfRows) := by
  induction groups with
  | nil => exact absurd rfl hsome
  | cons group rest ih =>
    obtain ⟨hgroup, hrest⟩ := List.forall_mem_cons.mp h
    cases rest with
    | nil => simp
    | cons next rest =>
      have hbelow : [""].intercalate (next :: rest) ≠ [] :=
        intercalate_cons_ne_nil (hrest next List.mem_cons_self)
      calc textOfRows ([""].intercalate (group :: next :: rest))
          = textOfRows (group ++ ([""] ++ [""].intercalate (next :: rest))) := by
            rw [List.intercalate_cons_cons, List.append_assoc]
        _ = textOfRows group ++ ("\n" ++ textOfRows ([""].intercalate (next :: rest))) := by
            rw [textOfRows_append hgroup (List.append_ne_nil_of_right_ne_nil _ hbelow),
              textOfRows_append (List.cons_ne_nil _ _) hbelow]
            rfl
        _ = "\n".intercalate ((group :: next :: rest).map textOfRows) := by
            rw [ih (List.cons_ne_nil _ _) hrest, List.map_cons, List.map_cons, List.map_cons,
              String.intercalate_cons_cons, String.append_assoc]

namespace Layout

variable {depth : Nat} {row : String} {piece : Layout} {pieces a b : List Layout}

/-! ## Leaves -/

/-- **A piece with a leaf**: a line or a separator stands in it, however deep. -/
inductive HasLeaf : Layout → Prop
  | line (text : String) : HasLeaf (.line text)
  | blank : HasLeaf .blank
  | nested {piece : Layout} {inner : List Layout} (hmem : piece ∈ inner) (h : HasLeaf piece) :
    HasLeaf (.nested inner)

/-- A document that lays out at least one leaf. -/
def LaysOut (pieces : List Layout) : Prop :=
  ∃ piece ∈ pieces, HasLeaf piece

theorem rowsAt_eq_flatMap (depth : Nat) (pieces : List Layout) :
    rowsAt depth pieces = pieces.flatMap (rowsOf depth) := by
  induction pieces with
  | nil => rfl
  | cons piece rest ih => rw [rowsAt, ih, List.flatMap_cons]

theorem HasLeaf.rowsOf_ne_nil (h : HasLeaf piece) (depth : Nat) : rowsOf depth piece ≠ [] := by
  induction h generalizing depth with
  | line text => exact List.cons_ne_nil _ _
  | blank => exact List.cons_ne_nil _ _
  | nested hmem _ ih =>
    intro hnone
    -- the rows of a block are those of its pieces one level deeper
    rw [rowsOf, rowsAt_eq_flatMap, List.flatMap_eq_nil_iff] at hnone
    exact ih (depth + 1) (hnone _ hmem)

mutual

theorem hasLeaf_of_mem_rowsOf : ∀ {piece : Layout} {depth : Nat}, row ∈ rowsOf depth piece →
    HasLeaf piece
  | .line text, _, _ => .line text
  | .blank, _, _ => .blank
  | .nested _, _, h =>
    have ⟨_, hmem, hleaf⟩ := laysOut_of_mem_rowsAt h
    .nested hmem hleaf

theorem laysOut_of_mem_rowsAt : ∀ {pieces : List Layout} {depth : Nat},
    row ∈ rowsAt depth pieces → LaysOut pieces
  | piece :: _, _, h =>
    match List.mem_append.mp h with
    | .inl hpiece => ⟨piece, List.mem_cons_self, hasLeaf_of_mem_rowsOf hpiece⟩
    | .inr hrest =>
      have ⟨other, hother, hleaf⟩ := laysOut_of_mem_rowsAt hrest
      ⟨other, List.mem_cons_of_mem piece hother, hleaf⟩

end

/-- **Documents have rows just if a leaf stands in them.** -/
theorem rowsAt_ne_nil_iff : rowsAt depth pieces ≠ [] ↔ LaysOut pieces := by
  constructor
  · intro h
    obtain ⟨row, hrow⟩ := List.exists_mem_of_ne_nil _ h
    exact laysOut_of_mem_rowsAt hrow
  · rintro ⟨piece, hmem, hleaf⟩ hnone
    rw [rowsAt_eq_flatMap, List.flatMap_eq_nil_iff] at hnone
    exact hleaf.rowsOf_ne_nil depth (hnone piece hmem)

theorem rowsAt_of_not_laysOut (h : ¬LaysOut pieces) : rowsAt depth pieces = [] :=
  not_ne_iff.mp (mt rowsAt_ne_nil_iff.mp h)

instance : DecidablePred LaysOut := fun pieces =>
  decidable_of_iff (rowsAt 0 pieces ≠ []) rowsAt_ne_nil_iff

example : ¬LaysOut [nested []] := by decide

theorem render_eq_textOfRows (pieces : List Layout) : render pieces = textOfRows (rows pieces) :=
  rfl

/-! ## Documents one behind the other -/

theorem render_append (ha : LaysOut a) (hb : LaysOut b) :
    render (a ++ b) = render a ++ render b := by
  simp only [render_eq_textOfRows, rows, rowsAt_append]
  exact textOfRows_append (rowsAt_ne_nil_iff.mpr ha) (rowsAt_ne_nil_iff.mpr hb)

/-- Where no leaf stands, there is still a newline. -/
theorem render_of_not_laysOut (h : ¬LaysOut pieces) : render pieces = "\n" := by
  rw [render, rows, rowsAt_of_not_laysOut h]
  rfl

/-- **Documents are rendered one behind the other** just if each of them lays out something: the
newline of an empty one would be there once too often. -/
theorem render_append_iff :
    render (a ++ b) = render a ++ render b ↔ LaysOut a ∧ LaysOut b := by
  have hnewline : "\n".length = 1 := rfl
  refine ⟨fun h => ⟨?_, ?_⟩, fun ⟨ha, hb⟩ => render_append ha hb⟩
  · by_contra ha
    -- without rows of `a` the text is that of `b`, and has no room for a newline in front of it
    have hsame : render (a ++ b) = render b := by
      rw [render, rows, rowsAt_append, rowsAt_of_not_laysOut ha, List.nil_append, render, rows]
    have hlength := congrArg String.length h
    rw [hsame, render_of_not_laysOut ha, String.length_append, hnewline] at hlength
    omega
  · by_contra hb
    have hsame : render (a ++ b) = render a := by
      rw [render, rows, rowsAt_append, rowsAt_of_not_laysOut hb, List.append_nil, render, rows]
    have hlength := congrArg String.length h
    rw [hsame, render_of_not_laysOut hb, String.length_append, hnewline] at hlength
    omega

/-- **Groups set apart** are rendered one behind the other, with one more newline between them. -/
theorem render_spaceBetween {groups : List (List Layout)}
    (h : ∀ group ∈ groups, group = [] ∨ LaysOut group) :
    render (spaceBetween groups) =
      if ∀ group ∈ groups, group = [] then "\n"
      else "\n".intercalate ((groups.filter (!·.isEmpty)).map render) := by
  rw [render_eq_textOfRows, rows, rowsAt_spaceBetween]
  by_cases hempty : ∀ group ∈ groups, group = []
  · have hnone : groups.filter (!·.isEmpty) = [] :=
      List.filter_eq_nil_iff.mpr fun group hgroup => by simp [hempty group hgroup]
    rw [if_pos hempty, hnone]
    rfl
  · have hkept : groups.filter (!·.isEmpty) ≠ [] := by
      intro hnone
      refine hempty fun group hgroup => ?_
      simpa using List.filter_eq_nil_iff.mp hnone group hgroup
    -- a group that is kept is not empty, and so it has rows to put a separator behind
    have hrows : ∀ lines ∈ (groups.filter (!·.isEmpty)).map (rowsAt 0), lines ≠ [] := by
      intro lines hlines
      obtain ⟨group, hgroup, rfl⟩ := List.mem_map.mp hlines
      obtain ⟨hmem, hfilled⟩ := List.mem_filter.mp hgroup
      have hlaysOut := (h group hmem).resolve_left (by simpa using hfilled)
      exact rowsAt_ne_nil_iff.mpr hlaysOut
    rw [if_neg hempty, textOfRows_intercalate (mt List.map_eq_nil_iff.mp hkept) hrows,
      List.map_map]
    rfl

/-! ## Nested blocks -/

mutual

/-- A piece with a margin in front of each of its lines; separators get none. -/
def marginOf (margin : String) : Layout → Layout
  | .line text => .line (margin ++ text)
  | .blank => .blank
  | .nested inner => .nested (withMargin margin inner)

/-- **A document with a margin** in front of each of its lines, however deep they stand. -/
def withMargin (margin : String) : List Layout → List Layout
  | [] => []
  | piece :: rest => marginOf margin piece :: withMargin margin rest

end

theorem indentation_add (depth more : Nat) :
    indentation (depth + more) = indentation depth ++ indentation more := by
  rw [indentation, Nat.mul_add, List.replicate_add, String.ofList_append]
  rfl

mutual

theorem rowsOf_add (depth more : Nat) : ∀ piece,
    rowsOf (depth + more) piece = rowsOf depth (marginOf (indentation more) piece)
  | .line text => by
    rw [rowsOf, marginOf, rowsOf, indentation_add, String.append_assoc]
  | .blank => rfl
  | .nested inner => by
    -- the level of the block goes in front of the margin, which stays with the lines
    rw [rowsOf, marginOf, rowsOf, Nat.add_right_comm]
    exact rowsAt_add (depth + 1) more inner

/-- **Deeper rows are rows with a margin.** -/
theorem rowsAt_add (depth more : Nat) : ∀ pieces,
    rowsAt (depth + more) pieces = rowsAt depth (withMargin (indentation more) pieces)
  | [] => rfl
  | piece :: rest => by
    rw [rowsAt, withMargin, rowsAt, rowsOf_add depth more piece, rowsAt_add depth more rest]

end

/-- Blocks around a document put its rows deeper. -/
theorem rowsAt_iterate_nested (times depth : Nat) (pieces : List Layout) :
    rowsAt depth ((fun inner => [nested inner])^[times] pieces) =
      rowsAt (depth + times) pieces := by
  induction times generalizing depth with
  | zero => rfl
  | succ times ih =>
    -- the outermost block puts all the others one level deeper
    rw [Function.iterate_succ_apply', rowsAt, rowsOf, rowsAt_nil, List.append_nil, ih,
      Nat.add_right_comm, Nat.add_assoc]

theorem render_iterate_nested (times : Nat) (pieces : List Layout) :
    render ((fun inner => [nested inner])^[times] pieces) =
      render (withMargin (indentation times) pieces) := by
  rw [render_eq_textOfRows, render_eq_textOfRows, rows, rows, rowsAt_iterate_nested, rowsAt_add]

/-- **Rendering of documents that are put together.** Groups that are empty or lay out something
are rendered one behind the other when they are set apart, with one more newline between each two
that are not empty; if all are empty, a newline is left. Two documents that lay out something are
rendered one behind the other as they are. A document in a block is rendered with four spaces in
front of each of its lines and none in front of its separators, and in several blocks with four
for each of them. -/
theorem render_composes :
    (∀ groups : List (List Layout), (∀ group ∈ groups, group = [] ∨ LaysOut group) →
      render (spaceBetween groups) =
        if ∀ group ∈ groups, group = [] then "\n"
        else "\n".intercalate ((groups.filter (!·.isEmpty)).map render)) ∧
    (∀ a b, LaysOut a → LaysOut b → render (a ++ b) = render a ++ render b) ∧
    (∀ a, render [nested a] = render (withMargin "    " a)) ∧
    ∀ times a, render ((fun inner => [nested inner])^[times] a) =
      render (withMargin (String.ofList (List.replicate (4 * times) ' ')) a) :=
  ⟨fun _ => render_spaceBetween, fun _ _ => render_append, render_iterate_nested 1,
    render_iterate_nested⟩

example : render (spaceBetween
    [[line "a"], [], [nested [line "b", blank, nested [line "c"]]]]) =
      "a\n\n    b\n\n        c\n" := by
  rfl

end Layout

end CairoForge
