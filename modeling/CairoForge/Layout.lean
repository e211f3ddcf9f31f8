/-!
# Layout

Generated text is laid out as a tree of lines, blank separators and nested
blocks before it becomes text. Each level of nesting indents by four spaces; a
separator is never indented.

## Main definitions

* `Layout` — a line, a separator or a nested block.
* `Layout.rows` — the rows of text of a list of layouts.
* `Layout.render` — the rows, each ended by a newline.
* `Layout.spaceBetween` — groups joined by single separators.
-/

namespace CairoForge

/-- One piece of a laid out text. -/
inductive Layout where
  /-- A line of text, indented to its depth. -/
  | line (text : String)
  /-- An empty row. -/
  | blank
  /-- A block one level deeper than its surroundings. -/
  | nested (inner : List Layout)
  deriving BEq

namespace Layout

/-- The spaces put in front of a line at a given depth. -/
def indentation (depth : Nat) : String :=
  String.ofList (List.replicate (4 * depth) ' ')

mutual

/-- The rows of one piece at a given depth. -/
def rowsOf (depth : Nat) : Layout → List String
  | .line text => [indentation depth ++ text]
  | .blank => [""]
  | .nested inner => rowsAt (depth + 1) inner

/-- The rows of a list of pieces at a given depth, in order. -/
def rowsAt (depth : Nat) : List Layout → List String
  | [] => []
  | piece :: rest => rowsOf depth piece ++ rowsAt depth rest

end

/-- The rows of a document. -/
def rows (pieces : List Layout) : List String :=
  rowsAt 0 pieces

/-- The text of a document: its rows one below the other, ended by a newline. -/
def render (pieces : List Layout) : String :=
  "\n".intercalate (rows pieces) ++ "\n"

/-- Plain lines, one for each text. -/
def lines (texts : List String) : List Layout :=
  texts.map line

/-- The groups that are not empty, with one separator between each two. -/
def spaceBetween (groups : List (List Layout)) : List Layout :=
  [blank].intercalate (groups.filter (!·.isEmpty))

@[simp] theorem rowsAt_nil (depth : Nat) : rowsAt depth [] = [] := rfl

/-- The rows of two documents one after the other. -/
theorem rowsAt_append (depth : Nat) (a b : List Layout) :
    rowsAt depth (a ++ b) = rowsAt depth a ++ rowsAt depth b := by
  induction a with
  | nil => rfl
  | cons piece rest ih => simp [rowsAt, ih]

/-- The rows of groups with a separator between each two. -/
theorem rowsAt_intercalate_blank (depth : Nat) (groups : List (List Layout)) :
    rowsAt depth ([blank].intercalate groups) = [""].intercalate (groups.map (rowsAt depth)) := by
  induction groups with
  | nil => rfl
  | cons group rest ih =>
    cases rest with
    | nil => simp
    | cons next rest =>
      simp only [List.intercalate_cons_cons, List.map_cons, rowsAt_append] at ih ⊢
      rw [ih]
      rfl

/-- The rows of groups set apart: empty groups leave nothing, not even a separator. -/
theorem rowsAt_spaceBetween (depth : Nat) (groups : List (List Layout)) :
    rowsAt depth (spaceBetween groups) =
      [""].intercalate ((groups.filter (!·.isEmpty)).map (rowsAt depth)) :=
  rowsAt_intercalate_blank depth _

/-- Plain lines give one row each. -/
theorem rowsAt_lines (depth : Nat) (texts : List String) :
    rowsAt depth (lines texts) = texts.map (indentation depth ++ ·) := by
  induction texts with
  | nil => rfl
  | cons text rest ih => simpa [lines, rowsAt, rowsOf] using ih

end Layout

end CairoForge
