import CairoForge.Contract
import CairoForge.Layout
import CairoForge.Source.Renaming

/-!
# Routines of printed source

A routine is a function, constructor or initializer as it stands in the source:
its annotations, its head, its statements and what it returns.

## Main definitions

* `Routine` — the parts of a routine.
* `Routine.layout` — the lines of a routine.
* `ContractFunction.routine` — the routine of a function of a contract.
-/

namespace CairoForge

/-- A function, constructor or initializer as it stands in the source. -/
structure Routine where
  /-- Lines above the head. -/
  annotations : List String := []
  name : String
  /-- Arguments between braces, one a line. -/
  implicitArgs : List String := []
  args : List String := []
  returns? : Option (List String) := none
  /-- Statements in groups, with a blank line between groups. -/
  statements : List (List String) := []
  /-- What the last statement returns. -/
  results : List String := []

namespace Routine

/-- Items in one line, separated by commas. -/
def commaSeparated (items : List String) : String :=
  ", ".intercalate items

/-- The arguments and what is returned, up to the colon that ends the head. -/
def headEnd (r : Routine) : String :=
  "(" ++ commaSeparated r.args ++ ")" ++
    (match r.returns? with
      | some returns => " -> (" ++ commaSeparated returns ++ ")"
      | none => "") ++
    ":"

/-- Every item but the last with a comma behind it. -/
def withCommas : List String → List String
  | [] => []
  | [item] => [item]
  | item :: rest => (item ++ ",") :: withCommas rest

/-- The head: one line, or one line for each implicit argument between braces. -/
def head (r : Routine) : List Layout :=
  if r.implicitArgs.isEmpty then
    [.line ("func " ++ r.name ++ r.headEnd)]
  else
    [.line ("func " ++ r.name ++ "\x7b"),
      .nested [.nested (Layout.lines (withCommas r.implicitArgs))],
      .nested [.line ("\x7d" ++ r.headEnd)]]

/-- The last statement. -/
def returnStatement (r : Routine) : String :=
  "return (" ++ commaSeparated r.results ++ ")"

/-- The statements, the last one included. -/
def body (r : Routine) : List Layout :=
  Layout.spaceBetween (r.statements.map Layout.lines) ++ [.line r.returnStatement]

/-- The lines of a routine. -/
def layout (r : Routine) : List Layout :=
  Layout.lines r.annotations ++ r.head ++ [.nested r.body, .line "end"]

end Routine

/-- Does the type belong to a library? Those start with a capital letter. -/
def isLibraryType (type : String) : Bool :=
  match type.toList with
  | first :: _ => first.isUpper
  | [] => false

/-- An argument with its type; library types are renamed. -/
def Argument.render (naming : Renaming) (arg : Argument) : String :=
  match arg.type? with
  | some type =>
    arg.name ++ ": " ++ (if isLibraryType type then naming.typeName type else type)
  | none => arg.name

namespace ContractFunction

/-- The call of the function of the same name in a base module. Its answer is bound
to the declared names when these are what the function returns. -/
def baseCall (template : FunctionTemplate) (base : String) : String :=
  let call := base ++ "_" ++ template.name ++ "(" ++
    Routine.commaSeparated (template.args.map (·.name)) ++ ")"
  match template.returns?, template.returnValue? with
  | some (first :: rest), none =>
    "let (" ++ Routine.commaSeparated ((first :: rest).map (·.name)) ++ ") = " ++ call
  | _, _ => call

/-- The statements of a function: its guards, the call of the base module, its code. -/
def statements (function : ContractFunction) : List String :=
  function.modifiers ++
    (function.template.base?.map (baseCall function.template)).toList ++ function.code

/-- What a function returns: a given value, else the declared names. -/
def results (template : FunctionTemplate) : List String :=
  match template.returnValue? with
  | some value => [value]
  | none => (template.returns?.getD []).map (·.name)

/-- The routine of a function. -/
def routine (naming : Renaming) (function : ContractFunction) : Routine :=
  let template := function.template
  { annotations := (template.kind?.map fun kind => "@" ++ kind.name).toList
    name := template.name
    implicitArgs := template.implicitArgs.map (Argument.render naming)
    args := template.args.map (Argument.render naming)
    returns? := template.returns?.map (·.map (Argument.render naming))
    statements := [function.statements]
    results := results template }

end ContractFunction

end CairoForge
