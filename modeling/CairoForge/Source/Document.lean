import CairoForge.Contract.Upgrading
import CairoForge.Source.Imports
import CairoForge.Source.Routine

/-!
# Printed source

The source of a contract as a document of sections, and the text of the document.
Only initializer arguments can keep a contract from being printed.

## Main definitions

* `Document` — the sections of the source.
* `Document.render` — the text.
* `Contract.document` — the document of a contract.
* `Contract.source` — the text of a contract.

A function stands in one of three parts: functions with code, then functions that
are only guarded, then those that only pass a call on.
-/

namespace CairoForge

/-- The source of a contract in sections. -/
structure Document where
  license : String
  imports : List ImportBlock
  tags : List Tag
  declarations : List String
  /-- None, a constructor, or a constructor and an initializer. -/
  constructors : List Routine
  withCode : List Routine
  guarded : List Routine
  passThrough : List Routine

namespace Document

/-- The imports of every contract. -/
def builtinImports : List String :=
  ["from starkware.cairo.common.cairo_builtins import HashBuiltin",
    "from starkware.cairo.common.uint256 import Uint256"]

/-- The lines of an import block. -/
def importLines (block : ImportBlock) : List Layout :=
  [.line ("from " ++ block.path ++ " import ("),
    .nested (Layout.lines (block.symbols.map (· ++ ","))),
    .line ")"]

/-- The line of a tag. -/
def tagLine (tag : Tag) : String :=
  "# " ++ tag.key ++ " " ++ tag.value

/-- What stands before the functions that only pass a call on. -/
def divider : List String := ["#", "# Externals", "#"]

/-- The sections in order, empty ones included. -/
def sections (d : Document) : List (List Layout) :=
  [Layout.lines ["# SPDX-License-Identifier: " ++ d.license],
    Layout.lines ["%lang starknet"],
    Layout.lines builtinImports,
    d.imports.flatMap importLines,
    Layout.lines (d.tags.map tagLine),
    Layout.lines d.declarations] ++
  d.constructors.map Routine.layout ++
  d.withCode.map Routine.layout ++
  d.guarded.map Routine.layout ++
  (if d.passThrough.isEmpty then [] else [Layout.lines divider]) ++
  d.passThrough.map Routine.layout

/-- The text of a document. -/
def render (d : Document) : String :=
  Layout.render (Layout.spaceBetween d.sections)

end Document

/-- A constructor or initializer. -/
def Routine.initializing (naming : Renaming) (annotations : List String) (name : String)
    (args : List Argument) (statements : List (List String)) : Routine where
  annotations := annotations
  name := name
  implicitArgs := Argument.implicits.map (Argument.render naming)
  args := args.map (Argument.render naming)
  statements := statements

namespace Parent

/-- The call of the initializer of a base module. -/
def initializerCall (p : Parent) : Except Refusal String := do
  let params ← p.params.mapM Value.render
  return p.base.initializerSymbol ++ "(" ++ Routine.commaSeparated params ++ ")"

end Parent

namespace Contract

/-- The statement that lets an upgradeable contract be initialized only once. -/
def onceGuard (c : Contract) : List String :=
  if c.upgradeable && c.hasParent initializableName then [initializeGuard] else []

/-- The initializer calls of the base modules as they are presented. -/
def initializerCalls (c : Contract) : Except Refusal (List String) :=
  (c.parents.filter (·.base.hasInitializer)).mapM Parent.initializerCall

/-- What initializes a contract: nothing, a constructor, or behind a proxy a
constructor that locks the implementation and an initializer for the proxy. -/
def constructors (c : Contract) (naming : Renaming) : Except Refusal (List Routine) := do
  if c.hasConstructor then
    let calls ← c.initializerCalls
    let statements := [c.onceGuard ++ calls, c.constructorCode]
    if c.upgradeable then
      return [
        .initializing naming
          ["# @custom:oz-upgrades-unsafe-allow constructor", "@constructor"] "constructor" []
          [c.onceGuard],
        .initializing naming ["@external"] "initializer" c.constructorArgs statements]
    else
      return [
        .initializing naming ["@constructor"] "constructor" c.constructorArgs statements]
  else
    return []

/-- The part of the source that a function stands in. -/
inductive Part where
  | withCode
  | guarded
  | passThrough
  deriving DecidableEq

/-- A function with code, or only guards, or neither. -/
def partOf (function : ContractFunction) : Part :=
  if !function.code.isEmpty then .withCode
  else if !function.modifiers.isEmpty then .guarded
  else .passThrough

/-- The routines of one part in order of first mention. -/
def routines (c : Contract) (naming : Renaming) (part : Part) : List Routine :=
  (c.functions.filter (partOf · == part)).map (ContractFunction.routine naming)

/-- The document of a contract. -/
def document (c : Contract) (naming : Renaming) : Except Refusal Document := do
  let constructors ← c.constructors naming
  return {
    license := c.license
    imports := c.importBlocks.map fun b => { b with path := naming.modulePath b.path }
    tags := c.tags
    declarations := c.declarations.map naming.declaration
    constructors := constructors
    withCode := c.routines naming .withCode
    guarded := c.routines naming .guarded
    passThrough := c.routines naming .passThrough }

/-- The source text of a contract. -/
def source (c : Contract) (naming : Renaming) : Except Refusal String :=
  (c.document naming).map Document.render

end Contract

end CairoForge
