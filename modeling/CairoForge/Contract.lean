import CairoForge.BaseModule
import CairoForge.Function
import CairoForge.Identifier
import CairoForge.Registry

/-!
# Contracts

A contract under construction: its base modules, functions and variables, each
kept in the order in which it first came in, and what else its source needs.

## Main definitions

* `Contract` — the contract, and `Contract.new`, the empty one.
* `Contract.parents` — the base modules as they are presented.
* `Contract.addParent`, `Contract.addFunction`, `Contract.addVariable`, … — the
  operations that build a contract.
* `Contract.same` — equality of contracts as they are presented.

## Main results

* `Contract.hasParent_addParent`, `Contract.function?_addModifier`,
  `Contract.declarations_addVariable` — what the views show after an operation.

Base modules are kept by name and the last addition of a name wins, in the place
of the first. Functions are kept by signature and the first template of a
signature stays. Variables are kept by their text.
-/

namespace CairoForge

/-- A tag in the comments of a contract. -/
structure Tag where
  key : String
  value : String
  deriving DecidableEq

namespace Tag

/-- A key is an optional `@custom:`, a lower case letter and then lower case
letters and hyphens. -/
def isValidKey (key : String) : Bool :=
  let chars := key.toList
  let custom := "@custom:".toList
  let stem := if custom.isPrefixOf chars then chars.drop custom.length else chars
  match stem with
  | [] => false
  | first :: rest => first.isLower && rest.all fun c => c.isLower || c == '-'

end Tag

/-- A contract under construction. -/
structure Contract where
  name : String
  license : String := "MIT"
  upgradeable : Bool := false
  attachments : List Attachment := []
  tags : List Tag := []
  constructorArgs : List Argument := []
  constructorCode : List String := []
  /-- Base modules by name. -/
  parentRegistry : Registry Parent (·.base.name) := .empty
  /-- Functions by signature. -/
  functionRegistry : Registry ContractFunction ContractFunction.signature := .empty
  /-- Variables by their text. -/
  variableRegistry : Registry String id := .empty

namespace Contract

/-- The name of the base module whose guard runs before every initializer. -/
def initializableName : String := "Initializable"

/-- The empty contract, named by the identifier of a text. -/
def new (title : String) : Contract where
  name := identifier title true

/-! ## Views -/

/-- The base modules as they are presented: the one named `initializableName`
first, the others in order of their first addition. -/
def parents (c : Contract) : List Parent :=
  let (first, others) := c.parentRegistry.toList.partition (·.base.name == initializableName)
  first ++ others

/-- Was a base module of this name added? -/
def hasParent (c : Contract) (name : String) : Bool :=
  c.parentRegistry.contains name

/-- The functions in order of first mention. -/
def functions (c : Contract) : List ContractFunction :=
  c.functionRegistry.toList

/-- The function that a template stands for, if it was mentioned. -/
def function? (c : Contract) (template : FunctionTemplate) : Option ContractFunction :=
  c.functionRegistry.find? template.signature

/-- The declarations of variables in order of first mention. -/
def declarations (c : Contract) : List String :=
  c.variableRegistry.toList

/-- The paths of the base modules as presented, then those of attached libraries. -/
def imports (c : Contract) : List String :=
  c.parents.map (·.base.path) ++ c.attachments.map (·.library.path)

/-- Two contracts are the same when every part is, as it is presented. -/
def same (a b : Contract) : Bool :=
  a.name == b.name && a.license == b.license && a.upgradeable == b.upgradeable &&
    a.attachments == b.attachments && a.tags == b.tags &&
    a.constructorArgs == b.constructorArgs && a.constructorCode == b.constructorCode &&
    a.parents == b.parents && a.functions == b.functions && a.declarations == b.declarations

instance : BEq Contract := ⟨same⟩

/-! ## Operations that always succeed -/

/-- Replace the license. -/
def setLicense (c : Contract) (license : String) : Contract :=
  { c with license }

/-- Say whether the contract stands behind a proxy. -/
def setUpgradeable (c : Contract) (upgradeable : Bool) : Contract :=
  { c with upgradeable }

/-- Add a base module, or replace the one of this name in its place. Tells whether
the name is new. -/
def addParent (c : Contract) (base : BaseModule) (params : List Value) : Bool × Contract :=
  (!c.hasParent base.name, { c with parentRegistry := c.parentRegistry.put ⟨base, params⟩ })

/-- Attach a library to a type. -/
def addAttachment (c : Contract) (library : BaseModule) (target : String) : Contract :=
  { c with attachments := c.attachments ++ [⟨library, target⟩] }

/-- The function that a template stands for, fresh if it was not mentioned yet. -/
def functionOrFresh (c : Contract) (template : FunctionTemplate) : ContractFunction :=
  (c.function? template).getD { template }

/-- Write a function under its signature. -/
def putFunction (c : Contract) (function : ContractFunction) : Contract :=
  { c with functionRegistry := c.functionRegistry.put function }

/-- Mention a function. -/
def addFunction (c : Contract) (template : FunctionTemplate) : Contract :=
  c.putFunction (c.functionOrFresh template)

/-- Mention a function and attach a modifier to it. -/
def addModifier (c : Contract) (modifier : String) (template : FunctionTemplate) : Contract :=
  c.putFunction ((c.functionOrFresh template).attach modifier)

/-- One more argument of the constructor. -/
def addConstructorArg (c : Contract) (arg : Argument) : Contract :=
  { c with constructorArgs := c.constructorArgs ++ [arg] }

/-- One more statement of the constructor. -/
def addConstructorCode (c : Contract) (line : String) : Contract :=
  { c with constructorCode := c.constructorCode ++ [line] }

/-- Declare a variable by its text. Tells whether the text is new. -/
def addVariable (c : Contract) (declaration : String) : Bool × Contract :=
  (!c.variableRegistry.contains declaration,
    { c with variableRegistry := c.variableRegistry.put declaration })

/-! ## Views after operations -/

/-- A base module of a name is there once it was added. -/
theorem hasParent_addParent (c : Contract) (base : BaseModule) (params : List Value)
    (name : String) :
    (c.addParent base params).2.hasParent name = (base.name == name || c.hasParent name) :=
  c.parentRegistry.contains_put ⟨base, params⟩ name

/-- The function that a template stands for has the signature of the template. -/
theorem signature_functionOrFresh (c : Contract) (template : FunctionTemplate) :
    (c.functionOrFresh template).signature = template.signature := by
  unfold functionOrFresh
  cases h : c.function? template with
  | none => rfl
  | some function => exact Registry.key_eq_of_find?_eq_some h

/-- A written function is found by its signature, and no other one changes. -/
theorem function?_putFunction (c : Contract) (function : ContractFunction)
    (template : FunctionTemplate) :
    (c.putFunction function).function? template =
      if function.signature = template.signature then some function else c.function? template :=
  c.functionRegistry.find?_put function template.signature

/-- A modifier joins the function of its template and no other. -/
theorem function?_addModifier (c : Contract) (modifier : String)
    (guarded template : FunctionTemplate) :
    (c.addModifier modifier guarded).function? template =
      if guarded.signature = template.signature then
        some ((c.functionOrFresh guarded).attach modifier)
      else c.function? template := by
  have h : ((c.functionOrFresh guarded).attach modifier).signature = guarded.signature :=
    c.signature_functionOrFresh guarded
  simp only [addModifier, function?_putFunction, h]

/-- A variable is declared at the end unless its text is there already. -/
theorem declarations_addVariable (c : Contract) (declaration : String) :
    (c.addVariable declaration).2.declarations =
      if declaration ∈ c.declarations then c.declarations
      else c.declarations ++ [declaration] := by
  have hmem : c.variableRegistry.contains declaration = true ↔ declaration ∈ c.declarations := by
    simpa [Registry.keys, declarations] using c.variableRegistry.contains_iff_mem_keys declaration
  have hput := c.variableRegistry.keys_put declaration
  simp only [Registry.keys, List.map_id] at hput
  simp only [id, hmem] at hput
  exact hput

/-! ## Operations that can be refused -/

/-- What an operation leaves that can be refused: a refused operation may still
have mentioned the function that it is about. -/
structure Attempt where
  contract : Contract
  refusal? : Option Refusal := none

/-- Mention a function, then change it if the change is not refused. -/
def attemptOn (c : Contract) (template : FunctionTemplate)
    (change : ContractFunction → Except Refusal ContractFunction) : Attempt :=
  let function := c.functionOrFresh template
  match change function with
  | .ok changed => { contract := c.putFunction changed }
  | .error refusal => { contract := c.putFunction function, refusal? := some refusal }

/-- Append one statement to a function. -/
def addCode (c : Contract) (line : String) (template : FunctionTemplate) : Attempt :=
  c.attemptOn template (·.appendCode line)

/-- Set the body of a function as a whole. -/
def setBody (c : Contract) (lines : List String) (template : FunctionTemplate) : Attempt :=
  c.attemptOn template (·.setBody lines)

/-- Add a tag; a key that does not follow the grammar is refused. -/
def addTag (c : Contract) (key value : String) : Except Refusal Contract :=
  if Tag.isValidKey key then .ok { c with tags := c.tags ++ [⟨key, value⟩] }
  else .error (.invalidTagKey key)

end Contract

end CairoForge
