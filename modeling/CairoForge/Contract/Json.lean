import CairoForge.Contract
import CairoForge.Json

/-!
# Contracts as JSON

Every part of a contract as a JSON value, base modules as they are presented.

## Main definitions

* `Contract.json` — a contract with everything in it.
* `Value.json`, `Parent.json`, `ContractFunction.json`, … — its parts.
-/

namespace CairoForge

/-- Texts and numbers stand for themselves, literals and notes for objects. -/
def Value.json : Value → Json
  | text content => .text content
  | number n => .number n
  | literal source => .object [("lit", .text source)]
  | note remark value => .object [("note", .text remark), ("value", value.json)]

/-- A base module. -/
def BaseModule.json (base : BaseModule) : Json :=
  .object [
    ("name", .text base.name),
    ("path", .text base.path),
    ("initializer", .text (if base.hasInitializer then "explicit" else "implicit")),
    ("symbols", .texts base.symbols)]

/-- A base module with the arguments of its initializer. -/
def Parent.json (p : Parent) : Json :=
  .object [("contract", p.base.json), ("params", .array (p.params.map Value.json))]

/-- A library attached to a type. -/
def Attachment.json (a : Attachment) : Json :=
  .object [("library", a.library.json), ("using_for", .text a.target)]

/-- A tag. -/
def Tag.json (tag : Tag) : Json :=
  .object [("key", .text tag.key), ("value", .text tag.value)]

/-- An argument; the type is left out where there is none. -/
def Argument.json (arg : Argument) : Json :=
  .object (("name", .text arg.name) ::
    match arg.type? with
    | some type => [("type", .text type)]
    | none => [])

/-- Arguments in order. -/
def Argument.listJson (args : List Argument) : Json :=
  .array (args.map Argument.json)

/-- The state of a body, with its lines unless it is empty. -/
def FunctionBody.json (body : FunctionBody) : Json :=
  .object (("state", .text body.stateName) ::
    if body = .empty then [] else [("code", .texts body.code)])

/-- A function: the parts of its template, then what was added to it. -/
def ContractFunction.json (function : ContractFunction) : Json :=
  let template := function.template
  .object [
    ("module", .orNull .text template.base?),
    ("name", .text template.name),
    ("implicit_args", Argument.listJson template.implicitArgs),
    ("args", Argument.listJson template.args),
    ("returns", .orNull Argument.listJson template.returns?),
    ("return_value", .orNull .text template.returnValue?),
    ("kind", .orNull (.text ·.name) template.kind?),
    ("modifiers", .texts function.modifiers),
    ("body", function.body.json)]

/-- A contract. -/
def Contract.json (c : Contract) : Json :=
  .object [
    ("name", .text c.name),
    ("license", .text c.license),
    ("upgradeable", .bool c.upgradeable),
    ("parents", .array (c.parents.map Parent.json)),
    ("using", .array (c.attachments.map Attachment.json)),
    ("imports", .texts c.imports),
    ("natspecTags", .array (c.tags.map Tag.json)),
    ("functions", .array (c.functions.map ContractFunction.json)),
    ("constructorArgs", Argument.listJson c.constructorArgs),
    ("constructorImplicitArgs", Argument.listJson Argument.implicits),
    ("constructorCode", .texts c.constructorCode),
    ("variables", .texts c.declarations)]

end CairoForge
