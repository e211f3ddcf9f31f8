import CairoForge.Command.Help
import CairoForge.Text.Plain

/-!
# Arguments of a command

The arguments that follow a command: switches, options with a value and at most one
operand, in any order. An option takes its value from behind an equals sign or from
the next argument; what it collected is settled when something else comes up.

## Main definitions

* `UsageError` — what is wrong with the arguments, and its wording.
* `Grammar` — the arguments that a command knows.
* `Bindings` — the arguments as they were given.
* `Grammar.bind` — reads arguments.

Settling checks that there is a value, then that the option is not given twice,
then the value itself. An argument that the command does not know is reported even
if an option before it is still to be settled. Where help is asked for, nothing behind
that point is read.
-/

namespace CairoForge

/-- What is wrong with the arguments. -/
inductive UsageError where
  | unknownArgument (argument : String)
  | unknownCommand (name : String)
  | repeated (option : String)
  | missingValue (option : String)
  | excessValue (value option : String)
  | invalidValue (value option reason : String)
  | missingOperand
  /-- No arguments at all: help is shown in place of an error. -/
  | summary
  deriving DecidableEq

namespace UsageError

/-- What stands behind the sentence of an error, up to the flag that it refers to. -/
def hint : String := "\n\nFor more information, try '"

/-- The words of an error, cut where the highlighting of a word starts or ends. -/
def runs : UsageError → List String
  | unknownArgument argument => ["unexpected argument '", argument, "' found" ++ hint]
  | unknownCommand name => ["unrecognized subcommand '", name, "'" ++ hint]
  | repeated option => ["the argument '", option, "' cannot be used multiple times" ++ hint]
  | missingValue option =>
    ["a value is required for '", option, "' but none was supplied" ++ hint]
  | excessValue value option =>
    ["unexpected value '", value, "' for '", option, "' found; no more were expected" ++ hint]
  | invalidValue value option reason =>
    ["invalid value '", value, "' for '", option, "': " ++ reason ++ hint]
  | missingOperand =>
    ["the following required arguments were not provided:\n  ", "<FILE>", hint]
  | summary => []

/-- The text of an error without the usage of the command. A control sequence in an
argument ends with its run at the latest. -/
def text : UsageError → String
  | summary => programHelp
  | e => "error: " ++ String.join (e.runs.map plainText) ++ "--help'.\n"

end UsageError

/-- An argument with a value: an option, or the operand. -/
structure ValueArgument where
  name : String
  /-- How messages show it. -/
  label : String
  /-- What is wrong with a value. -/
  problem? : String → Option UsageError := fun _ => none

/-- The arguments that a command knows. -/
structure Grammar where
  switches : List String
  options : List ValueArgument
  operand? : Option ValueArgument

/-- An argument whose value is collected and not settled yet. -/
structure Pending where
  argument : ValueArgument
  value? : Option String

/-- The arguments as they were given. -/
structure Bindings where
  switches : List String := []
  values : List (String × String) := []
  pending? : Option Pending := none
  /-- Was the operand given, settled or not? -/
  hasOperand : Bool := false
  /-- Was help asked for? -/
  wantsHelp : Bool := false

namespace Bindings

/-- The value of an option or operand. -/
def value? (b : Bindings) (name : String) : Option String :=
  b.values.lookup name

/-- Was the switch given? -/
def hasSwitch (b : Bindings) (name : String) : Bool :=
  b.switches.contains name

/-- Settles a value. -/
def settleValue (b : Bindings) (argument : ValueArgument) (value : String) :
    Except UsageError Bindings :=
  if (b.value? argument.name).isSome then .error (.repeated argument.label)
  else
    match argument.problem? value with
    | some problem => .error problem
    | none =>
      .ok { b with values := b.values ++ [(argument.name, value)], pending? := none }

/-- Settles what is pending. -/
def settle (b : Bindings) : Except UsageError Bindings :=
  match b.pending? with
  | none => .ok b
  | some ⟨argument, none⟩ => .error (.missingValue argument.label)
  | some ⟨argument, some value⟩ => b.settleValue argument value

/-- A switch is given. -/
def giveSwitch (b : Bindings) (name : String) : Except UsageError Bindings := do
  let b ← b.settle
  if b.hasSwitch name then .error (.repeated ("--" ++ name))
  else .ok { b with switches := b.switches ++ [name] }

/-- An option is given, with its value or without. -/
def giveOption (b : Bindings) (argument : ValueArgument) (value? : Option String) :
    Except UsageError Bindings := do
  let b ← b.settle
  match value? with
  | some value => b.settleValue argument value
  | none => .ok { b with pending? := some ⟨argument, none⟩ }

/-- Help is asked for. -/
def askHelp (b : Bindings) : Except UsageError Bindings := do
  let b ← b.settle
  .ok { b with wantsHelp := true }

/-- The operand is given. -/
def giveOperand (b : Bindings) (argument : ValueArgument) (value : String) :
    Except UsageError Bindings := do
  let b ← b.settle
  .ok { b with pending? := some ⟨argument, some value⟩, hasOperand := true }

end Bindings

/-- An argument by its form. -/
inductive ArgumentForm where
  /-- Two hyphens alone: everything behind them is an operand. -/
  | escape
  /-- A long name, with the value behind an equals sign. -/
  | long (name : String) (value? : Option String)
  /-- Letters behind one hyphen. -/
  | short (first : Char)
  /-- Anything else. -/
  | plain
  deriving DecidableEq

/-- The name and value of what stands behind two hyphens. -/
def splitAtEquals (cs : List Char) : String × Option String :=
  let name := cs.takeWhile (· ≠ '=')
  match cs.drop name.length with
  | _ :: value => (String.ofList name, some (String.ofList value))
  | [] => (String.ofList name, none)

/-- The form of an argument. -/
def ArgumentForm.of (argument : String) : ArgumentForm :=
  match argument.toList with
  | ['-', '-'] => .escape
  | '-' :: '-' :: rest => .long (splitAtEquals rest).1 (splitAtEquals rest).2
  | '-' :: first :: _ => .short first
  | _ => .plain

namespace Grammar

/-- A long name that is not `help`, with its value. -/
def bindLong (g : Grammar) (b : Bindings) (name : String) (value? : Option String) :
    Except UsageError Bindings :=
  match g.options.find? (·.name == name) with
  | some option => b.giveOption option value?
  | none =>
    if g.switches.contains name then
      match value? with
      | some value => .error (.excessValue value ("--" ++ name))
      | none => b.giveSwitch name
    else .error (.unknownArgument ("--" ++ name))

/-- An argument that is no option: the value that an option waits for, or the
operand. -/
def bindPlain (g : Grammar) (b : Bindings) (argument : String) : Except UsageError Bindings :=
  match g.operand?, b.hasOperand with
  | some operand, false => b.giveOperand operand argument
  | _, _ => .error (.unknownArgument argument)

/-- Reads arguments behind two hyphens. -/
def bindOperands (g : Grammar) (b : Bindings) : List String → Except UsageError Bindings
  | [] => b.settle
  | argument :: rest => do
    let b ← g.bindPlain b argument
    g.bindOperands b rest

/-- Reads arguments. -/
def bindFrom (g : Grammar) (b : Bindings) : List String → Except UsageError Bindings
  | [] => b.settle
  | argument :: rest =>
    match ArgumentForm.of argument with
    | .escape => g.bindOperands b rest
    | .long "help" none => b.askHelp
    | .long "help" (some value) => .error (.excessValue value "--help")
    | .long name value? => do
      let b ← g.bindLong b name value?
      g.bindFrom b rest
    | .short 'h' => b.askHelp
    | .short first => .error (.unknownArgument (String.ofList ['-', first]))
    | .plain =>
      match b.pending? with
      | some ⟨option, none⟩ =>
        g.bindFrom { b with pending? := some ⟨option, some argument⟩ } rest
      | _ => do
        let b ← g.bindPlain b argument
        g.bindFrom b rest

/-- Reads the arguments of a command. -/
def bind (g : Grammar) (arguments : List String) : Except UsageError Bindings := do
  let b ← g.bindFrom {} arguments
  if g.operand?.isSome && !b.hasOperand && !b.wantsHelp then .error .missingOperand
  else .ok b

end Grammar

end CairoForge
