import CairoForge.Command.Arguments
import CairoForge.Token.Options

/-!
# Invocations

What the program is asked to do by its arguments.

## Main definitions

* `Invocation` — the things that it can be asked to do.
* `Invocation.ofArguments` — the invocation that arguments stand for.
* `TokenOptions.ofBindings` — options of a token from arguments.
-/

namespace CairoForge

/-- What the program is asked to do. -/
inductive Invocation where
  /-- Write a token with options from the arguments. -/
  | token (options : TokenOptions) (asJson : Bool)
  /-- Write the contract that a file asks for. -/
  | generate (file : String) (asJson : Bool)
  /-- Hash the source of the contract that a file asks for. -/
  | hash (file : String)
  /-- Tell the versions of the program and of its library. -/
  | versions
  /-- Tell the version of the program. -/
  | version
  /-- Tell what the program can be asked to do. -/
  | help
  deriving DecidableEq

/-- What is wrong with the spelling of an integer. -/
inductive IntegerProblem where
  | noDigits
  | otherCharacter
  | tooLarge
  | tooSmall
  deriving DecidableEq

/-- The wording of a problem. -/
def IntegerProblem.message : IntegerProblem → String
  | noDigits => "cannot parse integer from empty string"
  | otherCharacter => "invalid digit found in string"
  | tooLarge => "number too large to fit in target type"
  | tooSmall => "number too small to fit in target type"

/-- Digits behind a sign. The first character that is no digit, or makes the number
larger than `limit`, is the problem. -/
def digitsBelow (limit : Nat) (overflow : IntegerProblem) (n : Nat) :
    List Char → Except IntegerProblem Nat
  | [] => .ok n
  | c :: rest =>
    if c.isDigit then
      let next := 10 * n + (c.toNat - '0'.toNat)
      if next ≤ limit then digitsBelow limit overflow next rest else .error overflow
    else .error .otherCharacter

/-- The largest integer of sixty-four bits. -/
def maxInteger : Nat := 0x7fffffffffffffff

/-- An integer of sixty-four bits with an optional sign. -/
def parseInteger (text : String) : Except IntegerProblem Int :=
  match text.toList with
  | [] => .error .noDigits
  | ['+'] | ['-'] => .error .otherCharacter
  | '+' :: ds => (digitsBelow maxInteger .tooLarge 0 ds).map Int.ofNat
  | '-' :: ds => (digitsBelow (maxInteger + 1) .tooSmall 0 ds).map fun n => -(n : Int)
  | ds => (digitsBelow maxInteger .tooLarge 0 ds).map Int.ofNat

/-- The spelling of an integer of eight bits, or what is wrong with it. -/
def parseByte (text : String) : Except String UInt8 :=
  match parseInteger text with
  | .error problem => .error problem.message
  | .ok n =>
    if 0 ≤ n ∧ n < 256 then .ok (UInt8.ofNat n.toNat)
    else .error (decimalText n ++ " is not in 0..=255")

/-- The word for an access mode, or what is wrong with it. -/
def parseAccess (word : String) : Except String AccessMode :=
  match AccessMode.ofName? word with
  | some mode => .ok mode
  | none => .error (AccessMode.unknownMessage word)

/-- An option whose value has to be understood. -/
def ValueArgument.parsed {α : Type} (name label : String) (parse : String → Except String α) :
    ValueArgument where
  name := name
  label := label
  problem? value :=
    match parse value with
    | .ok _ => none
    | .error reason => some (.invalidValue value label reason)

/-- The operand that names a file. -/
def ValueArgument.file : ValueArgument where
  name := "file"
  label := "<FILE>"
  problem? value := if value.isEmpty then some (.missingValue "<FILE>") else none

/-- What the arguments of a token can be. -/
def tokenGrammar : Grammar where
  switches := ["burnable", "snapshots", "pausable", "mintable", "permit", "votes", "flashmint",
    "upgradeable", "json"]
  options := [
    { name := "name", label := "--name <NAME>" },
    { name := "symbol", label := "--symbol <SYMBOL>" },
    .parsed "decimals" "--decimals <DECIMALS>" parseByte,
    .parsed "access" "--access <ACCESS>" parseAccess,
    { name := "security-contact", label := "--security-contact <SECURITY_CONTACT>" },
    { name := "license", label := "--license <LICENSE>" }]
  operand? := none

/-- The options of a token from its arguments; what is not given has its default. -/
def TokenOptions.ofBindings (b : Bindings) : TokenOptions :=
  let usual : TokenOptions := {}
  { name := (b.value? "name").getD usual.name
    symbol := (b.value? "symbol").getD usual.symbol
    decimals := ((b.value? "decimals").bind (parseByte · |>.toOption)).getD usual.decimals
    burnable := b.hasSwitch "burnable"
    snapshots := b.hasSwitch "snapshots"
    pausable := b.hasSwitch "pausable"
    mintable := b.hasSwitch "mintable"
    permit := b.hasSwitch "permit"
    votes := b.hasSwitch "votes"
    flashmint := b.hasSwitch "flashmint"
    shared :=
      { access := ((b.value? "access").bind (parseAccess · |>.toOption)).getD usual.shared.access
        upgradeable := b.hasSwitch "upgradeable"
        info :=
          { securityContact := (b.value? "security-contact").getD usual.shared.info.securityContact
            license := (b.value? "license").getD usual.shared.info.license } } }

/-- The commands. -/
inductive CommandName where
  | erc20
  | generate
  | hash
  | version
  deriving DecidableEq

namespace CommandName

/-- The command of a name. -/
def ofName? : String → Option CommandName
  | "erc20" => some .erc20
  | "generate" => some .generate
  | "hash" => some .hash
  | "version" => some .version
  | _ => none

/-- What the arguments of a command can be. -/
def grammar : CommandName → Grammar
  | erc20 => tokenGrammar
  | generate => { switches := ["json"], options := [], operand? := some .file }
  | hash => { switches := [], options := [], operand? := some .file }
  | version => { switches := [], options := [], operand? := none }

/-- What a command is asked to do by its arguments. -/
def invocation (name : CommandName) (b : Bindings) : Invocation :=
  let file := (b.value? ValueArgument.file.name).getD ""
  if b.wantsHelp then .help
  else
    match name with
    | erc20 => .token (TokenOptions.ofBindings b) (b.hasSwitch "json")
    | generate => .generate file (b.hasSwitch "json")
    | hash => .hash file
    | version => .versions

end CommandName

/-- The command that asks for help. -/
def helpName : String := "help"

/-- A first argument behind two hyphens: a command has to stand before them. -/
def misplacedCommand (argument : String) : UsageError :=
  if (CommandName.ofName? argument).isSome || argument == helpName then
    .unknownArgument argument
  else .unknownCommand argument

/-- Help for the command that is named behind the command that asks for it. No command
has commands of its own. -/
def helpFor : List String → Except UsageError Invocation
  | [] => .ok .help
  | name :: rest =>
    if (CommandName.ofName? name).isSome || name == helpName then
      match rest with
      | [] => .ok .help
      | name :: _ => .error (.unknownCommand name)
    else .error (.unknownCommand name)

/-- The invocation that the arguments of the program stand for. -/
def Invocation.ofArguments : List String → Except UsageError Invocation
  | [] => .error .summary
  | first :: rest =>
    match CommandName.ofName? first with
    | some name => return name.invocation (← name.grammar.bind rest)
    | none =>
      match ArgumentForm.of first with
      | .escape =>
        match rest with
        | [] => .error .summary
        | argument :: _ => .error (misplacedCommand argument)
      | .long "help" none => .ok .help
      | .long "help" (some value) => .error (.excessValue value "--help")
      | .long "version" none => .ok .version
      | .long "version" (some value) => .error (.excessValue value "--version")
      | .long name _ => .error (.unknownArgument ("--" ++ name))
      | .short 'h' => .ok .help
      | .short 'V' => .ok .version
      | .short letter => .error (.unknownArgument (String.ofList ['-', letter]))
      | .plain => if first = helpName then helpFor rest else .error (.unknownCommand first)

end CairoForge
