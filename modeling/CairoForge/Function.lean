import CairoForge.Refusal

/-!
# Functions

A function of a contract starts from a template and collects guards and code.
Two templates with the same name and the same argument names stand for the same
function: they share a signature.

## Main definitions

* `FunctionTemplate` — the fixed part of a function.
* `FunctionTemplate.signature` — what identifies a function within a contract.
* `FunctionBody` — the states of a body.
* `ContractFunction` — a template with what was added to it.

## Main results

* `FunctionBody.append?_eq_none_iff`, `FunctionBody.fix?_eq_none_iff` — which
  bodies refuse a line, and which refuse to be set as a whole.
-/

namespace CairoForge

/-- How a function is exposed. -/
inductive FunctionKind where
  | view
  | external
  deriving DecidableEq

/-- The word for a kind. -/
def FunctionKind.name : FunctionKind → String
  | view => "view"
  | external => "external"

/-- An argument or a returned value. -/
structure Argument where
  name : String
  type? : Option String
  deriving DecidableEq

/-- The arguments that every entry point threads through. -/
def Argument.implicits : List Argument :=
  [⟨"syscall_ptr", some "felt*"⟩, ⟨"pedersen_ptr", some "HashBuiltin*"⟩,
    ⟨"range_check_ptr", none⟩]

/-- The fixed part of a function. -/
structure FunctionTemplate where
  /-- The base module whose function of the same name is called. -/
  base? : Option String := none
  name : String
  implicitArgs : List Argument := []
  args : List Argument := []
  returns? : Option (List Argument) := none
  /-- What is returned instead of the declared names. -/
  returnValue? : Option String := none
  kind? : Option FunctionKind := none
  deriving DecidableEq

/-- The name and the names of the arguments in order. -/
def FunctionTemplate.signature (template : FunctionTemplate) : String :=
  template.name ++ "(" ++ ",".intercalate (template.args.map (·.name)) ++ ")"

/-- The code of a function. It is collected line by line or set once as a whole,
and once it is set nothing changes it. -/
inductive FunctionBody where
  | empty
  | accumulating (code : List String)
  | finalized (code : List String)
  deriving DecidableEq

namespace FunctionBody

/-- The lines of a body. -/
def code : FunctionBody → List String
  | empty => []
  | accumulating code => code
  | finalized code => code

/-- Was the body set as a whole? -/
def isFinal : FunctionBody → Bool
  | finalized _ => true
  | _ => false

/-- The word for the state of a body. -/
def stateName : FunctionBody → String
  | empty => "empty"
  | accumulating _ => "accumulating"
  | finalized _ => "finalized"

/-- One more line at the end. -/
def append? : FunctionBody → String → Option FunctionBody
  | empty, line => some (accumulating [line])
  | accumulating code, line => some (accumulating (code ++ [line]))
  | finalized _, _ => none

/-- The body set as a whole. -/
def fix? : FunctionBody → List String → Option FunctionBody
  | empty, lines => some (finalized lines)
  | _, _ => none

theorem append?_eq_none_iff {body : FunctionBody} {line : String} :
    body.append? line = none ↔ body.isFinal = true := by
  cases body <;> simp [append?, isFinal]

theorem fix?_eq_none_iff {body : FunctionBody} {lines : List String} :
    body.fix? lines = none ↔ body ≠ empty := by
  cases body <;> simp [fix?]

theorem code_append? {body after : FunctionBody} {line : String}
    (h : body.append? line = some after) : after.code = body.code ++ [line] := by
  cases body <;> simp_all [append?, code] <;> subst h <;> rfl

end FunctionBody

/-- A function of a contract with what was added to its template. -/
structure ContractFunction where
  template : FunctionTemplate
  /-- Statements that run before everything else, in order of attachment. -/
  modifiers : List String := []
  body : FunctionBody := .empty
  deriving DecidableEq

namespace ContractFunction

/-- What identifies the function within its contract. -/
def signature (function : ContractFunction) : String :=
  function.template.signature

/-- The lines of the body. -/
def code (function : ContractFunction) : List String :=
  function.body.code

/-- One more modifier behind those attached before. -/
def attach (function : ContractFunction) (modifier : String) : ContractFunction :=
  { function with modifiers := function.modifiers ++ [modifier] }

/-- One more line of code, refused once the body was set as a whole. -/
def appendCode (function : ContractFunction) (line : String) : Except Refusal ContractFunction :=
  match function.body.append? line with
  | some body => .ok { function with body }
  | none => .error (.functionFinalized function.template.name)

/-- The body as a whole, refused once there is a body. -/
def setBody (function : ContractFunction) (lines : List String) :
    Except Refusal ContractFunction :=
  match function.body.fix? lines with
  | some body => .ok { function with body }
  | none =>
    .error (if function.body.isFinal then .functionFinalized function.template.name
      else .functionHasCode function.template.name)

end ContractFunction

end CairoForge
