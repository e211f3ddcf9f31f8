import CairoForge.Command.Invocation
import CairoForge.Request
import CairoForge.Sha256

/-!
# Execution

What the program answers to its arguments, given the files that it may read: an exit
code, what goes to the output, and what goes to the error output. Nothing is written
to the output unless the exit code is zero.

The error output is that of a program that was not asked to log: log lines, which the
environment may ask for, are left out. So is the place of a decoding error in its text,
which is not computed here; `Failure.textAt` words errors around a given one.

## Main definitions

* `FileError` — why a file cannot be read.
* `Failure` — why there is nothing to write.
* `Failure.textAt`, `Failure.text` — how this is told, with and without a place.
* `Invocation.execute` — what an invocation writes.
* `perform` — what is written for arguments.
* `answer` — the answer to arguments.
-/

namespace CairoForge

/-- Why a file cannot be read as text. -/
inductive FileError where
  | missing
  | isDirectory
  | notText
  /-- Any other reason that the system gives. -/
  | other (reason : String)
  deriving DecidableEq

/-- The wording of a reason. -/
def FileError.message : FileError → String
  | missing => "No such file or directory (os error 2)"
  | isDirectory => "Is a directory (os error 21)"
  | notText => "stream did not contain valid UTF-8"
  | other reason => reason

/-- Files by name. -/
abbrev Files := String → Except FileError String

/-- The text in the bytes of a file. -/
def textOfBytes (bytes : ByteArray) : Except FileError String :=
  match String.fromUTF8? bytes with
  | some text => .ok text
  | none => .error .notText

/-- The version of the program. -/
def version : String := "0.1.0"

/-- The name of the program. -/
def programName : String := "wizard"

/-- The name of its library. -/
def libraryName : String := "wizard-core"

/-- The contract of a request as source or as JSON. -/
def Request.emit (request : Request) (asJson : Bool) : Except Refusal String := do
  let c ← request.build
  if asJson then return c.json.pretty ++ "\n" else c.source {}

/-- The hash of the source of a request. -/
def Request.sourceHash (request : Request) : Except Refusal String := do
  return Sha256.hexDigest (← request.source)

/-- Why there is nothing to write. -/
inductive Failure where
  /-- The arguments make no sense. -/
  | usage (e : UsageError)
  /-- The file cannot be read. -/
  | unreadable (file : String) (e : FileError)
  /-- The text of the file is no request. -/
  | undecodable (file : String) (e : DecodeError)
  /-- The request is turned down. -/
  | refused (refusal : Refusal)

namespace Failure

/-- The exit code tells misuse from a request that is wrong. -/
def exitCode : Failure → UInt32
  | usage _ | unreadable .. => 2
  | undecodable .. | refused _ => 1

/-- What goes to the error output, where `place` is the place of a decoding error. -/
def textAt (place : String) : Failure → String
  | usage e => e.text
  | unreadable file e => "error: cannot read " ++ file ++ ": " ++ e.message ++ "\n"
  | undecodable file e => "error: " ++ file ++ ": " ++ e.messageAt place ++ "\n"
  | refused refusal => "error: " ++ refusal.message ++ "\n"

/-- What goes to the error output, without the place of a decoding error. -/
def text (failure : Failure) : String :=
  failure.textAt ""

end Failure

namespace Invocation

/-- The request in a file. The numbers of files are rounded step by step. -/
def readRequest (files : Files) (file : String) : Except Failure Request := do
  let text ← (files file).mapError (.unreadable file)
  (Request.ofText .stepwise text).mapError (.undecodable file)

/-- What an invocation writes. -/
def execute (files : Files) : Invocation → Except Failure String
  | token options asJson => ((Request.token options).emit asJson).mapError .refused
  | generate file asJson => do
    let request ← readRequest files file
    (request.emit asJson).mapError .refused
  | hash file => do
    let request ← readRequest files file
    return (← request.sourceHash.mapError .refused) ++ "\n"
  | versions =>
    return programName ++ " " ++ CairoForge.version ++ " (" ++ libraryName ++ " " ++
      CairoForge.version ++ ")\n"
  | version => return programName ++ " " ++ CairoForge.version ++ "\n"
  | help => return programHelp

/-- The file that an invocation reads. -/
def file? : Invocation → Option String
  | generate file _ => some file
  | hash file => some file
  | _ => none

end Invocation

/-- What is written for the arguments of the program. -/
def perform (arguments : List String) (files : Files) : Except Failure String := do
  let invocation ← (Invocation.ofArguments arguments).mapError .usage
  invocation.execute files

/-- What the program answers. -/
structure Answer where
  exitCode : UInt32
  output : String
  errorText : String
  deriving DecidableEq

/-- The answer that writes a text, or tells why there is none. -/
def Answer.ofResult : Except Failure String → Answer
  | .ok text => ⟨0, text, ""⟩
  | .error failure => ⟨failure.exitCode, "", failure.text⟩

/-- The answer to the arguments of the program, when it is not asked to log. -/
def answer (arguments : List String) (files : Files) : Answer :=
  .ofResult (perform arguments files)

end CairoForge
