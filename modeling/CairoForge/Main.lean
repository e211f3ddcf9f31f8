import CairoForge.Command.Execution

/-!
# The program

Reads the one file that the arguments name, if they name one, and prints the answer.
-/

namespace CairoForge

/-- Reads a file as text. -/
def readText (file : String) : IO (Except FileError String) := do
  try
    return textOfBytes (← IO.FS.readBinFile file)
  catch
    | .noFileOrDirectory .. => return .error .missing
    | .inappropriateType .. => return .error .isDirectory
    | e => return .error (.other (toString e))

end CairoForge

open CairoForge in
/-- Answers to its arguments. -/
def main (arguments : List String) : IO UInt32 := do
  let file? :=
    match Invocation.ofArguments arguments with
    | .ok invocation => invocation.file?
    | .error _ => none
  let content ←
    match file? with
    | some file => readText file
    | none => pure (.error .missing)
  let a := answer arguments fun _ => content
  IO.print a.output
  IO.eprint a.errorText
  return a.exitCode
