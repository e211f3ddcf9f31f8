import CairoForge.Proofs.ExitCodes
import CairoForge.Proofs.SpelledFlags

/-!
# Routes to a contract

The options of a token reach the generator from the flags of a command line or from a file that
holds them as JSON, and the contract is written or the source of it hashed. Both ways lead to the
same options, and from there on to the same answer.

## Main results

* `asks_of_json` — the file of a request asks for its options.
* `answer_routes` — the routes agree.
-/

namespace CairoForge

variable {disk : Disk} {file : String} {o : TokenOptions} {asJson : Bool}

/-- The file of a request asks for its options, be the text compact or spread over lines. -/
theorem asks_of_json {invocation : Invocation} (hfile : invocation.file? = some file)
    (htext : disk file = .ok (Request.token o).json.compact.toUTF8 ∨
      disk file = .ok (Request.token o).json.pretty.toUTF8) :
    invocation.Asks disk o := by
  rcases htext with htext | htext
  · exact .file hfile htext (Request.ofText_compact .stepwise o)
  · exact .file hfile htext (Request.ofText_pretty .stepwise o)

/-- **The routes to a contract agree.** Whatever the options of a token are, the flags that spell
them, in any order, are answered like a file that holds them as JSON: with the same exit code, and
with the same text on the output and the error output, whether JSON is asked for or not. The command
that hashes the source has the same exit code too; unless it fails it writes the hash of what is
written for the file, and a line feed. -/
theorem answer_routes {flags : List Flag} (hflags : flags.Perm (o.flags asJson))
    {arguments : List String} (harguments : arguments.Perm (Invocation.operands file asJson))
    (hfile : IsOperand file)
    (htext : disk file = .ok (Request.token o).json.compact.toUTF8 ∨
      disk file = .ok (Request.token o).json.pretty.toUTF8) :
    answer ("erc20" :: flags.map Flag.argument) disk.files =
        answer ("generate" :: arguments) disk.files ∧
      (answer ["hash", file] disk.files).exitCode =
        (answer ("generate" :: arguments) disk.files).exitCode ∧
      ((answer ["hash", file] disk.files).exitCode = 0 →
        (answer ["hash", file] disk.files).output =
          Sha256.hexDigest (answer ["generate", file] disk.files).output ++ "\n") := by
  have hspelled := TokenOptions.ofArguments_flags hflags
  have hwritten := Invocation.ofArguments_operands hfile harguments
  have hsource : Invocation.ofArguments ["generate", file] = .ok (.generate file false) :=
    Invocation.ofArguments_operands hfile (.refl _)
  have hhash := Invocation.ofArguments_hash hfile
  have hread (asJson : Bool) : (Invocation.generate file asJson).Asks disk o :=
    asks_of_json rfl htext
  have hhashed : (Invocation.hash file).Asks disk o := asks_of_json rfl htext
  cases hvalidate : o.validate with
  | error refusal =>
    rw [answer_of_refused hspelled trivial .token hvalidate,
      answer_of_refused hwritten trivial (hread asJson) hvalidate,
      answer_of_refused hhash trivial hhashed hvalidate]
    exact ⟨rfl, rfl, fun hzero => absurd (show (1 : UInt32) = 0 from hzero) (by decide)⟩
  | ok _ =>
    obtain ⟨c, source, -, hbuild, hprinted, -⟩ := TokenOptions.exists_source hvalidate
    rw [answer_of_valid hspelled trivial .token hbuild hprinted,
      answer_of_valid hwritten trivial (hread asJson) hbuild hprinted,
      answer_of_valid hhash trivial hhashed hbuild hprinted,
      answer_of_valid hsource trivial (hread false) hbuild hprinted]
    cases asJson <;> exact ⟨rfl, rfl, fun _ => rfl⟩

/-- A token with a quoted name, spelled by its flags in the reverse order. -/
theorem answer_routes_of_quoted_name :
    let o : TokenOptions := { name := "Forge \"Coin\"", mintable := true }
    let disk : Disk := fun _ => .ok (Request.token o).json.pretty.toUTF8
    answer ["erc20", "--json", "--mintable", "--license=MIT", "--security-contact=",
          "--access=ownable", "--decimals=18", "--symbol=MTK", "--name=Forge \"Coin\""] disk.files =
        answer ["generate", "--json", "token.json"] disk.files ∧
      (answer ["hash", "token.json"] disk.files).exitCode =
        (answer ["generate", "--json", "token.json"] disk.files).exitCode := by
  intro o disk
  have hflags : (o.flags true).reverse.Perm (o.flags true) := List.reverse_perm _
  have harguments : ["--json", "token.json"].Perm (Invocation.operands "token.json" true) :=
    .swap _ _ _
  have htext : disk "token.json" = .ok (Request.token o).json.compact.toUTF8 ∨
      disk "token.json" = .ok (Request.token o).json.pretty.toUTF8 := .inr rfl
  have hroutes := answer_routes hflags harguments (by decide) htext
  have hspelled : (o.flags true).reverse.map Flag.argument =
      ["--json", "--mintable", "--license=MIT", "--security-contact=", "--access=ownable",
        "--decimals=18", "--symbol=MTK", "--name=Forge \"Coin\""] := by decide
  rw [hspelled] at hroutes
  exact ⟨hroutes.1, hroutes.2.1⟩

end CairoForge
