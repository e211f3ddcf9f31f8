/-!
# Help

What the program tells about itself and its commands.

## Main definitions

* `programSummary` — the program in one line.
* `programHelp` — the text that is shown where help is asked for.
-/

namespace CairoForge

/-- What the program is, in one line. -/
def programSummary : String := "Cairo contract wizard - Command-line interface"

/-- The commands with a line about each. -/
def commandSummaries : List (String × String) :=
  [("erc20", "Generate an ERC20 token from command-line flags"),
    ("generate", "Generate a contract from a JSON options file"),
    ("hash", "Compute the SHA-256 of the Cairo source generated from an options file"),
    ("version", "Show version information"),
    ("help", "Print this message or the help of the given subcommand(s)")]

/-- The flags that stand before a command, with a line about each. -/
def flagSummaries : List (String × String) :=
  [("-h, --help", "Print help"), ("-V, --version", "Print version")]

/-- Names and explanations in two columns. -/
def columns (rows : List (String × String)) : List String :=
  let width := (rows.map (·.1.length)).foldl max 0
  rows.map fun row =>
    "  " ++ row.1 ++ String.ofList (List.replicate (width - row.1.length + 2) ' ') ++ row.2

/-- The program, its commands and its flags. -/
def programHelp : String :=
  "\n".intercalate
    ([programSummary, "", "Usage: wizard-cli <COMMAND>", "", "Commands:"] ++
      columns commandSummaries ++ ["", "Options:"] ++ columns flagSummaries) ++ "\n"

end CairoForge
