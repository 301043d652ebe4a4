/-
The texts that explain the command line.
-/
import ZoneKeeper.CommandLine

namespace ZoneKeeper.CommandLine

/-- The lines that explain all commands. -/
def generalHelp : List String :=
  ["Zone record reconciliation and change-audit engine for nameserver control APIs",
    "",
    "Usage: zonesync <COMMAND>",
    "",
    "Commands:",
    "  plan     Show the RRset batches an apply would send",
    "  apply    Apply desired records to a zone",
    "  history  Show the audit history",
    "  help     Print this message or the help of the given subcommand(s)",
    "",
    "Options:",
    "  -h, --help     Print help",
    "  -V, --version  Print version"]

/-- The lines that explain a command of which the first line and the word are given, and that
takes the options of a run. -/
def runHelp (about word : String) : List String :=
  [about,
    "",
    s!"Usage: zonesync {word} [OPTIONS] --zone <ZONE> --records <RECORDS>",
    "",
    "Options:",
    "      --zone <ZONE>        Zone to modify",
    "      --records <RECORDS>  JSON or YAML file holding the complete desired record list",
    "      --actor <ACTOR>      Name recorded in the audit history [default: zonesync]",
    "      --serial <SERIAL>    Zone serial the records were based on; a mismatch aborts the apply",
    "      --print-metrics      Print Prometheus metrics after the command",
    "  -h, --help               Print help"]

/-- The lines that explain a command, or all of them. -/
def help : Option CommandWord → List String
  | some .plan => runHelp "Show the RRset batches an apply would send" "plan"
  | some .apply => runHelp "Apply desired records to a zone" "apply"
  | some .history =>
    ["Show the audit history",
      "",
      "Usage: zonesync history [OPTIONS]",
      "",
      "Options:",
      "      --zone <ZONE>   Only records of this zone",
      "      --name <NAME>   Only changes to this owner name (requires --type)",
      "      --type <RTYPE>  Only changes to this record type (requires --name)",
      "  -h, --help          Print help"]
  | some .help =>
    ["Print this message or the help of the given subcommand(s)",
      "",
      "Usage: zonesync help [COMMAND]...",
      "",
      "Arguments:",
      "  [COMMAND]...  Print help for the subcommand(s)"]
  | none => generalHelp

end ZoneKeeper.CommandLine
