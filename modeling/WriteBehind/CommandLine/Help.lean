import WriteBehind.CommandLine.Arguments

/-!
# Help — the texts that explain the command line
-/

namespace WriteBehind
namespace CommandLine

/-- Lines of text, each with its end. -/
def linesText (lines : List String) : String := String.join (lines.map fun l => l ++ "\n")

/-- The name and the version of the program. -/
def versionText : String := "backstore 0.1.0\n"

/-- The help on the program. -/
def programHelp : String :=
  linesText [
    "Inspect write-behind persistence queue files",
    "",
    "Usage: backstore <COMMAND>",
    "",
    "Commands:",
    "  info    Show the header, backlog size and health of a queue file",
    "  dump    Print unread records as JSON lines, oldest first",
    "  config  Validate a persistence config file and print the effective settings",
    "  help    Print this message or the help of the given subcommand(s)",
    "",
    "Options:",
    "  -h, --help     Print help",
    "  -V, --version  Print version",
    "",
    "EXAMPLES",
    "  $ backstore info /var/lib/app/jobs.ring",
    "  $ backstore dump /var/lib/app/jobs.ring --limit 20",
    "  $ backstore config /etc/app/persistence.json",
    "",
    "  Set RUST_LOG=debug for diagnostic logging on stderr."]

/-- The help on the command that shows the health of a queue. -/
def infoHelp : String :=
  linesText [
    "Show the header, backlog size and health of a queue file",
    "",
    "Usage: backstore info [OPTIONS] <QUEUE>",
    "",
    "Arguments:",
    "  <QUEUE>  Queue file path",
    "",
    "Options:",
    "      --max-record-size <MAX_RECORD_SIZE>",
    "          Record size limit the queue was written with [default: 10240]",
    "  -h, --help",
    "          Print help"]

/-- The help on the command that lists records. -/
def dumpHelp : String :=
  linesText [
    "Print unread records as JSON lines, oldest first",
    "",
    "Usage: backstore dump [OPTIONS] <QUEUE>",
    "",
    "Arguments:",
    "  <QUEUE>  Queue file path",
    "",
    "Options:",
    "      --max-record-size <MAX_RECORD_SIZE>",
    "          Record size limit the queue was written with [default: 10240]",
    "      --limit <LIMIT>",
    "          Stop after this many records",
    "  -h, --help",
    "          Print help"]

/-- The help on the command that checks settings. -/
def configHelp : String :=
  linesText [
    "Validate a persistence config file and print the effective settings",
    "",
    "Usage: backstore config <FILE>",
    "",
    "Arguments:",
    "  <FILE>  JSON config path",
    "",
    "Options:",
    "  -h, --help  Print help"]

/-- The help on help. -/
def helpHelp : String :=
  linesText [
    "Print this message or the help of the given subcommand(s)",
    "",
    "Usage: backstore help [COMMAND]...",
    "",
    "Arguments:",
    "  [COMMAND]...  Print help for the subcommand(s)"]

/-- The help on a topic. -/
def helpText : Topic → String
  | .program => programHelp
  | .verb .info => infoHelp
  | .verb .dump => dumpHelp
  | .verb .config => configHelp
  | .help => helpHelp

end CommandLine
end WriteBehind
