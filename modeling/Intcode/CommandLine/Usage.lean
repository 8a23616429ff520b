import Intcode.CommandLine.Options

/-!
# What the command says about itself

The usage, the help and the messages for arguments that it refuses.
-/

namespace Intcode.CommandLine

/-- Lines, each with its line feed. -/
def joinLines (lines : List String) : String := String.join (lines.map (· ++ "\n"))

/-- How the command is used. -/
def usage : String :=
  joinLines [
    "usage: intcode [-h] [--config CONFIG] [--amplify] [--phases PHASES] [--debug]",
    "               [--logfile LOGFILE] [--console]",
    "               [program]"]

/-- The help of the command. -/
def help : String :=
  usage ++ joinLines [
    "",
    "Intcode VM runner. Runs the program interactively (one integer per line on",
    "stdin/stdout) or searches amplifier phase settings with --amplify.",
    "",
    "positional arguments:",
    "  program            program image (defaults to config program_path).",
    "",
    "options:",
    "  -h, --help         show this help message and exit",
    "  --config CONFIG    path to yaml config",
    "  --amplify          search phase permutations for the max signal.",
    "  --phases PHASES    comma separated phase settings for --amplify.",
    "  --debug            enable debug logging to logfile (detailed per-step",
    "                     state).",
    "  --logfile LOGFILE  path to processor log",
    "  --console          also echo logs to stderr (only when --debug)"]

/-- Why arguments are refused. -/
def Stop.message : Stop → String
  | help => ""
  | ambiguous argument matching =>
    "ambiguous option: " ++ argument ++ " could match " ++ ", ".intercalate (matching.map Flag.name)
  | valueMissing flag => "argument " ++ flag.title ++ ": expected one argument"
  | valueIgnored flag value =>
    "argument " ++ flag.title ++ ": ignored explicit argument " ++ Text.quoted value
  | unrecognized arguments => "unrecognized arguments: " ++ " ".intercalate arguments

end Intcode.CommandLine
