/-!
# Usage

What the command line accepts, and how it explains itself: a command with a list of files or a
single file, each command with its flags.
-/
namespace Dbml.Cli

/-- A flag of the command line. -/
inductive Flag where
  | help
  | verbose
  | write
  deriving DecidableEq, Repr

/-- The spellings of a flag. -/
def Flag.names : Flag → List String
  | help => ["-h", "--help"]
  | verbose => ["-v", "--verbose"]
  | write => ["--write"]

/-- What stands on a command line besides flags. -/
inductive Arity where
  /-- A command and whatever follows it. -/
  | command
  | one
  | many
  deriving DecidableEq, Repr

/-- A command line: the program that it belongs to, its flags and its operands. -/
structure CommandLine where
  program : String
  flags : List Flag
  /-- The name of the operands. -/
  operand : String
  arity : Arity
  usage : String
  help : String
  deriving DecidableEq, Repr

/-- The flags of a command line by their spellings, in the order in which they are tried. -/
def CommandLine.spellings (c : CommandLine) : List (String × Flag) :=
  c.flags.flatMap fun f => f.names.map (·, f)

/-- The commands of the program. -/
inductive Command where
  | check
  | format
  deriving DecidableEq, Repr

def commandNames : List (String × Command) := [("check", .check), ("format", .format)]

/-- A text of several lines. -/
def textOf (lines : List String) : String := String.join (lines.map (· ++ "\n"))

def mainUsage : String := "usage: dbstudio [-h] [-v] \x7bcheck,format\x7d ..."

def checkUsage : String := "usage: dbstudio check [-h] files [files ...]"

def formatUsage : String := "usage: dbstudio format [-h] [--write] file"

/-- The command line before a command (a part of `build_parser`). -/
def mainLine : CommandLine where
  program := "dbstudio"
  flags := [.help, .verbose]
  operand := "command"
  arity := .command
  usage := textOf [mainUsage]
  help := textOf [mainUsage,
    "",
    "DBML schema tools",
    "",
    "positional arguments:",
    "  \x7bcheck,format\x7d",
    "    check         Report diagnostics for DBML files",
    "    format        Print a DBML file in canonical form",
    "",
    "options:",
    "  -h, --help      show this help message and exit",
    "  -v, --verbose   Enable debug logging"]

/-- The command line after the word `check` (a part of `build_parser`). -/
def checkLine : CommandLine where
  program := "dbstudio check"
  flags := [.help]
  operand := "files"
  arity := .many
  usage := textOf [checkUsage]
  help := textOf [checkUsage,
    "",
    "positional arguments:",
    "  files       DBML files ('-' for stdin)",
    "",
    "options:",
    "  -h, --help  show this help message and exit"]

/-- The command line after the word `format` (a part of `build_parser`). -/
def formatLine : CommandLine where
  program := "dbstudio format"
  flags := [.help, .write]
  operand := "file"
  arity := .one
  usage := textOf [formatUsage]
  help := textOf [formatUsage,
    "",
    "positional arguments:",
    "  file        DBML file ('-' for stdin)",
    "",
    "options:",
    "  -h, --help  show this help message and exit",
    "  --write     Rewrite the file in place"]

/-- The command line after the word for a command. -/
def Command.line : Command → CommandLine
  | check => checkLine
  | format => formatLine

end Dbml.Cli
