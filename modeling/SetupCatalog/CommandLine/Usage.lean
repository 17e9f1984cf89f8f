import SetupCatalog.CommandLine.Flag
import SetupCatalog.Text.Display

/-!
# Usage and help

The texts that explain the command line, and the faults that a command line can have.
-/

namespace SetupCatalog.CommandLine

/-- The name of the program. -/
def programName : Text := "pkgscout".toList

/-- The version of the program. -/
def versionNumber : Text := "0.1.0".toList

/-- The line that gives the version. -/
def versionLine : Text :=
  programName ++ ' ' :: versionNumber ++ ['\n']

/-- Lines with their line ends. -/
def linesOf (ls : List String) : Text :=
  ls.flatMap fun l => l.toList ++ ['\n']

/-- How the program is called. -/
def usage : Text :=
  linesOf
    ["usage: pkgscout [-h] [-f \x7bmarkdown,json\x7d] [-o OUTPUT] [--plan]",
      "                [--exclude PATTERN] [--no-skip-list]",
      "                [--iteration-window CHARS] [--sideload-window CHARS]",
      "                [--sideload-url-window CHARS] [-v] [-q] [--version]",
      "                [path]"]

/-- The help text. -/
def help : Text :=
  usage ++ linesOf
    ["",
      "PkgScout: discover package declarations in PowerShell setup scripts.",
      "",
      "Scans winget, Chocolatey, Scoop, Install-Module and sideload declarations and " ++
        "reports a deduplicated package catalog.",
      "",
      "positional arguments:",
      "  path                  Directory containing setup scripts (default: current",
      "                        directory)",
      "",
      "options:",
      "  -h, --help            show this help message and exit",
      "  -f \x7bmarkdown,json\x7d, --format \x7bmarkdown,json\x7d",
      "                        Report format (default: markdown)",
      "  -o OUTPUT, --output OUTPUT",
      "                        Write the report to this file instead of stdout",
      "  --plan                Print the install command for each package instead of",
      "                        a report",
      "  --exclude PATTERN     Additional script name pattern to exclude (repeatable)",
      "  --no-skip-list        Do not mark CI skip-listed packages as untested",
      "  --iteration-window CHARS",
      "                        Characters searched after `$Var.Values |` for the",
      "                        consuming installer",
      "  --sideload-window CHARS",
      "                        Characters searched before Add-AppxPackage for the app",
      "                        name",
      "  --sideload-url-window CHARS",
      "                        Characters searched on each side of Add-AppxPackage",
      "                        for the download URL",
      "  -v, --verbose         Show detailed progress information",
      "  -q, --quiet           Suppress all output except errors and the report",
      "  --version             show program's version number and exit",
      "",
      "Examples:",
      "  pkgscout .                          # Markdown report for current directory",
      "  pkgscout scripts --format json      # JSON report",
      "  pkgscout scripts --plan             # Print install commands",
      "  pkgscout scripts -o report.md       # Write report to a file"]

/-- What can be wrong with a command line. -/
inductive UsageFault where
  | ambiguous (given : Text) (spellings : List Text)
  | missingValue (flag : Flag)
  | unwantedValue (flag : Flag) (value : Text)
  | unknownFormat (flag : Flag) (value : Text) (known : List Text)
  | notWhole (flag : Flag) (value : Text)
  | unrecognized (arguments : List Text)
  deriving DecidableEq, Repr

/-- A message about a flag. -/
def about (flag : Flag) (what : Text) : Text :=
  "argument ".toList ++ flag.label ++ ": ".toList ++ what

/-- The wording of a fault. -/
def UsageFault.message : UsageFault → Text
  | ambiguous given spellings =>
    "ambiguous option: ".toList ++ given ++ " could match ".toList ++
      Text.joined ", ".toList spellings
  | missingValue flag => about flag "expected one argument".toList
  | unwantedValue flag value =>
    about flag ("ignored explicit argument ".toList ++ Text.display value)
  | unknownFormat flag value known =>
    about flag ("invalid choice: ".toList ++ Text.display value ++ " (choose from ".toList ++
      Text.joined ", ".toList (known.map Text.display) ++ ")".toList)
  | notWhole flag value => about flag ("invalid int value: ".toList ++ Text.display value)
  | unrecognized arguments =>
    "unrecognized arguments: ".toList ++ Text.joined [' '] arguments

/-- What is printed about a fault. -/
def UsageFault.report (e : UsageFault) : Text :=
  usage ++ programName ++ ": error: ".toList ++ e.message ++ ['\n']

end SetupCatalog.CommandLine
