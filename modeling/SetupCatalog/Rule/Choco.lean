import SetupCatalog.Package.Basic
import SetupCatalog.Script.Argument
import SetupCatalog.Script.Invocation
import SetupCatalog.Script.Line
import SetupCatalog.Text.Case

/-!
# Packages that Chocolatey installs by name

A line that calls `choco install` outside a loop declares the first package that it names. Flags and
their values are passed over.
-/

namespace SetupCatalog.Rule.Choco

open Text Pattern Script

/-- The flags that take the next word as their value. -/
def valueFlags : List Text :=
  ["--version".toList, "-s".toList, "--source".toList, "--params".toList,
    "--package-parameters".toList, "--ia".toList, "--install-arguments".toList, "-u".toList,
    "--user".toList, "-p".toList, "--password".toList, "--cache".toList,
    "--cache-location".toList, "--execution-timeout".toList]

/-- Whether the next word is the value of the given flag. -/
def takesValue (flag : Text) : Bool :=
  valueFlags.contains (lower flag)

/-- Whether a character can stand in the name of a package after its first character. -/
def isNameChar (c : Char) : Bool :=
  isWord c || c == '.' || c == '+' || c == '-'

/-- The name of a package that a word starts with. -/
def nameAtStart : Text → Option Text
  | [] => none
  | c :: t => if isAsciiAlnum c then some (c :: t.takeWhile isNameChar) else none

/-- The package that words name. `skipping` says that the first of them is the value of a flag. The
first word that is neither a flag nor a value decides. -/
def packageIn (skipping : Bool) : List Text → Option Text
  | [] => none
  | word :: words =>
    if skipping then packageIn false words
    else if isFlag word then packageIn (takesValue word) words
    else nameAtStart word

/-- The package that the arguments of an installation name. -/
def packageOf (text : Text) : Option Text :=
  packageIn false (arguments text)

/-- The package that a line declares. -/
def declared? (script line : Text) : Option Package := do
  let name ← packageOf (← chocoCall.find? line)
  return { name, id := name, installer := .choco, script }

/-- The packages that the lines of a script install with Chocolatey, repeated ones included. -/
def candidates (script text : Text) : List Package :=
  (freeLines text).filterMap (declared? script)

end SetupCatalog.Rule.Choco
