import SetupCatalog.Package.Basic
import SetupCatalog.Script.Line

/-!
# PowerShell modules

A line that calls `Install-Module` declares the module that it names, by position or by the `-Name`
parameter. Of the other arguments only those are kept that decide what is installed: whether
prereleases are allowed, and the repository.
-/

namespace SetupCatalog.Rule.PsModule

open Text Pattern Script

/-- A call that installs a module, with the rest of its line. -/
def moduleCall : Pattern Text := fun prev t => do
  guard (wordStarts prev)
  let t ← keyword "Install-Module".toList t
  guard (wordEnds t)
  return (t.takeWhile fun c => c != '\n', t.dropWhile fun c => c != '\n')

/-- Whether a character can stand in the name of a module after its first character. -/
def isNameChar (c : Char) : Bool :=
  isWord c || c == '.' || c == '-'

/-- Reads blank characters, perhaps a quote, and the name of a module that starts as `starts`
says. -/
def nameAfterBlanks (starts : Char → Bool) (t : Text) : Option (Text × Text) := do
  let t ← someBlanks t
  match optionalQuote t with
  | [] => none
  | c :: t => if starts c then some (c :: t.takeWhile isNameChar, t.dropWhile isNameChar) else none

/-- The parameter that names the module. -/
def nameParameter : Pattern Text := fun prev t => do
  guard (flagStarts prev)
  let t ← keyword "-Name".toList t
  nameAfterBlanks isAlnumAnyCase t

/-- The module that the arguments of a call name: at their start, or else by a parameter. -/
def moduleOf (arguments : Text) : Option Text :=
  ((nameAfterBlanks isAsciiAlnum arguments).map (·.1)).orElse fun _ =>
    nameParameter.find? arguments

/-- The flag that allows prereleases. -/
def prereleaseFlag : Pattern Unit := fun prev t => do
  guard (flagStarts prev)
  let t ← keyword "-AllowPrerelease".toList t
  guard (wordEnds t)
  return ((), t)

/-- Whether a character can stand in the name of a repository. -/
def isRepositoryChar (c : Char) : Bool :=
  !isBlank c && !isQuote c

/-- The parameter that names the repository. -/
def repositoryParameter : Pattern Text := fun prev t => do
  guard (flagStarts prev)
  let t ← keyword "-Repository".toList t
  let t ← someBlanks t
  someOf isRepositoryChar (optionalQuote t)

/-- The arguments that decide what is installed, in their usual spelling. -/
def keptArguments (arguments : Text) : Text :=
  let prerelease := if prereleaseFlag.occursIn arguments then ["-AllowPrerelease".toList] else []
  let repository := (repositoryParameter.find? arguments).map fun r => "-Repository ".toList ++ r
  joined [' '] (prerelease ++ repository.toList)

/-- The package that a line declares. -/
def declared? (script line : Text) : Option Package := do
  guard (!isComment line)
  let arguments ← moduleCall.find? line
  let name ← moduleOf arguments
  return { name, id := name, installer := .psModule, script, extraArgs := keptArguments arguments }

/-- The modules that the lines of a script install, repeated ones included. -/
def candidates (script text : Text) : List Package :=
  (lines text).filterMap (declared? script)

end SetupCatalog.Rule.PsModule
