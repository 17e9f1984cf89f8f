import SetupCatalog.Pattern.Element

/-!
# Install invocations

The patterns for a call of a package manager that installs something, and for the arguments of such
a call that say where a package comes from and for whom it is installed.
-/

namespace SetupCatalog.Script

open Text Pattern

/-- The words `tool install`, where `.exe` may follow the tool's name if `suffix` allows it. -/
def installWords (tool : Text) (suffix : Bool) : Pattern Unit := fun prev t => do
  guard (wordStarts prev)
  let t ← keyword tool t
  let t := if suffix then (keyword ".exe".toList t).getD t else t
  let t ← someBlanks t
  let t ← keyword "install".toList t
  guard (wordEnds t)
  return ((), t)

/-- An install call with the rest of its line, which holds the arguments. -/
def withArguments (words : Pattern Unit) : Pattern Text := fun prev t => do
  let (_, t) ← words prev t
  return restOfLine t

/-- The words that start an installation with winget. -/
def wingetWords : Pattern Unit := installWords "winget".toList true

/-- The words that start an installation with Chocolatey. -/
def chocoWords : Pattern Unit := installWords "choco".toList true

/-- The words that start an installation with Scoop. -/
def scoopWords : Pattern Unit := installWords "scoop".toList false

/-- An installation with winget and its arguments. -/
def wingetCall : Pattern Text := withArguments wingetWords

/-- An installation with Chocolatey and its arguments. -/
def chocoCall : Pattern Text := withArguments chocoWords

/-- Whether a character can stand between a flag and its value. -/
def separatesValue (c : Char) : Bool :=
  isBlank c || c == '='

/-- Reads what separates a flag from its value, and the quote that the value may start with. -/
def beforeValue (t : Text) : Option Text :=
  (someOf separatesValue t).map fun (_, t) => optionalQuote t

/-- A flag that names the Microsoft Store as the source. -/
def storeSource : Pattern Unit := fun _ t => do
  let t ← anyKeyword ["--source".toList, "-s".toList] t
  let t ← beforeValue t
  let t ← keyword "msstore".toList t
  guard (wordEnds t)
  return ((), t)

/-- A flag that gives the scope of an installation. -/
def scopeFlag : Pattern Text := fun _ t => do
  let t ← keyword "--scope".toList t
  let t ← beforeValue t
  someOf isWord t

/-- The scope that the arguments of a winget installation give, or else the default. -/
def scopeOf (arguments default : Text) : Text :=
  (scopeFlag.find? arguments).getD default

end SetupCatalog.Script
