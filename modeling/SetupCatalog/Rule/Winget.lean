import SetupCatalog.Package.Basic
import SetupCatalog.Rule.Options
import SetupCatalog.Script.Argument
import SetupCatalog.Script.Invocation
import SetupCatalog.Script.Line
import SetupCatalog.Text.Case
import SetupCatalog.Text.Digit

/-!
# Packages that winget installs by identity

A line that calls `winget install` outside a loop declares the package whose identity it gives. An
identity has at least two parts with dots between them. One that follows an identity flag wins over
one that stands alone, and a version number is no identity.
-/

namespace SetupCatalog.Rule.Winget

open Text Pattern Script

/-- The flags that take the next word as the identity of the package. -/
def idFlags : List Text :=
  ["--id".toList, "-id".toList]

/-- The flags that take the next word as some other value. -/
def valueFlags : List Text :=
  ["-v".toList, "--version".toList, "-s".toList, "--source".toList, "--scope".toList,
    "-l".toList, "--location".toList, "-o".toList, "--log".toList, "--override".toList,
    "--custom".toList, "--architecture".toList, "-a".toList, "--locale".toList,
    "--header".toList]

/-- Whether a character can stand in a part of an identity. -/
def isIdChar (c : Char) : Bool :=
  isWord c || c == '+' || c == '-'

/-- Whether a word has the form of an identity: parts with dots between them, at least two of them,
none empty, and the first starting with an ASCII letter or digit. -/
def isDottedId (word : Text) : Bool :=
  match pieces '.' word with
  | first :: second :: others =>
    first.head?.any isAsciiAlnum &&
      (first :: second :: others).all fun part => !part.isEmpty && part.all isIdChar
  | _ => false

/-- Whether a word consists of digits and dots only. -/
def isVersionLike (word : Text) : Bool :=
  !word.isEmpty && word.all fun c => isDigit c || c == '.'

/-- What a word offers as the identity of the package, given the words after it: its own value after
an equals sign, or the next word. -/
def offeredId (word : Text) (words : List Text) : Option Text :=
  let low := lower word
  -- the value is taken as it is written, so quotes around it stay and it is no identity
  if "--id=".toList.isPrefixOf low then some ((word.dropWhile fun c => c != '=').drop 1)
  else if idFlags.contains low then words.head?
  else none

/-- The first well-formed identity that an identity flag gives. -/
def flaggedId : List Text → Option Text
  | [] => none
  | word :: words =>
    match (offeredId word words).filter isDottedId with
    | some id => some id
    | none => flaggedId words

/-- The first identity that stands alone, `previous` being the word before. -/
def positionalId (previous : Text) : List Text → Option Text
  | [] => none
  | word :: words =>
    if !isFlag word && !valueFlags.contains (lower previous) &&
        !idFlags.contains (lower previous) && isDottedId word && !isVersionLike word
    then some word
    else positionalId word words

/-- The identity that the arguments of an installation give. -/
def idOf (text : Text) : Option Text :=
  let words := arguments text
  (flaggedId words).orElse fun _ => positionalId [] words

/-- The package that a line declares. -/
def declared? (options : ScanOptions) (script line : Text) : Option Package := do
  let text ← wingetCall.find? line
  let id ← idOf text
  return { name := id, id, installer := .winget, script,
           scope := scopeOf text options.defaultScope }

/-- The packages that the lines of a script install with winget, repeated ones included. -/
def candidates (options : ScanOptions) (script text : Text) : List Package :=
  (freeLines text).filterMap (declared? options script)

end SetupCatalog.Rule.Winget
