import SetupCatalog.Package.Basic
import SetupCatalog.Rule.Options
import SetupCatalog.Script.Invocation
import SetupCatalog.Script.Line

/-!
# Packages in piped arrays

A run of string literals that is piped into a loop declares one package for each literal, if the
body of the loop installs with Chocolatey or Scoop. The body ends at the first closing brace.
-/

namespace SetupCatalog.Rule.PipedArray

open Text Pattern Script

/-- A string literal on one line that is not empty. Finds the text between its quotes. -/
def literal : Pattern Text := fun _ t =>
  match t with
  | [] => none
  | q :: t =>
    if isQuote q then do
      let (value, rest) ← someOf (fun c => c != q && !isLineEnd c) t
      let rest ← symbol q rest
      return (value, rest)
    else none

/-- The values of literals: blank characters around a value do not count, and neither does a value
of nothing else. -/
def values (literals : List Text) : List Text :=
  (literals.map strip).filter fun value => !value.isEmpty

/-- The values of the literals of a text. -/
def literalValues (text : Text) : List Text :=
  values ((literal.all text).map (·.found))

/-- Reads literals with commas between them, as many as there are, and at most `most`. -/
def literalRun : (most : Nat) → Text → Option (List Text × Text)
  | 0, _ => none
  | most + 1, t => do
    let (value, rest) ← literal none t
    -- a comma with no literal behind it is not part of the run
    let more := do
      let t ← symbol ',' (trimStart rest)
      literalRun most (trimStart t)
    match more with
    | some (found, rest) => return (value :: found, rest)
    | none => return ([value], rest)

/-- Reads the beginning of an array expression if there is one. -/
def arrayOpening (t : Text) : Text :=
  match symbol '@' t >>= symbol '(' with
  | some t => trimStart t
  | none => t

/-- Reads a loop over piped elements up to its closing brace. Finds the body. -/
def pipedLoop (t : Text) : Option (Text × Text) := do
  let t := trimStart t
  let t := (symbol ')' t).getD t
  let t ← symbol '|' (trimStart t)
  let t ← anyKeyword ["ForEach-Object".toList, "foreach".toList, "%".toList] (trimStart t)
  let t ← symbol '{' (trimStart t)
  -- the body is not balanced: it ends at the first closing brace, be it that of a nested block
  let rest ← symbol '}' (t.dropWhile fun c => c != '}')
  return (t.takeWhile fun c => c != '}', rest)

/-- Literals that are piped into a loop. -/
structure Loop where
  /-- The text of the literals, from the first quote to the last. -/
  run : Text
  /-- The body of the loop. -/
  body : Text

/-- A run of literals piped into a loop. Of the run only the text is kept. -/
def loop : Pattern Loop := fun _ t => do
  let t := arrayOpening t
  guard (t.head?.any isQuote)
  let (_, rest) ← literalRun t.length t
  let (body, after) ← pipedLoop rest
  return (⟨consumed t rest, body⟩, after)

/-- What the body of a loop installs with. -/
def installerIn (body : Text) : Option Installer :=
  if chocoWords.occursIn body then some .choco
  else if scoopWords.occursIn body then some .scoop
  else none

/-- The part of a match's first line that stands before the match. -/
def lineBefore {α : Type} (hit : Hit α) : Text :=
  (hit.before.takeWhile fun c => c != '\n').reverse

/-- The packages that a run of literals declares. The literals are looked for once more, in the text
of the run. -/
def declared (script : Text) (hit : Hit Loop) : List Package :=
  if isComment (lineBefore hit) then []
  else match installerIn hit.found.body with
    | none => []
    | some installer => (literalValues hit.found.run).map fun value =>
        { name := value, id := value, installer, script }

/-- The packages that the piped arrays of a script declare, repeated ones included. -/
def candidates (script text : Text) : List Package :=
  (loop.all text).flatMap (declared script)

end SetupCatalog.Rule.PipedArray
