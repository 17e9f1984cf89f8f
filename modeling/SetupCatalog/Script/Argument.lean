import SetupCatalog.Pattern.Element

/-!
# Arguments of an invocation

The arguments of a call are words. A word in quotes may hold blank characters; any other word ends
at the first blank character. Quotes around a word do not belong to it.
-/

namespace SetupCatalog.Script

open Text Pattern

/-- A word of an argument text, with the quotes around it. -/
def argument : Pattern Text := fun _ t =>
  match t with
  | [] => none
  | q :: r =>
    -- a quote that is never closed is a character like any other
    if isQuote q && r.contains q then
      some (q :: r.takeWhile (fun c => c != q) ++ [q], (r.dropWhile fun c => c != q).drop 1)
    else someOf (fun c => !isBlank c) (q :: r)

/-- A word without the two equal quotes around it. -/
def unquoted : Text → Text
  | [] => []
  | q :: r => if isQuote q && r.getLast? == some q then r.dropLast else q :: r

/-- The words of an argument text without their quotes. -/
def arguments (text : Text) : List Text :=
  (argument.all text).map fun hit => unquoted hit.found

/-- Whether a word has the form of a flag. -/
def isFlag (word : Text) : Bool :=
  word.head? == some '-'

end SetupCatalog.Script
