import SetupCatalog.Pattern.Element

/-!
# Lines of a script

A comment line declares nothing. A line that uses the variable of the loop around it belongs to that
loop; `freeLines` are the lines that stand for themselves.
-/

namespace SetupCatalog.Script

open Text Pattern

/-- Whether the first character of a line that is not blank starts a comment. -/
def isComment (line : Text) : Bool :=
  (strip line).head? == some '#'

/-- The variable that stands for the current element of a loop, under either of its names. -/
def loopVariable : Pattern Unit := fun _ t => do
  let t ← symbol '$' t
  let t ← (symbol '_' t).orElse fun _ => keyword "PSItem".toList t
  guard (wordEnds t)
  return ((), t)

/-- Whether a line uses the variable of a loop. -/
def usesLoopVariable (line : Text) : Bool :=
  loopVariable.occursIn line

/-- The lines that are neither comments nor part of a loop. -/
def freeLines (text : Text) : List Text :=
  (lines text).filter fun line => !isComment line && !usesLoopVariable line

end SetupCatalog.Script
