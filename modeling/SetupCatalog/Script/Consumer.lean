import SetupCatalog.Package.Basic
import SetupCatalog.Rule.Options
import SetupCatalog.Script.Invocation

/-!
# Who consumes a container

A container declares packages only if a pipeline takes its values and installs them. The consuming
pipeline is the first one that names the variable; what it installs with is read off a window that
starts there, so an unrelated loop further down is not mistaken for it.
-/

namespace SetupCatalog.Script

open Text Pattern

/-- What consumes the values of a container. -/
structure Consumer where
  /-- What the values are installed with. -/
  installer : Installer
  /-- The scope of the installations. -/
  scope : Text := "machine".toList
  deriving DecidableEq, Repr

/-- Whether no install call was found. -/
def Consumer.isUnknown (c : Consumer) : Bool :=
  c.installer = .unknown

/-- Reads the member of a container that yields its elements. -/
def elementsMember (t : Text) : Option Text :=
  (anyKeyword ["Values".toList, "Keys".toList] t).orElse fun _ => do
    let t ← keyword "GetEnumerator(".toList t
    symbol ')' (trimStart t)

/-- The start of a pipeline over the elements of a variable. -/
def consumerStart (variableName : Text) : Pattern Unit := fun _ t => do
  let t ← symbol '$' t
  let t ← keyword variableName t
  let t ← symbol '.' t
  let t ← elementsMember t
  let t ← symbol '|' (trimStart t)
  return ((), t)

/-- What the first install call of a window installs with. Winget comes before Chocolatey, and
Chocolatey before Scoop, wherever they stand. -/
def consumerIn (window defaultScope : Text) : Consumer :=
  match wingetCall.find? window with
  | some arguments =>
    if storeSource.occursIn arguments then ⟨.wingetStore, defaultScope⟩
    else ⟨.winget, scopeOf arguments defaultScope⟩
  | none =>
    if chocoWords.occursIn window then ⟨.choco, defaultScope⟩
    else if scoopWords.occursIn window then ⟨.scoop, defaultScope⟩
    else ⟨.unknown, defaultScope⟩

/-- What consumes the elements of a variable in a script. -/
def consumerOf (variableName text : Text) (options : ScanOptions) : Consumer :=
  match (consumerStart variableName).first? text with
  | some hit =>
    consumerIn (window text hit.offset (hit.offset + options.loopLookahead)) options.defaultScope
  | none => ⟨.unknown, options.defaultScope⟩

end SetupCatalog.Script
