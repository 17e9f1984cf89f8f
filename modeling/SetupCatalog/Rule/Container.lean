import SetupCatalog.Script.Block
import SetupCatalog.Script.Consumer
import SetupCatalog.Script.Line

/-!
# Packages in containers

A container whose values an install loop consumes declares one package for each of its lines that
has an `Id` field. The label is the `Name` field of the same line. What installs the package, and
for whom, is decided by the loop.
-/

namespace SetupCatalog.Rule.Container

open Text Pattern Script

/-- Reads a text between two equal quotes on one line. -/
def quotedValue : Text → Option (Text × Text)
  | [] => none
  | q :: t =>
    if isQuote q then
      -- only a line feed ends the value early; a return may be in it
      let inside := fun c => c != q && c != '\n'
      (symbol q (t.dropWhile inside)).map fun rest => (t.takeWhile inside, rest)
    else none

/-- Reads what comes after the name of a field: an equals sign and a quoted value. -/
def fieldValue (t : Text) : Option (Text × Text) := do
  let t ← symbol '=' (trimStart t)
  quotedValue (trimStart t)

/-- A field that holds the identity of a package. Finds its value. -/
def idField : Pattern Text := fun prev t => do
  guard (wordStarts prev)
  let t := (keyword "Package".toList t).getD t
  -- the longer spelling `PackageId` is one word, so nothing is asked between its parts
  let t ← keyword "Id".toList t
  fieldValue t

/-- A field that holds the label of a package. Finds its value. -/
def nameField : Pattern Text := fun prev t => do
  guard (wordStarts prev)
  let t ← keyword "Name".toList t
  fieldValue t

/-- Whether some line of a container might declare a package. -/
def declaresIds (b : Block) : Bool :=
  idField.occursIn b.body

/-- The package that a line of a container declares. -/
def declared? (script : Text) (consumer : Consumer) (line : Text) : Option Package := do
  guard (!isComment line)
  let id := strip (← idField.find? line)
  guard (!id.isEmpty)
  let label := strip ((nameField.find? line).getD [])
  return {
    name := if label.isEmpty then id else label
    id
    installer := consumer.installer
    script
    scope := consumer.scope }

/-- The packages that the lines of a container declare. -/
def entries (script : Text) (consumer : Consumer) (b : Block) : List Package :=
  (lines b.body).filterMap (declared? script consumer)

/-- The packages that the containers of a script declare, repeated ones included. -/
def candidates (options : ScanOptions) (script text : Text) : List Package :=
  (blocks text).flatMap fun b =>
    let consumer := consumerOf b.variableName text options
    -- without a known consumer the entries are left out and remarked on
    if !declaresIds b || consumer.isUnknown then [] else entries script consumer b

/-- The remark that the entries of a container are left out. -/
def unconsumed (b : Block) : Text :=
  '$' :: b.variableName ++ (" declares package ids but no install loop consuming it was found; " ++
    "entries skipped").toList

/-- The remarks on the containers that declare packages and are consumed by no install loop. -/
def remarks (options : ScanOptions) (text : Text) : List Text :=
  ((blocks text).filter fun b =>
    declaresIds b && (consumerOf b.variableName text options).isUnknown).map unconsumed

end SetupCatalog.Rule.Container
