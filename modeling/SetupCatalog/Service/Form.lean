import SetupCatalog.Service.Header
import SetupCatalog.Text.Blank
import SetupCatalog.Text.Line

/-!
# Forms

A form is a sequence of parts. Lines with the boundary stand before each part and, marked as the
last one, after all of them; what is before the first and after the last counts for nothing. A part
has header fields, a blank line and its content. A part with a file name is an uploaded file.

A form that breaks off, or that has a part without a disposition, has no parts at all.
`upload` writes a form with one file.
-/

namespace SetupCatalog.Service.Form

open Text

/-- The bytes of a text that is ASCII. -/
def ascii (s : String) : List UInt8 :=
  Utf8.encode s.toList

/-- The bytes after a line break, if bytes start with a carriage return, a line feed or both. -/
def afterBreak? : List UInt8 → Option (List UInt8)
  | 0x0D :: 0x0A :: rest => some rest
  | 0x0D :: rest => some rest
  | 0x0A :: rest => some rest
  | _ => none

/-- The bytes after the given ones, if bytes start with them. -/
def after? (start bytes : List UInt8) : Option (List UInt8) :=
  if start.isPrefixOf bytes then some (bytes.drop start.length) else none

/-- Whether a byte is a space between words, and not a line break. -/
def isGap (b : UInt8) : Bool :=
  b == 0x20 || b == 0x09 || b == 0x0B || b == 0x0C

/-! ## Boundaries -/

/-- The bytes after a boundary, if bytes start with one, and whether it is the last. After the last
one a line break may be missing. -/
def afterBoundary? (boundary bytes : List UInt8) : Option (Bool × List UInt8) := do
  let rest ← after? (ascii "--" ++ boundary) bytes
  match after? (ascii "--") rest with
  | some rest =>
    let rest := rest.dropWhile isGap
    return (true, (afterBreak? rest).getD rest)
  | none => return (false, ← afterBreak? (rest.dropWhile isGap))

/-- The first boundary: whether it is the last, and the bytes after it. -/
def firstBoundary? (boundary : List UInt8) : List UInt8 → Option (Bool × List UInt8)
  | [] => none
  | b :: bytes =>
    match afterBoundary? boundary (b :: bytes) with
    | some found => some found
    | none => firstBoundary? boundary bytes

/-- A boundary after a line break at the start of bytes. -/
def boundaryLine? (boundary bytes : List UInt8) : Option (Bool × List UInt8) := do
  afterBoundary? boundary (← afterBreak? bytes)

/-- The bytes before the next boundary that comes after a line break, whether it is the last, and
the bytes after it. `passed` holds the bytes passed already, the last one first. -/
def nextBoundaryFrom? (boundary passed : List UInt8) :
    List UInt8 → Option (List UInt8 × Bool × List UInt8)
  | [] => none
  | b :: bytes =>
    match boundaryLine? boundary (b :: bytes) with
    | some found => some (passed.reverse, found)
    | none => nextBoundaryFrom? boundary (b :: passed) bytes

/-- The bytes before the next boundary that comes after a line break, whether it is the last, and
the bytes after it. -/
def nextBoundary? (boundary bytes : List UInt8) : Option (List UInt8 × Bool × List UInt8) :=
  nextBoundaryFrom? boundary [] bytes

/-! ## Header fields -/

/-- Whether bytes start with two line breaks of one kind. -/
def startsBlankLine : List UInt8 → Bool
  | 0x0D :: 0x0A :: 0x0D :: 0x0A :: _ => true
  | 0x0D :: 0x0D :: _ => true
  | 0x0A :: 0x0A :: _ => true
  | _ => false

/-- The bytes before a blank line and those after it, the second of its line breaks included.
`passed` holds the bytes passed already, the last one first. -/
def splitHeadFrom? (passed : List UInt8) : List UInt8 → Option (List UInt8 × List UInt8)
  | [] => none
  | b :: bytes =>
    if startsBlankLine (b :: bytes) then
      some (passed.reverse, (afterBreak? (b :: bytes)).getD [])
    else splitHeadFrom? (b :: passed) bytes

/-- The bytes before a blank line and those after it, the second of its line breaks included. -/
def splitHead? (bytes : List UInt8) : Option (List UInt8 × List UInt8) :=
  splitHeadFrom? [] bytes

/-- A text with line feeds for breaks in which a line that starts with a space or a tab goes on with
the one before it. -/
def joinContinued : Text → Text
  | '\n' :: c :: t =>
    if HeaderField.isPadding c then ' ' :: joinContinued t else '\n' :: joinContinued (c :: t)
  | c :: t => c :: joinContinued t
  | [] => []

/-- The names of header fields and what is written after them. -/
def fieldsOf (head : Text) : List (Text × Text) :=
  (pieces '\n' (joinContinued (unifyBreaks head))).map fun line =>
    let (name, value) := cut ':' line
    (lower (strip name), strip value)

/-- The disposition of a part, given its header fields. -/
def disposition? (head : List UInt8) : Option HeaderField := do
  let value ← (fieldsOf (← Utf8.decode head)).lookup "content-disposition".toList
  return .ofText value

/-! ## Parts -/

/-- A part of a form. -/
structure Part where
  /-- What the part says about itself. -/
  disposition : HeaderField
  /-- The content of the part. -/
  content : List UInt8
  deriving DecidableEq, Repr

/-- Why a form cannot be read. -/
inductive FormFault where
  | broken
  | tooManyParts
  deriving DecidableEq, Repr

/-- What has been found in a form, or else that it is broken. -/
def found (r : Option α) : Except FormFault α :=
  r.elim (.error .broken) .ok

/-- Reads the content of a part, which starts with a line break and ends before the boundary after
it. Finds whether that is the last, and the bytes after it. -/
def readContent? (boundary bytes : List UInt8) : Option (List UInt8 × Bool × List UInt8) := do
  let (before, found) ← nextBoundary? boundary bytes
  let lead := bytes.length - ((afterBreak? bytes).getD bytes).length
  return (before.drop lead, found)

/-- Reads the parts after a boundary. No more than `allowed` may follow. -/
def readParts (boundary : List UInt8) : (allowed : Nat) → List UInt8 → Except FormFault (List Part)
  | allowed, bytes => do
    let (head, rest) ← found (splitHead? bytes)
    let disposition ← found (disposition? head)
    match allowed with
    | 0 => throw .tooManyParts
    | allowed + 1 =>
      let (content, last, rest) ← found (readContent? boundary rest)
      let parts ← if last then pure [] else readParts boundary allowed rest
      return ⟨disposition, content⟩ :: parts

/-- How many parts a form may have. -/
def maxParts : Nat := 1000

/-- The parts of a form with a boundary. -/
def read (boundary bytes : List UInt8) : Except FormFault (List Part) := do
  let (last, rest) ← found (firstBoundary? boundary bytes)
  if last then return [] else readParts boundary maxParts rest

/-! ## Uploaded files -/

/-- An uploaded file. -/
structure FileUpload where
  /-- The name of the file. -/
  filename : Text
  /-- The content of the file. -/
  content : List UInt8
  deriving DecidableEq, Repr

/-- The first file among parts that is uploaded under a name. -/
def file? (parts : List Part) (name : Text) : Option FileUpload :=
  parts.findSome? fun p =>
    match p.disposition.get? "name", p.disposition.get? "filename" with
    | some n, some filename => if n = name then some ⟨filename, p.content⟩ else none
    | _, _ => none

/-- A form with one file, uploaded under a name. -/
def upload (boundary : List UInt8) (name : Text) (file : FileUpload) : List UInt8 :=
  ascii "--" ++ boundary ++
    ascii "\r\nContent-Disposition: form-data; name=\"" ++ Utf8.encode name ++
    ascii "\"; filename=\"" ++ Utf8.encode file.filename ++
    ascii "\"\r\nContent-Type: application/zip\r\n\r\n" ++ file.content ++
    ascii "\r\n--" ++ boundary ++ ascii "--\r\n"

end SetupCatalog.Service.Form
