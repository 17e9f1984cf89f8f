import SetupCatalog.Package.Basic
import SetupCatalog.Pattern.Element
import SetupCatalog.Rule.Options

/-!
# Sideloaded packages

A script that calls `Add-AppxPackage` sideloads a package that it has downloaded. Only the first
call counts. The package is named by the last announcement in a window before the call, and its
identity is the address that a window around the call fetches it from.
-/

namespace SetupCatalog.Rule.Sideload

open Text Pattern

/-- The call that sideloads a package. -/
def marker : Pattern Unit := fun prev t => do
  guard (wordStarts prev)
  let t ← keyword "Add-AppxPackage".toList t
  guard (wordEnds t)
  return ((), t)

/-! ## The announcement of the name -/

/-- Whether a character can stand in an announced name. -/
def isAnnouncedChar (c : Char) : Bool :=
  !isQuote c && c != '\x60' && !isLineEnd c

/-- Reads what ends an announcement where no blank character does: three dots, an ellipsis, a quote
of any kind or the end of the text. -/
def announcementMark : Text → Option Text
  | [] => some []
  | '.' :: '.' :: '.' :: t => some t
  | c :: t => if c = '…' || isQuote c || c = '\x60' then some t else none

/-- Reads blank characters and the end of an announcement. Where no mark follows the blank
characters, the last line end among them is the end. -/
def announcementEnd (t : Text) : Option Text :=
  let rest := trimStart t
  match announcementMark rest with
  | some rest => some rest
  | none =>
    let blanks := (t.takeWhile isBlank).reverse
    -- blanks may be given back one by one, so the last line end among them is tried first
    if blanks.any isLineEnd then some ((blanks.takeWhile fun c => !isLineEnd c).reverse ++ rest)
    else none

/-- Reads an announced name up to the first spot where the announcement can end. A name has at least
one character. -/
def announcedName : Text → Option (Text × Text)
  | [] => none
  | c :: t =>
    if isAnnouncedChar c then
      match announcementEnd t with
      | some rest => some ([c], rest)
      | none => (announcedName t).map fun (name, rest) => (c :: name, rest)
    else none

/-- An announcement that something is being installed. Finds the name of it. -/
def announcement : Pattern Text := fun prev t => do
  guard (wordStarts prev)
  let t ← keyword "Installing".toList t
  let t ← someBlanks t
  announcedName t

/-- A name without the blank characters around it and the dots after it. -/
def cleanName (name : Text) : Text :=
  trimEnd (fun c => c == '.') (strip name)

/-- The name of a package that no announcement names. -/
def defaultName : Text := "Sideloaded App".toList

/-- The name that the last announcement of a window gives. -/
def nameIn (window : Text) : Text :=
  let names := ((announcement.all window).map fun hit => cleanName hit.found).filter
    fun name => !name.isEmpty
  names.getLast?.getD defaultName

/-! ## The address of the download -/

/-- Whether a character can stand in an address. -/
def isAddressChar (c : Char) : Bool :=
  !isBlank c && !isQuote c && c != ')'

/-- Reads the scheme of an address. -/
def scheme (t : Text) : Option Text := do
  let t ← keyword "http".toList t
  let t := (keyword "s".toList t).getD t
  keyword "://".toList t

/-- Reads an address as far as it goes. -/
def address (t : Text) : Option (Text × Text) := do
  let rest ← scheme t
  let (_, rest) ← someOf isAddressChar rest
  return (consumed t rest, rest)

/-- Reads the first address on the line. -/
def addressOnLine : Text → Option (Text × Text)
  | [] => none
  | c :: t =>
    match address (c :: t) with
    | some found => some found
    | none => if isLineEnd c then none else addressOnLine t

/-- Reads a command that fetches something. -/
def fetchVerb (prev : Option Char) (t : Text) : Option Text :=
  let word := do
    guard (wordStarts prev)
    let t ← anyKeyword ["Invoke-WebRequest".toList, "iwr".toList, "Start-BitsTransfer".toList,
      "curl".toList, "wget".toList] t
    guard (wordEnds t)
    return t
  -- a method is called on an object, so no word needs to start here
  word.orElse fun _ => do
    let t ← keyword ".DownloadFile".toList t
    symbol '(' (trimStart t)

/-- A command that fetches something from an address on the same line. -/
def fetch : Pattern Text := fun prev t => do
  let t ← fetchVerb prev t
  addressOnLine t

/-- Reads the ending of the name of an app package. -/
def packageEnding (t : Text) : Option Text := do
  let t ← symbol '.' t
  let ending := fun (word : Text) => do
    let t ← keyword word t
    guard (wordEnds t)
    return t
  ["msixbundle".toList, "appxbundle".toList, "msix".toList, "appx".toList].findSome? ending

/-- Reads an address after its scheme up to the first ending of an app package, which is not at its
very start. -/
def packagePath : Text → Option Text
  | [] => none
  | c :: t =>
    if isAddressChar c then (packageEnding t).orElse fun _ => packagePath t
    else none

/-- The address of an app package. -/
def packageAddress : Pattern Text := fun _ t => do
  let rest ← scheme t
  let rest ← packagePath rest
  return (consumed t rest, rest)

/-- The address of a package that none is found for. -/
def defaultAddress : Text := "unknown".toList

/-- The address that a window gives: the first one that is fetched, or else the first one of an app
package. -/
def addressIn (window : Text) : Text :=
  ((fetch.find? window).orElse fun _ => packageAddress.find? window).getD defaultAddress

/-! ## The rule -/

/-- The package that the call at the given offset sideloads. -/
def declaredAt (options : ScanOptions) (script text : Text) (offset : Nat) : Package where
  name := nameIn (window text (max 0 (offset - options.nameLookback)) offset)
  id := addressIn
    (window text (max 0 (offset - options.urlBefore)) (offset + options.urlAfter))
  installer := .sideload
  script := script

/-- The package that a script sideloads, if it does so. -/
def candidates (options : ScanOptions) (script text : Text) : List Package :=
  ((marker.first? text).map fun hit => declaredAt options script text hit.offset).toList

/-- The remark that a script sideloads several packages. -/
def remarks (text : Text) : List Text :=
  let calls := (marker.all text).length
  if calls > 1 then
    [ofNat calls ++ (" Add-AppxPackage calls found; only the first is inspected, " ++
      "later sideloads are not reported").toList]
  else []

end SetupCatalog.Rule.Sideload
