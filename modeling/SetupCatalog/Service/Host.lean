import SetupCatalog.Text.Case
import SetupCatalog.Text.Cut
import SetupCatalog.Text.Digit
import SetupCatalog.Text.Display
import SetupCatalog.Text.Percent
import SetupCatalog.Text.Utf8Fault

/-!
# Hosts

The host of an address may have a user before it and a port after it, and may be a number in
brackets. `Host.checkBrackets` and `Host.checkLookalikes` refuse what is no host, and `Host.sent`
writes a host as it is sent.
-/

namespace SetupCatalog.Service

open Text

/-- What is wrong with a host. -/
inductive HostFault where
  | unbalanced
  /-- What is in brackets is no number of a host. -/
  | notNumber (host : Text)
  /-- What is in brackets is a number of the old kind. -/
  | oldNumber
  /-- What is in brackets is not even a number of a kind still to come. -/
  | futureNumber
  /-- The host has characters that look like separators. -/
  | lookalike (host : Text)
  | port (written : Text)
  | portRange
  | label
  | lastLabel
  deriving DecidableEq, Repr

/-- The wording of a fault. -/
def HostFault.message : HostFault → Text
  | unbalanced => "Invalid IPv6 URL".toList
  | notNumber host => display host ++ " does not appear to be an IPv4 or IPv6 address".toList
  | oldNumber => "An IPv4 address cannot be in brackets".toList
  | futureNumber => "IPvFuture address is invalid".toList
  | lookalike host =>
    "netloc '".toList ++ host ++ "' contains invalid characters under NFKC normalization".toList
  | .port written => "Port could not be cast to integer value as ".toList ++ display written
  | portRange => "Port out of range 0-65535".toList
  | label =>
    "encoding with 'idna' codec failed (UnicodeError: label empty or too long)".toList
  | lastLabel => "encoding with 'idna' codec failed (UnicodeError: label too long)".toList

/-- Whether a fault lies in how the names of the host can be encoded. -/
def HostFault.isEncoding : HostFault → Bool
  | label | lastLabel => true
  | _ => false

namespace Host

/-! ## Numbers in brackets -/

/-- Whether a text is a number of the old kind: four numbers below 256 with dots between them. -/
def isOldNumber (t : Text) : Bool :=
  let parts := pieces '.' t
  parts.length = 4 && parts.all fun part =>
    !part.isEmpty && part.length ≤ 3 && part.all Char.isDigit &&
      (part.length = 1 || part.head? != some '0') &&
      part.foldl (fun n c => 10 * n + (c.toNat - '0'.toNat)) 0 < 256

/-- Whether a text is one of the eight parts of a number of the new kind. -/
def isHexPart (t : Text) : Bool :=
  !t.isEmpty && t.length ≤ 4 && t.all fun c => (hexValue? c).isSome

/-- The parts of a number of the new kind, in which the last one may be a number of the old kind and
stands for two. -/
def newParts? (t : Text) : Option (List Text) :=
  let parts := pieces ':' t
  let last := parts.getLast?.getD []
  if parts.length < 3 then none
  else if last.contains '.' then
    if isOldNumber last then some (parts.dropLast ++ [['0'], ['0']]) else none
  else some parts

/-- Whether the parts of a number of the new kind are complete, or have one gap for the rest. -/
def arePlaced (parts : List Text) : Bool :=
  let inner := parts.tail.dropLast
  let front := parts.takeWhile fun part => !part.isEmpty
  let back := (parts.reverse.takeWhile fun part => !part.isEmpty).reverse
  let atStart := parts.head? = some [] && inner.head? = some []
  let atEnd := parts.getLast? = some [] && inner.getLast? = some []
  if parts.length > 9 then false
  else match inner.count [] with
    | 0 => parts.length = 8 && parts.all isHexPart
    | 1 =>
      (parts.head? != some [] || atStart) && (parts.getLast? != some [] || atEnd) &&
        front.all isHexPart && back.all isHexPart && front.length + back.length ≤ 7
    | _ => false

/-- Whether a text is a number of the new kind. A percent sign and the name of a zone may follow. -/
def isNewNumber (t : Text) : Bool :=
  let (number, zone) := cut '%' t
  !(t.contains '%' && (zone.isEmpty || zone.contains '%')) &&
    (newParts? number).any arePlaced

/-- Whether a text is a number of a kind still to come: the letter v, a hexadecimal version, a dot
and something after it. -/
def isFutureNumber (t : Text) : Bool :=
  let (version, rest) := cut '.' (t.drop 1)
  !version.isEmpty && version.all (fun c => (hexValue? c).isSome) && !rest.isEmpty

/-- Refuses a host with brackets that do not match or have no number of the new kind in them. -/
def checkBrackets (host : Text) : Except HostFault Unit :=
  if !host.contains '[' && !host.contains ']' then .ok ()
  else if !(host.contains '[' && host.contains ']') then .error .unbalanced
  else
    let inside := (cut ']' (cut '[' host).2).1
    if inside.head? = some 'v' then
      if isFutureNumber inside then .ok () else .error .futureNumber
    else if isOldNumber inside then .error .oldNumber
    else if isNewNumber inside then .ok ()
    else .error (.notNumber inside)

/-! ## Characters that look like separators -/

/-- The characters that are separators, or contain one, in another form. -/
def lookalikes : List Char :=
  ['\u2047', '\u2048', '\u2049', '\u2100', '\u2101', '\u2105', '\u2106', '\u2A74', '\uFE13',
    '\uFE16', '\uFE55', '\uFE56', '\uFE5F', '\uFE6B', '\uFF03', '\uFF0F', '\uFF1A', '\uFF1F',
    '\uFF20']

/-- Refuses a host with characters that look like separators. -/
def checkLookalikes (host : Text) : Except HostFault Unit :=
  if host.any fun c => lookalikes.contains c then .error (.lookalike host) else .ok ()

/-! ## Names and ports -/

/-- The user of a host, and the host without the user. -/
def splitUser (host : Text) : Text × Text :=
  cutLast '@' host

/-- The name of a host without a user, and what is written as its port. -/
def splitPort (host : Text) : Text × Text :=
  if host.contains '[' then
    let (name, rest) := cut ']' (cut '[' host).2
    (name, (cut ':' rest).2)
  else cut ':' host

/-- Whether a character separates the labels of a name. -/
def isDot (c : Char) : Bool :=
  c == '.' || c == '\u3002' || c == '\uFF0E' || c == '\uFF61'

/-- Refuses a name with a label that is empty or has more than 63 characters. The last label may be
empty. -/
def checkLabels (name : Text) : Except HostFault Unit :=
  let labels := pieces '.' (name.map fun c => if isDot c then '.' else c)
  if labels.dropLast.any fun label => label.isEmpty || label.length > 63 then .error .label
  else if (labels.getLast?.getD []).length > 63 then
    .error (if name.all fun c => c.toNat < 128 then .lastLabel else .label)
  else .ok ()

/-- The number of a port, if one is written. -/
def portOf (port : Text) : Except HostFault (Option Nat) :=
  if port.isEmpty then .ok none
  else if !port.all Char.isDigit then .error (.port port)
  else
    let n := port.foldl (fun n c => 10 * n + (c.toNat - '0'.toNat)) 0
    if n ≤ 65535 then .ok (some n) else .error .portRange

/-- The characters that need no escape in the name of a user. -/
def userSafe : Text :=
  "%!$&'()*+,;=".toList

/-- A user as it is sent, with a separator after it. -/
def sentUser (user : Text) : Text :=
  let (name, password) := cut ':' user
  if name.isEmpty then []
  else
    Percent.encode userSafe name ++
      (if password.isEmpty then [] else ':' :: Percent.encode userSafe password) ++ ['@']

/-- A name in lower case. A zone after a percent sign stays as it is. -/
def lowerName (name : Text) : Text :=
  lower (name.takeWhile fun c => c != '%') ++ name.dropWhile fun c => c != '%'

/-- A host as it is sent: the user, the name and the port, unless it is zero. -/
def sent (host : Text) : Except HostFault Text := do
  let (user, rest) := splitUser host
  let (name, port) := splitPort rest
  let name := lowerName name
  checkLabels name
  let name := if name.contains ':' then '[' :: name ++ [']'] else name
  let port := match ← portOf port with
    | none | some 0 => []
    | some n => ':' :: ofNat n
  return sentUser user ++ name ++ port

/-- Whether a host as it is sent starts with a name that can be looked up. -/
def hasName (host : Text) : Bool :=
  match checkLabels (cut ':' host).1 with
  | .ok _ => true
  | .error _ => false

end Host

end SetupCatalog.Service
