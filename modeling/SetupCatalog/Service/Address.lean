import SetupCatalog.Service.Host

/-!
# Addresses

A request names an address: a path, perhaps with a scheme and a host before it and a query and a
fragment after it. `Url.ofText` takes such an address apart.

A service is asked on its own host for a path. That path is found by taking the address apart and
then twice more the path that is left, since a path may look like an address again.
-/

namespace SetupCatalog.Service

open Text

/-- The parts of an address. -/
structure Url where
  /-- The scheme, in lower case. -/
  scheme : Option Text
  /-- The host, with a port and a user if they are given. -/
  host : Text
  /-- The path. -/
  path : Text
  /-- The query. -/
  query : Text
  deriving DecidableEq, Repr

namespace Url

/-- Whether a character at the start of an address is passed over: a control or a space. -/
def isSkipped (c : Char) : Bool :=
  c.toNat ≤ 32

/-- Whether a character is dropped from an address wherever it is. -/
def isDropped (c : Char) : Bool :=
  c == '\t' || c == '\n' || c == '\r'

/-- Whether a character can be in a scheme. -/
def isSchemeChar (c : Char) : Bool :=
  c.isAlphanum || c == '+' || c == '-' || c == '.'

/-- The scheme of an address, if it has one, and the text after its colon. -/
def splitScheme (t : Text) : Option Text × Text :=
  let (scheme, rest) := cut ':' t
  if t.contains ':' && (t.head?.any Char.isAlpha) && scheme.all isSchemeChar then
    (some (scheme.map Char.toLower), rest)
  else (none, t)

/-- Whether a character ends a host. -/
def endsHost (c : Char) : Bool :=
  c == '/' || c == '?' || c == '#'

/-- The host that a text names after two slashes, and the text after it. -/
def splitHost : Text → Text × Text
  | '/' :: '/' :: t => (t.takeWhile fun c => !endsHost c, t.dropWhile fun c => !endsHost c)
  | t => ([], t)

/-- The parts of an address. -/
def ofText (t : Text) : Except HostFault Url := do
  let t := (t.dropWhile isSkipped).filter fun c => !isDropped c
  let (scheme, t) := splitScheme t
  let (host, t) := splitHost t
  Host.checkBrackets host
  let (path, query) := cut '?' (cut '#' t).1
  Host.checkLookalikes host
  return ⟨scheme, host, path, query⟩

end Url

/-- Where a request goes. -/
structure Address where
  /-- The scheme. -/
  scheme : Text
  /-- The host, with a port and a user if they are given, as it is sent. -/
  host : Text
  /-- The path, without escapes. -/
  path : Text
  deriving DecidableEq, Repr

namespace Address

/-- The path of an address that is asked for as a path. If a host is before it the two stay
together, and a scheme stays in any case. -/
def pathOf (url : Url) : Text :=
  let path :=
    if url.host.isEmpty && !"//".toList.isPrefixOf url.path then url.path
    else
      let slash := if url.path.isEmpty || url.path.head? = some '/' then [] else ['/']
      "//".toList ++ url.host ++ slash ++ url.path
  match url.scheme with
  | some scheme => scheme ++ ':' :: path
  | none => path

/-- The address that a text names. Its own host is called `localhost`. -/
def ofText (t : Text) : Except HostFault Address := do
  let url ← Url.ofText t
  let path := if url.query.isEmpty then url.path else url.path ++ '?' :: url.query
  let path := (← Url.ofText path).path
  let inner ← Url.ofText path
  let innerHost ← Host.sent inner.host
  let host ← Host.sent (if url.host.isEmpty then "localhost".toList else url.host)
  Host.checkBrackets host
  let path := pathOf { inner with host := innerHost }
  return ⟨url.scheme.getD "http".toList, host, Percent.decode Utf8.decodeReplacing path⟩

end Address

end SetupCatalog.Service
