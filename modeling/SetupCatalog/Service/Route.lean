import SetupCatalog.Text.Capital
import SetupCatalog.Text.Cut

/-!
# Routes

What the paths of the service stand for, and the methods that each of them allows. A path that would
stand for something if its double slashes were single ones has moved.
-/

namespace SetupCatalog.Service

open Text

/-- The methods that the service knows. -/
inductive Method where
  | get
  | head
  | post
  | options
  deriving DecidableEq, Repr

/-- The method with a name, in any letter case. -/
def Method.ofName? (name : Text) : Option Method :=
  [("GET".toList, get), ("HEAD".toList, head), ("POST".toList, post),
    ("OPTIONS".toList, options)].lookup (capitals name)

/-- What a path of the service can stand for. -/
inductive Resource where
  | health
  | discovery
  /-- A file to be handed out as it is. The service has none. -/
  | plainFile
  deriving DecidableEq, Repr

namespace Resource

/-- The methods that a resource allows. -/
def methods : Resource → List Method
  | health | plainFile => [.get, .head, .options]
  | discovery => [.post, .options]

/-- Whether a text can be the path of a plain file: it is not empty, does not start with a slash and
has no line feed after its first character. -/
def isFilePath : Text → Bool
  | [] => false
  | c :: t => c != '/' && !t.contains '\n'

/-- What a path stands for. -/
def ofPath? (path : Text) : Option Resource :=
  if path = "/api/health".toList then some health
  else if path = "/api/discover".toList then some discovery
  else if (dropPrefix? "/static/".toList path).any isFilePath then some plainFile
  else none

end Resource

/-- Where a request leads. -/
inductive Route where
  | resource (r : Resource) (m : Method)
  /-- The path has moved to one with fewer slashes. -/
  | moved
  | wrongMethod
  /-- The resource is not for connections that stay open. -/
  | wrongScheme
  | nowhere
  deriving DecidableEq, Repr

/-- A path with one slash at its start, unless it is empty. -/
def withSlash (path : Text) : Text :=
  if path.isEmpty then [] else '/' :: path.dropWhile fun c => c == '/'

/-- A path in which each pair of slashes is one. -/
def withSingleSlashes (path : Text) : Text :=
  replaceAll ['/', '/'] ['/'] path

/-- Whether a scheme is that of connections that stay open. -/
def staysOpen (scheme : Text) : Bool :=
  scheme == "ws".toList || scheme == "wss".toList

/-- The method, if a resource is there and allows it. -/
def allowed? (resource : Option Resource) (method : Option Method) : Option (Resource × Method) :=
  match resource, method with
  | some r, some m => if r.methods.contains m then some (r, m) else none
  | _, _ => none

/-- Where a request for a path leads. -/
def Route.ofRequest (scheme : Text) (method : Option Method) (path : Text) : Route :=
  let path := withSlash path
  let first := Resource.ofPath? path
  let second := Resource.ofPath? (withSingleSlashes path)
  match allowed? first method, allowed? second method with
  | some (r, m), _ => if staysOpen scheme then .wrongScheme else .resource r m
  | none, some _ => if staysOpen scheme then .wrongScheme else .moved
  | none, none => if first.isSome || second.isSome then .wrongMethod else .nowhere

end SetupCatalog.Service
