import SetupCatalog.Archive.Unpack
import SetupCatalog.CommandLine.Usage
import SetupCatalog.Discovery
import SetupCatalog.Json.Bytes
import SetupCatalog.Report.Document
import SetupCatalog.Service.Address
import SetupCatalog.Service.Form
import SetupCatalog.Service.Payload
import SetupCatalog.Service.Route
import SetupCatalog.SkipList

/-!
# The service

The service answers two kinds of requests: whether it is healthy, and what packages the scripts of
an inline payload or of an uploaded archive declare. Every other address and every other method is
refused without a body.

A request that cannot even be sent, because of its address or of a header field, has no answer at
all.
-/

namespace SetupCatalog.Service

open Text

/-- The body of a request. -/
inductive Body where
  | none
  /-- Bytes of a content type, with a number of spaces after them. -/
  | raw (contentType : Text) (bytes : List UInt8) (spaces : Nat)

/-- A request. -/
structure Request where
  /-- The method. -/
  method : Text
  /-- The address. -/
  path : Text
  /-- The body. -/
  body : Body

/-- An answer. Without a value its body is empty. -/
structure Response where
  /-- The status code. -/
  status : Nat
  /-- The value that the body holds. -/
  value : Option Json

/-! ## Discovery requests -/

/-- Why a discovery request fails. -/
inductive Fault where
  | payload (e : PayloadFault)
  | nothingSent
  | noFileSelected
  | notArchive
  | archive (e : Archive.Fault)
  | root (e : RootFault)
  | tooLarge
  | tooDeep (container : Json.Container)

namespace Fault

/-- Whether a fault is one of the request, and not of what was done with it. -/
def isBadRequest : Fault → Bool
  | archive e => e.isBadRequest
  | tooLarge | tooDeep _ => false
  | _ => true

/-- The status code of a fault. -/
def status (e : Fault) : Nat :=
  if e.isBadRequest then 400 else 500

/-- The name of a container. -/
def containerName : Json.Container → Text
  | .array => "array".toList
  | .object => "object".toList

/-- What is wrong. -/
def cause : Fault → Text
  | payload e => e.message
  | nothingSent => "Either a 'file' upload or JSON 'scripts' required".toList
  | noFileSelected => "No file selected".toList
  | notArchive => "Only .zip files are supported".toList
  | archive e => e.message
  | root e => e.message
  | tooLarge =>
    "413 Request Entity Too Large: The data value transmitted exceeds the capacity limit.".toList
  | tooDeep container =>
    "maximum recursion depth exceeded while decoding a JSON ".toList ++ containerName container ++
      " from a unicode string".toList

/-- The wording of a fault. -/
def message (e : Fault) : Text :=
  if e.isBadRequest then e.cause else "Processing failed: ".toList ++ e.cause

/-- The answer to a request that fails. -/
def response (e : Fault) : Response :=
  ⟨e.status, some (.object [("error".toList, .text e.message)])⟩

end Fault

/-- The largest body that is accepted, in bytes. -/
def maxBody : Nat := 10 * 1024 * 1024

/-- How many containers may be nested in a payload. -/
def maxNesting : Nat := 979

/-- Whether a media type is that of JSON documents. -/
def isJsonType (type : Text) : Bool :=
  type == "application/json".toList ||
    ("application/".toList.isPrefixOf type && "+json".toList.isSuffixOf type)

/-- Bytes with the spaces after them. Of the spaces only the first few can matter, which the
encoding may be told by. -/
def withSpaces (bytes : List UInt8) (spaces : Nat) : List UInt8 :=
  bytes ++ List.replicate (min spaces 4) 0x20

/-- The value of a body. What cannot be read counts as an empty object, and so does a value that is
as good as absent. -/
def valueOf (bytes : List UInt8) : Except Fault Json :=
  match Json.readBytes maxNesting bytes with
  | .ok v => .ok (if v.isVoid then .object [] else v)
  | .error .invalid => .ok (.object [])
  | .error (.tooDeep container) => .error (.tooDeep container)

/-- The report on scripts, given the remarks so far. -/
def reportOn (sources : List Source) (remarks : List Text) : Json :=
  let catalog := Catalog.build sources {}
  let remarks := remarks ++ catalog.remarks
  .object
    [("success".toList, .bool true),
      ("report".toList, Report.toJson (SkipList.standard.outcomes catalog.packages) remarks),
      ("warnings".toList, .array (remarks.map Json.text))]

/-- Where archives are unpacked. -/
def scriptsBelow (workspace : Location) : Location :=
  workspace ++ ["scripts".toList]

/-- A disk with nothing but the folder for the scripts. -/
def freshDisk (workspace : Location) : Except DiskError Disk :=
  Disk.makeFolders ⟨.empty, workspace⟩ (.ofLocation (scriptsBelow workspace))

/-- The report on the scripts of an uploaded archive. -/
def reportOnArchive (workspace : Location) (bytes : List UInt8) : Except Fault Json := do
  let disk ← (freshDisk workspace).mapError fun e => .archive (.disk e)
  let base := scriptsBelow workspace
  let disk ← (Archive.unpack base disk bytes).mapError .archive
  let found := Discovery.ofDisk disk (.ofLocation base) [] Discovery.recommendedLimit
  let (sources, found) := (← found.mapError .root).load disk
  return reportOn sources found.remarks

/-- The file that a form uploads for a discovery, if the form has a boundary and can be read. -/
def uploadedFile? (type : HeaderField) (bytes : List UInt8) :
    Except Fault (Option Form.FileUpload) :=
  match type.get? "boundary" with
  | none | some [] => .ok none
  | some boundary =>
    if boundary.any fun c => 128 ≤ c.toNat then .ok none
    else match Form.read (Utf8.encode boundary) bytes with
      | .ok parts => .ok (Form.file? parts "file".toList)
      | .error .broken => .ok none
      | .error .tooManyParts => .error .tooLarge

/-- The report that a discovery request asks for. -/
def discover (workspace : Location) : Body → Except Fault Json
  | .none => throw .nothingSent
  | .raw contentType bytes spaces => do
    if contentType ≠ [] ∧ bytes.length + spaces > maxBody then throw .tooLarge
    let type := HeaderField.ofText contentType
    let mediaType := lower type.value
    let bytes := withSpaces bytes spaces
    if isJsonType mediaType then
      let sources ← (sourcesOf (← valueOf bytes)).mapError .payload
      return reportOn sources []
    if mediaType ≠ "multipart/form-data".toList then throw .nothingSent
    match ← uploadedFile? type bytes with
    | none => throw .nothingSent
    | some file =>
      if file.filename.isEmpty then throw .noFileSelected
      if !".zip".toList.isSuffixOf file.filename then throw .notArchive
      reportOnArchive workspace file.content

/-! ## Requests -/

/-- Why a request cannot be sent. -/
inductive RequestFault where
  | host (e : HostFault)
  /-- The content type has a line break in it. -/
  | lineBreak
  deriving DecidableEq, Repr

/-- The wording of a fault. -/
def RequestFault.message : RequestFault → Text
  | host e => e.message
  | lineBreak => "Header values must not contain newline characters.".toList

/-- Whether a body can be sent with its content type. -/
def Body.isSendable : Body → Bool
  | none => true
  | raw contentType _ _ => !contentType.any isLineEnd

/-- The answer to the question for the health of the service. -/
def healthy : Json :=
  .object [("status".toList, .text "healthy".toList),
    ("version".toList, .text CommandLine.versionNumber)]

/-- The answer of a resource. -/
def answer (workspace : Location) (body : Body) : Resource → Method → Response
  | _, .options => ⟨200, none⟩
  | .health, .head => ⟨200, none⟩
  | .health, _ => ⟨200, some healthy⟩
  | .plainFile, _ => ⟨404, none⟩
  | .discovery, _ =>
    match discover workspace body with
    | .ok v => ⟨200, some v⟩
    | .error e => e.response

/-- The answer to a request. Archives are unpacked below the given folder. -/
def respond (workspace : Location) (r : Request) : Except RequestFault Response := do
  let address ← (Address.ofText r.path).mapError .host
  if !r.body.isSendable then throw .lineBreak
  if !Host.hasName address.host then return ⟨400, none⟩
  match Route.ofRequest address.scheme (Method.ofName? r.method) address.path with
  | .resource resource method => return answer workspace r.body resource method
  | .moved => return ⟨308, none⟩
  | .wrongMethod => return ⟨405, none⟩
  | .wrongScheme => return ⟨400, none⟩
  | .nowhere => return ⟨404, none⟩

end SetupCatalog.Service
