import SetupCatalog.Archive.Checksum
import SetupCatalog.Archive.Description

/-!
# The members of an archive

A member is a name and what opening it gives. Opening may fail; what has been opened may still turn
out to be broken while it is read.

`membersOf` reads the members from the bytes of an archive, and `write` writes an archive with given
members.
-/

namespace SetupCatalog.Archive

/-- A member of an archive. -/
structure Member where
  /-- The path of the member; that of a folder ends in a slash. -/
  name : Text
  /-- What opening the member gives: its content, as far as that can be read. -/
  opened : Except Fault (Except Fault (List UInt8))

/-! ## Reading -/

/-- The bytes that a member starts with. -/
def memberSignature : List UInt8 := [0x50, 0x4B, 0x03, 0x04]

/-- The size of the header of a member without its name and the fields after that. -/
def memberSize : Nat := 30

/-- The greatest position that can be asked for. -/
def maxPosition : Nat := Nat.pow 2 63 - 1

/-- The bytes of an archive from a position on. -/
def bytesFrom (bytes : List UInt8) (position : Int) : Except Fault (List UInt8) :=
  if maxPosition < position.natAbs then .error .tooFar
  else if position < 0 then .error (.beforeStart position.natAbs)
  else .ok (bytes.drop position.toNat)

/-- The content that bytes were packed from. Content that goes beyond its size is cut off, and it
must have its checksum. -/
def contentOf (e : Entry) (available : List UInt8) : Except Fault (List UInt8) := do
  let packed := available.take e.packedSize
  let (content, isOver) ←
    if e.method = 0 then pure (packed, false)
    else
      match inflate packed with
      | (_, some (.fault fault)) => throw (.packedContent fault)
      | (content, stop) => pure (content, stop.isNone)
  if packed.length < e.packedSize && (packed.isEmpty || (!isOver && content.length < e.size)) then
    throw .endOfBytes
  let content := content.take e.size
  if (checksum content).toNat = e.checksum then return content else throw .corrupted

/-- What opening the member of an entry gives. -/
def openMember (bytes : List UInt8) (p : Placed) : Except Fault (Except Fault (List UInt8)) := do
  let e := p.entry
  let here ← bytesFrom bytes e.offset
  if here.length < memberSize || !memberSignature.isPrefixOf here then throw .corrupted
  let header := here.take memberSize
  let nameSize := field header 26 2
  if hasBit e.flags 0x20 then throw .patchedData
  if hasBit e.flags 0x40 then throw .strongEncryption
  let name ← nameText (field header 6 2) (piece here memberSize nameSize)
  if name ≠ e.listedName then throw .corrupted
  let start := memberSize + nameSize + field header 28 2
  if e.offset + min start here.length + e.packedSize > p.limit then throw .corrupted
  if e.isEncrypted then throw (.encrypted e.description)
  if e.method ≠ 0 && e.method ≠ 8 then throw .unknownMethod
  return contentOf e (here.drop start)

/-- The member of an entry. -/
def memberOf (bytes : List UInt8) (p : Placed) : Member :=
  ⟨p.entry.name, openMember bytes p⟩

/-- The members of an archive in the order in which they are listed. -/
def membersOf (bytes : List UInt8) : Except Fault (List Member) := do
  return (← directory bytes).map (memberOf bytes)

/-! ## Writing -/

/-- A file that is put into an archive. -/
structure File where
  /-- The path of the file. -/
  name : Text
  /-- The content of the file. -/
  content : List UInt8

namespace File

/-- The bytes of the name of a file. -/
def nameBytes (f : File) : List UInt8 :=
  Text.Utf8.encode f.name

/-- The fields that the headers of a member have in common: the version that is needed, the mark of
a name in Unicode, no packing, the first day of the format, the checksum and the sizes. -/
def commonFields (f : File) : List UInt8 :=
  bytesOf 2 20 ++ bytesOf 2 0x800 ++ bytesOf 2 0 ++ bytesOf 2 0 ++ bytesOf 2 0x21 ++
    bytesOf 4 (checksum f.content).toNat ++ bytesOf 4 f.content.length ++
    bytesOf 4 f.content.length ++ bytesOf 2 f.nameBytes.length ++ bytesOf 2 0

/-- The bytes of a member. -/
def member (f : File) : List UInt8 :=
  memberSignature ++ f.commonFields ++ f.nameBytes ++ f.content

/-- The header of a member that starts at a position, in the directory. -/
def header (position : Nat) (f : File) : List UInt8 :=
  entrySignature ++ bytesOf 2 0x314 ++ f.commonFields ++ bytesOf 2 0 ++ bytesOf 2 0 ++
    bytesOf 2 0 ++ bytesOf 4 0 ++ bytesOf 4 position ++ f.nameBytes

end File

/-- The directory of files, the first of which starts at a position. -/
def headers (position : Nat) : List File → List UInt8
  | [] => []
  | f :: files => f.header position ++ headers (position + f.member.length) files

/-- The archive with the given files. -/
def write (files : List File) : List UInt8 :=
  let members := files.flatMap File.member
  let entries := headers 0 files
  members ++ entries ++ endSignature ++ bytesOf 4 0 ++ bytesOf 2 files.length ++
    bytesOf 2 files.length ++ bytesOf 4 entries.length ++ bytesOf 4 members.length ++ bytesOf 2 0

end SetupCatalog.Archive
