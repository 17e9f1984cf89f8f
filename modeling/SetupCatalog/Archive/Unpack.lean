import SetupCatalog.Archive.Member
import SetupCatalog.Disk.Basic

/-!
# Unpacking archives

Before anything is unpacked, every path is checked: none may be absolute or lead upwards. Unpacking
makes the folders that are missing and stores the members in order. Of several members with one path
the last one counts, wherever one of them is listed.
-/

namespace SetupCatalog.Archive

namespace Member

/-- Whether a member is a folder, if it has a name. -/
def isFolder? (m : Member) : Option Bool :=
  m.name.getLast?.map fun c => c == '/'

/-- Whether a member may be unpacked: its path is relative and does not lead upwards. -/
def isSafe (m : Member) : Bool :=
  m.name.head? != some '/' && !(Text.pieces '/' m.name).contains "..".toList

/-- Where a member is unpacked, below the given folder. -/
def target (base : Location) (m : Member) : WrittenPath :=
  .ofLocation (base ++ (WrittenPath.partsOf m.name).filter fun part => part != "..".toList)

end Member

/-- What an operation on a disk gives. -/
def onDisk (r : Except DiskError α) : Except Fault α :=
  r.mapError .disk

/-- The disk with the folders of a path, given by its parts from the last to the first, made from
the first missing one on. -/
def makeMissing (disk : Disk) : List Text → Except DiskError Disk
  | [] => .ok disk
  | part :: parts => do
    let above := WrittenPath.ofLocation parts.reverse
    let disk ← if disk.isThere above then .ok disk else makeMissing disk parts
    disk.makeFolder (.ofLocation (part :: parts).reverse)

/-- The disk after a member has been unpacked below a folder. The file is there before its content
is read. -/
def unpackMember (base : Location) (disk : Disk) (m : Member) : Except Fault Disk := do
  let p := m.target base
  let disk ←
    if disk.isThere p.parent then pure disk
    else onDisk (makeMissing disk p.parent.parts.reverse)
  match m.isFolder? with
  | none => throw .nameless
  | some true => if disk.isFolder p then return disk else onDisk (disk.makeFolder p)
  | some false =>
    let content ← m.opened
    let disk ← onDisk (disk.write p [])
    onDisk (disk.write p (← content))

/-- The members that are unpacked: in the place of each one that is listed, the last one with its
path. -/
def effective (members : List Member) : List Member :=
  members.map fun m => ((members.filter fun n => n.name == m.name).getLast?).getD m

/-- The disk after an archive has been unpacked below a folder. -/
def unpack (base : Location) (disk : Disk) (bytes : List UInt8) : Except Fault Disk := do
  let members ← membersOf bytes
  match members.find? fun m => !m.isSafe with
  | some m => throw (.unsafePath m.name)
  | none => (effective members).foldlM (unpackMember base) disk

end SetupCatalog.Archive
