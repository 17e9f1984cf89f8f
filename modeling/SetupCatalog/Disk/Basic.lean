import SetupCatalog.Disk.Error
import SetupCatalog.Disk.Folder
import SetupCatalog.Text.Utf8

/-!
# Disks

A disk is a tree of folders together with the folder that relative paths start in.

* `locate` follows a path as opening a file does: every folder on the way must be there, and no more
  than `maxLinks` links are followed.
* `resolve` follows links and double dots as far as they go, however many links that are, and never
  fails. A link that is met while it is being followed itself stays where it is.
* `read`, `write` and `makeFolders` work on files and folders and name the fault where they fail.
-/

namespace SetupCatalog

/-- What reading the file at a location gives, wherever the files are. -/
abbrev Files := Location → Except FileFault (List UInt8)

/-- A tree of folders and the folder that relative paths start in. -/
structure Disk where
  /-- Everything on the disk. -/
  top : Folder
  /-- Where relative paths start. -/
  start : Location

namespace Disk

/-- How many links are followed on the way through a path. -/
def maxLinks : Nat := 40

/-- How many bytes a name may have in UTF-8. -/
def maxName : Nat := 255

/-- How many bytes a path may have in UTF-8. -/
def maxPath : Nat := 4095

/-- Whether a name is too long for a disk. -/
def isTooLong (name : Text) : Bool :=
  (Text.Utf8.encode name).length > maxName

/-- Whether a path is too long as it is written. -/
def isPathTooLong (p : WrittenPath) : Bool :=
  (Text.Utf8.encode p.text).length > maxPath

/-- Where the parts of a path start. -/
def origin (disk : Disk) (p : WrittenPath) : Location :=
  if p.absolute then [] else disk.start

/-! ## Following paths -/

/-- Follows the parts of a path from a location, through no more than `links` links. All but the
last part must be there, and none may be too long. -/
def locateFrom (top : Folder) (links : Nat) (here : Location) (parts : List Text) :
    Except DiskFault Location :=
  match parts with
  | [] => .ok here
  | part :: parts =>
    match top.at? here with
    | none => .error .notFound
    | some (.folder inside) =>
      if part = ['.'] then locateFrom top links here parts
      else if part = "..".toList then locateFrom top links here.dropLast parts
      else if isTooLong part then .error .nameTooLong
      -- only an entry that is looked up can be too long; the dots are always there
      else match inside.get? part, links with
        | some (.link _), 0 => .error .linkLoop
        | some (.link target), links + 1 =>
          let start := if (WrittenPath.ofText target).absolute then [] else here
          locateFrom top links start (WrittenPath.partsOfTarget target ++ parts)
        -- what is not a link is passed by its name; that it is there is asked at the next part
        | _, links => locateFrom top links (here ++ [part]) parts
    | some _ => .error .notFolder
termination_by (links, parts.length)

/-- The location that a path leads to. The entry itself need not be there. -/
def locate (disk : Disk) (p : WrittenPath) : Except DiskFault Location :=
  if isPathTooLong p then .error .nameTooLong
  else locateFrom disk.top maxLinks (disk.origin p) p.parts

/-- What a path leads to. -/
def node? (disk : Disk) (p : WrittenPath) : Option Node :=
  match disk.locate p with
  | .ok l => disk.top.at? l
  | .error _ => none

/-- Whether a path leads to something. -/
def isThere (disk : Disk) (p : WrittenPath) : Bool :=
  (disk.node? p).isSome

/-- The folder that a path leads to. -/
def folder? (disk : Disk) (p : WrittenPath) : Option Folder :=
  match disk.node? p with
  | some (.folder inside) => some inside
  | _ => none

/-- Whether a path leads to a folder. -/
def isFolder (disk : Disk) (p : WrittenPath) : Bool :=
  (disk.folder? p).isSome

/-- Follows the parts of a path from a location, whether they are there or not. `follow` finds what
a link at the first location stands for, if it lies in the folder at the second. Where that is
itself, the way so far and the parts that remain are the error. -/
def resolveFrom (top : Folder)
    (follow : Location → Location → Text → Except (List Text) Location) (here : Location) :
    List Text → Except (List Text) Location
  | [] => .ok here
  | part :: parts =>
    if part = "..".toList then resolveFrom top follow here.dropLast parts
    else
      let there := here ++ [part]
      match top.at? there with
      | some (.link target) =>
        match follow there here target with
        | .ok l => resolveFrom top follow l parts
        -- a link into itself: what is left of the path is kept as it is written
        | .error way => .error (way ++ parts)
      | _ => resolveFrom top follow there parts

/-- What a link at a location stands for, if it lies in the given folder. The links that are being
followed are `pending`; there are at most as many as the tree has. -/
def resolveLink (top : Folder) :
    (links : Nat) → (pending : List Location) → Location → Location → Text →
      Except (List Text) Location
  | 0, _, link, _, _ => .error link
  | links + 1, pending, link, here, target =>
    if pending.contains link then .error link
    else
      let p := WrittenPath.ofText target
      resolveFrom top (resolveLink top links (link :: pending)) (if p.absolute then [] else here)
        p.parts

/-- The location that a path stands for once its links and double dots are resolved. -/
def resolve (disk : Disk) (p : WrittenPath) : Location :=
  let follow := resolveLink disk.top (disk.top.linkCount + 1) []
  match resolveFrom disk.top follow (disk.origin p) p.parts with
  | .ok l => l
  | .error way => withoutDoubleDots [] way

/-! ## Reading and writing -/

/-- The content of the file that a path leads to. -/
def read (disk : Disk) (p : WrittenPath) : Except DiskFault (List UInt8) := do
  let l ← disk.locate p
  match disk.top.at? l with
  | some (.file content) => return content
  | some (.folder _) => throw .isFolder
  | some (.link _) | none => throw .notFound

/-- What reading the file at a path gives. -/
def content (disk : Disk) (p : WrittenPath) : Except FileFault (List UInt8) :=
  (disk.read p).mapError .disk

/-- What reading gives at every location. -/
def files (disk : Disk) : Files :=
  fun l => disk.content (.ofLocation l)

/-- The disk with something else stored at a location. -/
def store (disk : Disk) (l : Location) (node : Node) : Disk :=
  match l.getLast? with
  | some name => { disk with top := disk.top.change (Folder.put name node) l.dropLast }
  | none => disk

/-- The disk with the given content in the file that a path leads to. -/
def write (disk : Disk) (p : WrittenPath) (content : List UInt8) : Except DiskError Disk :=
  match disk.locate p with
  | .error fault => .error ⟨fault, p⟩
  | .ok l =>
    match disk.top.at? l with
    | some (.folder _) => .error ⟨.isFolder, p⟩
    | _ => .ok (disk.store l (.file content))

/-- The disk without what is stored at a location. -/
def remove (disk : Disk) (l : Location) : Disk :=
  match l.getLast? with
  | some name => { disk with top := disk.top.change (Folder.erase name) l.dropLast }
  | none => disk

/-- The disk with a new folder at a path. The folder around it must be there, and nothing may be
there yet, not even a link. -/
def makeFolder (disk : Disk) (p : WrittenPath) : Except DiskError Disk :=
  if isPathTooLong p then .error ⟨.nameTooLong, p⟩
  else match disk.locate p.parent with
  | .error fault => .error ⟨fault, p⟩
  | .ok l =>
    match disk.top.at? l, p.parts.getLast? with
    | some (.folder inside), some name =>
      if name = "..".toList || (inside.get? name).isSome then .error ⟨.exists, p⟩
      else if isTooLong name then .error ⟨.nameTooLong, p⟩
      else .ok (disk.store (l ++ [name]) (.folder .empty))
    | some (.folder _), none => .error ⟨.exists, p⟩
    | some _, _ => .error ⟨.notFolder, p⟩
    | none, _ => .error ⟨.notFound, p⟩

/-- The disk with a new link at a path. -/
def makeLink (disk : Disk) (p : WrittenPath) (target : Text) : Except DiskError Disk :=
  if isPathTooLong p then .error ⟨.nameTooLong, p⟩
  else match disk.locate p.parent with
  | .error fault => .error ⟨fault, p⟩
  | .ok l =>
    match disk.top.at? l, p.parts.getLast? with
    | some (.folder inside), some name =>
      if (inside.get? name).isSome then .error ⟨.exists, p⟩
      else if isTooLong name then .error ⟨.nameTooLong, p⟩
      else .ok (disk.store (l ++ [name]) (.link target))
    | some (.folder _), none => .error ⟨.exists, p⟩
    | some _, _ => .error ⟨.notFolder, p⟩
    | none, _ => .error ⟨.notFound, p⟩

/-- The disk with a new folder at a path; a folder that is there already will do. -/
def ensureFolder (disk : Disk) (p : WrittenPath) : Except DiskError Disk :=
  match disk.makeFolder p, disk.locate p with
  | .ok disk, _ => .ok disk
  -- a missing folder around the path is passed on, since it can be made first
  | .error ⟨.notFound, p⟩, _ => .error ⟨.notFound, p⟩
  | .error _, .error .nameTooLong => .error ⟨.nameTooLong, p⟩
  | .error e, _ => if disk.isFolder p then .ok disk else .error e

/-- An operation that was stopped on its way: the error, and the disk as it was left. -/
structure Stopped where
  /-- What went wrong. -/
  error : DiskError
  /-- The disk with all that had been done before. -/
  disk : Disk

/-- What a single step gives, when the disk before it is left if it fails. -/
def orStopped (disk : Disk) (r : Except DiskError Disk) : Except Stopped Disk :=
  r.mapError (⟨·, disk⟩)

/-- The disk with the folders of a path, which is given by its parts from the last to the first. A
folder is made after the one around it only if that is missing, and it stays if a folder inside of
it cannot be made. -/
def makeFoldersFrom (disk : Disk) (absolute : Bool) : List Text → Except Stopped Disk
  | [] => disk.orStopped (disk.ensureFolder ⟨absolute, []⟩)
  | part :: parts =>
    let p : WrittenPath := ⟨absolute, (part :: parts).reverse⟩
    match disk.ensureFolder p with
    -- the folder around it is missing, so that one is made first
    | .error ⟨.notFound, _⟩ => do
      let around ← makeFoldersFrom disk absolute parts
      around.orStopped (around.ensureFolder p)
    | result => disk.orStopped result

/-- The disk with the folder at a path and all the folders around it, or with those that could be
made. -/
def tryFolders (disk : Disk) (p : WrittenPath) : Except Stopped Disk :=
  makeFoldersFrom disk p.absolute p.parts.reverse

/-- The disk with the folder at a path and all the folders around it. -/
def makeFolders (disk : Disk) (p : WrittenPath) : Except DiskError Disk :=
  (disk.tryFolders p).mapError Stopped.error

end Disk

end SetupCatalog
