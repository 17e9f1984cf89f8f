import SetupCatalog.Archive.CodePage
import SetupCatalog.Archive.Fault
import SetupCatalog.Archive.Record

/-!
# The directory of an archive

An archive ends in a record that says how large its directory is and where it would start if nothing
were before the archive. The directory itself ends where that record starts, so the difference tells
how many other bytes are before the archive. A large archive has a second such record with wider
fields, and a locator between the two.

The directory has a header for each member. `Entry` is what a header says.
-/

namespace SetupCatalog.Archive

/-! ## The end record -/

/-- The bytes that an end record starts with. -/
def endSignature : List UInt8 := [0x50, 0x4B, 0x05, 0x06]

/-- The bytes that the end record of a large archive starts with. -/
def wideEndSignature : List UInt8 := [0x50, 0x4B, 0x06, 0x06]

/-- The bytes that a locator starts with. -/
def locatorSignature : List UInt8 := [0x50, 0x4B, 0x06, 0x07]

/-- The size of an end record without the comment after it. -/
def endSize : Nat := 22

/-- The size of the end record of a large archive. -/
def wideEndSize : Nat := 56

/-- The size of a locator. -/
def locatorSize : Nat := 20

/-- The size of the longest comment, and one more. -/
def commentLimit : Nat := 65536

/-- How many bytes come before the last occurrence of the signature of an end record. -/
def lastEnd : List UInt8 → Option Nat
  | [] => none
  | b :: bytes =>
    match lastEnd bytes with
    | some position => some (position + 1)
    | none => if endSignature.isPrefixOf (b :: bytes) then some 0 else none

/-- Where the end record starts: just so far before the end that there is no comment if that is an
end record without one, and else at the last signature that a comment may come after. -/
def endPosition? (bytes : List UInt8) : Option Nat :=
  let plain := bytes.length - endSize
  let record := bytes.drop plain
  if record.length = endSize && endSignature.isPrefixOf record && field record 20 2 = 0 then
    some plain
  else do
    -- a comment may follow, or bytes that only look like one
    let searched := bytes.length - (commentLimit + endSize)
    let position ← lastEnd (bytes.drop searched)
    if searched + position + endSize ≤ bytes.length then some (searched + position) else none

/-- What the end of an archive says about the directory. -/
structure DirectoryPlace where
  /-- Where the directory starts. -/
  start : Nat
  /-- How many bytes it has. -/
  size : Nat
  /-- Where it would start if nothing were before the archive. -/
  claimed : Nat
  deriving DecidableEq, Repr

/-- The bytes of a record at a position, if they are all there and start with the signature. -/
def recordAt? (bytes : List UInt8) (position size : Nat) (signature : List UInt8) :
    Option (List UInt8) :=
  let record := piece bytes position size
  if record.length = size && signature.isPrefixOf record then some record else none

/-- The end record of a large archive whose other end record is at a position, if there is one. An
archive in several volumes is refused. -/
def wideEnd? (bytes : List UInt8) (position : Nat) : Except Fault (Option (List UInt8)) :=
  match recordAt? bytes (position - locatorSize) locatorSize locatorSignature with
  | none => .ok none
  | some locator =>
    if field locator 4 4 ≠ 0 || field locator 16 4 > 1 then .error .corrupted
    else .ok (recordAt? bytes (position - locatorSize - wideEndSize) wideEndSize wideEndSignature)

/-- The place of a directory of the given size that ends at a position. -/
def DirectoryPlace.before (position size claimed : Nat) : Except Fault DirectoryPlace :=
  if size ≤ position then .ok ⟨position - size, size, claimed⟩ else .error .corrupted

/-- The place of the directory. -/
def directoryPlace (bytes : List UInt8) : Except Fault DirectoryPlace :=
  match endPosition? bytes with
  | none => .error .corrupted
  | some position => do
    match ← wideEnd? bytes position with
    | some record =>
      -- both records of a large archive stand before the end record
      if position < locatorSize + wideEndSize then throw .corrupted
      DirectoryPlace.before (position - locatorSize - wideEndSize) (field record 40 8)
        (field record 48 8)
    | none =>
      let record := bytes.drop position
      DirectoryPlace.before position (field record 12 4) (field record 16 4)

/-! ## Entries -/

/-- What the directory says about a member. -/
structure Entry where
  /-- The name as it is listed. -/
  listedName : Text
  /-- The flags. -/
  flags : Nat
  /-- How the content is packed. -/
  method : Nat
  /-- The checksum of the content. -/
  checksum : Nat
  /-- The size of the packed content. -/
  packedSize : Nat
  /-- The size of the content. -/
  size : Nat
  /-- The attributes of the file. -/
  attributes : Nat
  /-- Where the member starts. -/
  offset : Int
  deriving DecidableEq, Repr

namespace Entry

/-- The name of a member: what is listed, up to the first zero character. -/
def name (e : Entry) : Text :=
  e.listedName.takeWhile fun c => c != '\x00'

/-- Whether a member is encrypted. -/
def isEncrypted (e : Entry) : Bool :=
  hasBit e.flags 1

/-- Whether a member is a folder. -/
def isFolder (e : Entry) : Bool :=
  e.name.getLast? == some '/'

end Entry

/-- The text of a name: in Unicode if the flags say so, and else in the code page. -/
def nameText (flags : Nat) (bytes : List UInt8) : Except Fault Text :=
  if hasBit flags 0x800 then (Text.Utf8.read bytes).mapError .undecodableName
  else .ok (codePageText bytes)

/-- A number that does not fit into four bytes, as it is written. -/
def wideMark : Nat := 0xFFFFFFFF

/-- A number with eight bytes at the start of bytes. -/
def wideNumber (bytes : List UInt8) : Except Fault Nat :=
  if bytes.length < 8 then .error .corrupted else .ok (number (bytes.take 8))

/-- An entry with the numbers from an extra field for those that do not fit into four bytes. They
are in a fixed order, and only those that are needed are there. -/
def withWideNumbers (e : Entry) (extra : List UInt8) : Except Fault Entry := do
  let (e, extra) ←
    if e.size = wideMark || e.size = 0xFFFFFFFFFFFFFFFF then do
      pure ({ e with size := ← wideNumber extra }, extra.drop 8)
    else pure (e, extra)
  let (e, extra) ←
    if e.packedSize = wideMark then do
      pure ({ e with packedSize := ← wideNumber extra }, extra.drop 8)
    else pure (e, extra)
  if e.offset = wideMark then return { e with offset := ← wideNumber extra } else return e

/-- An entry with what its extra fields add to it. The fuel bounds the number of the fields. -/
def withExtra (e : Entry) : (fuel : Nat) → (extra : List UInt8) → Except Fault Entry
  | 0, _ => .ok e
  | fuel + 1, extra =>
    if extra.length < 4 then .ok e
    else
      let size := field extra 2 2
      if extra.length < 4 + size then .error .corrupted
      else do
        let e ← if field extra 0 2 = 1 then withWideNumbers e (piece extra 4 size) else pure e
        withExtra e fuel (extra.drop (4 + size))

/-- The bytes that the header of an entry starts with. -/
def entrySignature : List UInt8 := [0x50, 0x4B, 0x01, 0x02]

/-- The size of the header of an entry without its name and the fields after that. -/
def entrySize : Nat := 46

/-- The newest version of the format that can be read. -/
def maxVersion : Nat := 63

/-- The entry that a header stands for, given the bytes after the header and how many bytes are
before the archive. -/
def entryOf (header after : List UInt8) (shift : Int) : Except Fault Entry := do
  let nameSize := field header 28 2
  let listedName ← nameText (field header 8 2) (after.take nameSize)
  let version := field header 6 1
  if version > maxVersion then throw (.version version)
  let extra := piece after nameSize (field header 30 2)
  let e ← withExtra
    { listedName
      flags := field header 8 2
      method := field header 10 2
      checksum := field header 16 4
      packedSize := field header 20 4
      size := field header 24 4
      attributes := field header 38 4
      offset := field header 42 4 }
    extra.length extra
  return { e with offset := e.offset + shift }

/-- The entries of a directory, given its bytes. -/
def entriesOf (shift : Int) (bytes : List UInt8) : Except Fault (List Entry) :=
  if bytes.isEmpty then .ok []
  else if bytes.length < entrySize || !entrySignature.isPrefixOf bytes then .error .corrupted
  else do
    let header := bytes.take entrySize
    let after := bytes.drop entrySize
    let e ← entryOf header after shift
    let further := field header 28 2 + field header 30 2 + field header 32 2
    return e :: (← entriesOf shift (bytes.drop (entrySize + further)))
termination_by bytes.length
decreasing_by
  simp only [List.isEmpty_iff] at *
  have : bytes.length ≠ 0 := by simpa using ‹¬bytes = []›
  simp only [List.length_drop, entrySize]
  omega

/-- An entry and where the bytes of its member end at the latest: at the start of the next member or
at that of the directory. -/
structure Placed where
  entry : Entry
  /-- The latest end. -/
  limit : Int
  deriving DecidableEq, Repr

/-- Where a member ends at the latest that starts at `offset`. Of two members with one start the
first in the directory is the last before the next start. -/
def limitOf (start : Int) (before after : List Entry) (offset : Int) : Int :=
  if before.any fun e => e.offset == offset then offset
  else
    let further := ((before ++ after).map (·.offset)).filter fun o => offset < o
    match further with
    | [] => start
    | o :: os => os.foldl min o

/-- The entries after some others, each with its limit. -/
def placedFrom (start : Int) (before : List Entry) : List Entry → List Placed
  | [] => []
  | e :: after => ⟨e, limitOf start before after e.offset⟩ :: placedFrom start (e :: before) after

/-- The entries of an archive in the order in which they are listed. -/
def directory (bytes : List UInt8) : Except Fault (List Placed) := do
  let place ← directoryPlace bytes
  let shift := (place.start : Int) - place.claimed
  let entries ← entriesOf shift (piece bytes place.start place.size)
  return placedFrom place.start [] entries

end SetupCatalog.Archive
