import SetupCatalog.Archive.Directory
import SetupCatalog.Text.Display

/-!
# Descriptions of members

A member that cannot be unpacked is described by its name, how it is packed, its attributes and its
sizes, as far as they say something.
-/

namespace SetupCatalog.Archive

/-- The names of the ways of packing. -/
def methodNames : List (Nat × String) :=
  [(0, "store"), (1, "shrink"), (2, "reduce"), (3, "reduce"), (4, "reduce"), (5, "reduce"),
    (6, "implode"), (7, "tokenize"), (8, "deflate"), (9, "deflate64"), (10, "implode"),
    (12, "bzip2"), (14, "lzma"), (18, "terse"), (19, "lz77"), (97, "wavpack"), (98, "ppmd")]

/-- The name of a way of packing, or its number. -/
def methodName (method : Nat) : Text :=
  ((methodNames.lookup method).map String.toList).getD (Text.ofNat method)

/-- The letters of the kinds of files, by the upper four bits of a mode. -/
def kindLetters : List (Nat × Char) :=
  [(1, 'p'), (2, 'c'), (4, 'd'), (6, 'b'), (8, '-'), (10, 'l'), (12, 's')]

/-- The letters of three permissions, given the special bit and the letter that shows it. -/
def permissionLetters (bits : Nat) (special : Bool) (letter : Char) : Text :=
  let execute := hasBit bits 1
  [if hasBit bits 4 then 'r' else '-', if hasBit bits 2 then 'w' else '-',
    if special then (if execute then letter else letter.toUpper)
    else if execute then 'x' else '-']

/-- A mode in letters: the kind of file and what its owner, its group and all others may do. -/
def modeLetters (mode : Nat) : Text :=
  (kindLetters.lookup (mode / 4096)).getD '?' ::
    (permissionLetters (mode / 64) (hasBit mode 0x800) 's' ++
      permissionLetters (mode / 8) (hasBit mode 0x400) 's' ++
      permissionLetters mode (hasBit mode 0x200) 't')

/-- A remark in a description, if it is shown. -/
def detail (isShown : Bool) (label : String) (value : Text) : Text :=
  if isShown then ' ' :: label.toList ++ '=' :: value else []

/-- The description of a member. -/
def Entry.description (e : Entry) : Text :=
  let mode := e.attributes / 65536
  let others := e.attributes % 65536
  "<ZipInfo filename=".toList ++ Text.display e.name ++
    detail (e.method != 0) "compress_type" (methodName e.method) ++
    detail (mode != 0) "filemode" (Text.display (modeLetters mode)) ++
    detail (others != 0) "external_attr" ('0' :: 'x' :: Text.hex 1 others) ++
    detail (!e.isFolder || e.size != 0) "file_size" (Text.ofNat e.size) ++
    detail ((!e.isFolder || e.packedSize != 0) && (e.method != 0 || e.size != e.packedSize))
      "compress_size" (Text.ofNat e.packedSize) ++ ">".toList

end SetupCatalog.Archive
