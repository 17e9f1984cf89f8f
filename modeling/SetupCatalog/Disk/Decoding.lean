import SetupCatalog.Disk.Basic
import SetupCatalog.Text.Line
import SetupCatalog.Text.Utf8

/-!
# Reading text files

A text file is read by decoding its bytes and making every line break a line feed. A byte-order mark
at the start is dropped where the encoding says so; a file that ends inside of one reads as empty.
-/

namespace SetupCatalog

/-- How the bytes of a file stand for a text. -/
inductive Encoding where
  /-- UTF-8, with or without a byte-order mark. -/
  | markedUtf8
  | utf8
  | ascii
  | latin1
  deriving DecidableEq, Repr

namespace Encoding

/-- Every encoding. -/
def all : List Encoding :=
  [markedUtf8, utf8, ascii, latin1]

/-- The name of an encoding. -/
def name : Encoding → Text
  | markedUtf8 => "utf-8-sig".toList
  | utf8 => "utf-8".toList
  | ascii => "ascii".toList
  | latin1 => "latin-1".toList

/-- The encoding with the given name. -/
def ofName? (value : Text) : Option Encoding :=
  all.find? fun e => e.name == value

/-- The bytes of a byte-order mark in UTF-8. -/
def mark : List UInt8 :=
  [0xEF, 0xBB, 0xBF]

/-- Bytes without the byte-order mark at their start, or nothing if they are the start of one. -/
def withoutMark (bytes : List UInt8) : List UInt8 :=
  if bytes.isPrefixOf mark then [] else if mark.isPrefixOf bytes then bytes.drop 3 else bytes

/-- The character with the number of a byte. -/
def charOfByte (b : UInt8) : Char :=
  Char.ofNat b.toNat

/-- The text that bytes stand for. -/
def decode (bytes : List UInt8) : Encoding → Option Text
  | markedUtf8 => Text.Utf8.decode (withoutMark bytes)
  | utf8 => Text.Utf8.decode bytes
  | ascii => if bytes.all fun b => b.toNat < 128 then some (bytes.map charOfByte) else none
  | latin1 => some (bytes.map charOfByte)

end Encoding

/-- Why a text file cannot be read. -/
inductive ReadFault where
  | undecodable (encoding : Encoding)
  | file (fault : FileFault)
  deriving DecidableEq, Repr

/-- The remark that the file at a path cannot be read. -/
def ReadFault.remark (p : WrittenPath) : ReadFault → Text
  | undecodable e => "Could not decode file (not ".toList ++ e.name ++ "): ".toList ++ p.text
  | file (.disk .notFound) => "File not found: ".toList ++ p.text
  | file .notPermitted => "Permission denied: ".toList ++ p.text
  | file (.disk fault) =>
    "Could not read file ".toList ++ p.text ++ ": ".toList ++ DiskError.message ⟨fault, p⟩

/-- The text of a file, from what reading the file gives. -/
def Encoding.textOf (encoding : Encoding) : Except FileFault (List UInt8) → Except ReadFault Text
  | .error fault => .error (.file fault)
  | .ok bytes =>
    match encoding.decode bytes with
    | some t => .ok (Text.unifyBreaks t)
    | none => .error (.undecodable encoding)

/-- The text of a file and the remarks so far; if the file at the path cannot be read, nothing and
one remark more. -/
def Encoding.textOrRemark (encoding : Encoding) (p : WrittenPath)
    (content : Except FileFault (List UInt8)) (remarks : List Text) : Option Text × List Text :=
  match encoding.textOf content with
  | .ok t => (some t, remarks)
  | .error fault => (none, remarks ++ [fault.remark p])

/-- The text of the file that a path leads to. -/
def Disk.readText (disk : Disk) (p : WrittenPath) (encoding : Encoding) : Except ReadFault Text :=
  encoding.textOf (disk.content p)

/-- The text of the file that a path leads to and the remarks so far. -/
def Disk.readOrRemark (disk : Disk) (p : WrittenPath) (encoding : Encoding) (remarks : List Text) :
    Option Text × List Text :=
  encoding.textOrRemark p (disk.content p) remarks

end SetupCatalog
