import SetupCatalog.Json.Reader
import SetupCatalog.Text.Utf8

/-!
# JSON documents as bytes

A document may come in any of the Unicode encodings. A byte-order mark says which; without one, the
zero bytes among the first four do, since a document starts with ASCII characters. In each of them a
surrogate outside a pair is allowed and stands for the replacement character.
-/

namespace SetupCatalog.Json

open Text

/-- The order of the bytes of a unit. -/
inductive ByteOrder where
  | bigFirst
  | littleFirst
  deriving DecidableEq, Repr

/-- The encodings of a document. -/
inductive DocumentEncoding where
  | utf8
  | utf16 (order : ByteOrder)
  | utf32 (order : ByteOrder)
  deriving DecidableEq, Repr

/-- The number that the bytes of a unit stand for. -/
def unitOf (order : ByteOrder) (bytes : List UInt8) : Nat :=
  let bytes := match order with
    | .bigFirst => bytes
    | .littleFirst => bytes.reverse
  bytes.foldl (fun n b => 256 * n + b.toNat) 0

/-- The units of two bytes each, if the bytes come out even. -/
def units16 (order : ByteOrder) : List UInt8 → Option (List Nat)
  | [] => some []
  | a :: b :: bytes => (units16 order bytes).map (unitOf order [a, b] :: ·)
  | [_] => none

/-- The units of four bytes each, if the bytes come out even and every unit is a code point. -/
def units32 (order : ByteOrder) : List UInt8 → Option (List Nat)
  | [] => some []
  | a :: b :: c :: d :: bytes =>
    let n := unitOf order [a, b, c, d]
    if n < 0x110000 then (units32 order bytes).map (n :: ·) else none
  | _ => none

/-- The byte-order marks with the encodings that they stand for. A mark comes before those that it
starts with. -/
def documentMarks : List (List UInt8 × DocumentEncoding) :=
  [([0x00, 0x00, 0xFE, 0xFF], .utf32 .bigFirst), ([0xFF, 0xFE, 0x00, 0x00], .utf32 .littleFirst),
    ([0xFE, 0xFF], .utf16 .bigFirst), ([0xFF, 0xFE], .utf16 .littleFirst),
    ([0xEF, 0xBB, 0xBF], .utf8)]

/-- The encoding of a document without a byte-order mark. -/
def unmarkedEncoding : List UInt8 → DocumentEncoding
  | a :: b :: c :: d :: _ =>
    if a = 0 then (if b = 0 then .utf32 .bigFirst else .utf16 .bigFirst)
    else if b = 0 then (if c = 0 && d = 0 then .utf32 .littleFirst else .utf16 .littleFirst)
    else .utf8
  | [a, b] =>
    if a = 0 then .utf16 .bigFirst
    else if b = 0 then .utf16 .littleFirst
    else .utf8
  | _ => .utf8

/-- The encoding of a document and the bytes after its byte-order mark. -/
def encodingOf (bytes : List UInt8) : DocumentEncoding × List UInt8 :=
  match documentMarks.find? fun entry => entry.1.isPrefixOf bytes with
  | some (mark, encoding) => (encoding, bytes.drop mark.length)
  | none => (unmarkedEncoding bytes, bytes)

/-- Bytes in which every surrogate, written as if it were a character, is replaced by the
replacement character. Two surrogates that would form a pair stay two. -/
def withoutSurrogates : List UInt8 → List UInt8
  | 0xED :: b :: c :: bytes =>
    if 0xA0 ≤ b.toNat && b.toNat < 0xC0 && Utf8.isContinuation c then
      0xEF :: 0xBF :: 0xBD :: withoutSurrogates bytes
    else 0xED :: withoutSurrogates (b :: c :: bytes)
  | b :: bytes => b :: withoutSurrogates bytes
  | [] => []

/-- The text of a document. -/
def documentText (bytes : List UInt8) : Option Text :=
  match encodingOf bytes with
  | (.utf8, rest) => Utf8.decode (withoutSurrogates rest)
  | (.utf16 order, rest) => (units16 order rest).map textOfUnits
  | (.utf32 order, rest) => (units32 order rest).map fun units => units.map charOfUnit

/-- The value of a document in which at most `levels` containers are nested. -/
def readBytes (levels : Nat) (bytes : List UInt8) : Except ReadFault Json :=
  valid (documentText bytes) >>= read levels

end SetupCatalog.Json
