import SetupCatalog.Text.Digit
import SetupCatalog.Text.Utf8

/-!
# Percent escapes

In addresses and in some header fields a byte may be written as a percent sign and two hexadecimal
digits. A percent sign without two such digits after it stands for itself.
-/

namespace SetupCatalog.Text.Percent

/-- The text in which the escapes are decoded. A run of ASCII characters stands for bytes, which
`decode` makes a text of; other characters stand for themselves. `pending` holds the bytes of the
run so far, the last one first. -/
def decodeFrom (decode : List UInt8 → Text) (pending : List UInt8) : Text → Text
  | [] => decode pending.reverse
  | '%' :: a :: b :: t =>
    match hexNumber? [a, b] with
    | some n => decodeFrom decode (UInt8.ofNat n :: pending) t
    | none => decodeFrom decode (0x25 :: pending) (a :: b :: t)
  | c :: t =>
    if c.toNat < 128 then decodeFrom decode (UInt8.ofNat c.toNat :: pending) t
    else decode pending.reverse ++ c :: decodeFrom decode [] t

/-- The text in which the escapes are decoded. -/
def decode (bytesToText : List UInt8 → Text) (t : Text) : Text :=
  decodeFrom bytesToText [] t

/-- The escape of a byte. -/
def escape (b : UInt8) : Text :=
  '%' :: (hex 2 b.toNat).map Char.toUpper

/-- A text in which every byte is escaped unless it is a letter, a digit, one of `_.-~` or one of
the characters in `safe`. -/
def encode (safe : Text) (t : Text) : Text :=
  t.flatMap fun c =>
    if c.isAlphanum || "_.-~".toList.contains c || safe.contains c then [c]
    else (Utf8.encodeChar c).flatMap escape

end SetupCatalog.Text.Percent
