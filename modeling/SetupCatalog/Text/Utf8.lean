import SetupCatalog.Text.Basic

/-!
# UTF-8

`encode` writes a text as bytes and `decode` reads bytes strictly: no overlong forms, no
surrogates, nothing above U+10FFFF, no truncated sequences.
-/

namespace SetupCatalog.Text.Utf8

/-- The byte with the given value, which callers keep below 256. -/
def byte (n : Nat) : UInt8 :=
  UInt8.ofNat n

/-- The bytes of one character. -/
def encodeChar (c : Char) : List UInt8 :=
  let n := c.toNat
  if n < 0x80 then [byte n]
  else if n < 0x800 then [byte (0xC0 + n / 64), byte (0x80 + n % 64)]
  else if n < 0x10000 then
    [byte (0xE0 + n / 4096), byte (0x80 + n / 64 % 64), byte (0x80 + n % 64)]
  else
    [byte (0xF0 + n / 262144), byte (0x80 + n / 4096 % 64), byte (0x80 + n / 64 % 64),
      byte (0x80 + n % 64)]

/-- The bytes of a text. -/
def encode (t : Text) : List UInt8 :=
  t.flatMap encodeChar

/-- Whether a byte continues a sequence. -/
def isContinuation (b : UInt8) : Bool :=
  0x80 ≤ b.toNat && b.toNat < 0xC0

/-- The character with the given code point, if there is one and it is not below `least`. -/
def charFrom (least n : Nat) : Option Char :=
  if h : n.isValidChar then if least ≤ n then some (Char.ofNatAux n h) else none else none

/-- The text that the bytes stand for, if they are well formed. -/
def decode : List UInt8 → Option Text
  | [] => some []
  | a :: bytes =>
    if a.toNat < 0x80 then (decode bytes).map (Char.ofNat a.toNat :: ·)
    else if 0xC0 ≤ a.toNat && a.toNat < 0xE0 then
      match bytes with
      | b :: bytes =>
        if isContinuation b then do
          let c ← charFrom 0x80 ((a.toNat - 0xC0) * 64 + (b.toNat - 0x80))
          return c :: (← decode bytes)
        else none
      | [] => none
    else if 0xE0 ≤ a.toNat && a.toNat < 0xF0 then
      match bytes with
      | b :: c :: bytes =>
        if isContinuation b && isContinuation c then do
          let d ← charFrom 0x800
            ((a.toNat - 0xE0) * 4096 + (b.toNat - 0x80) * 64 + (c.toNat - 0x80))
          return d :: (← decode bytes)
        else none
      | _ => none
    else if 0xF0 ≤ a.toNat && a.toNat < 0xF8 then
      match bytes with
      | b :: c :: d :: bytes =>
        if isContinuation b && isContinuation c && isContinuation d then do
          let e ← charFrom 0x10000
            ((a.toNat - 0xF0) * 262144 + (b.toNat - 0x80) * 4096 + (c.toNat - 0x80) * 64 +
              (d.toNat - 0x80))
          return e :: (← decode bytes)
        else none
      | _ => none
    else none

end SetupCatalog.Text.Utf8
