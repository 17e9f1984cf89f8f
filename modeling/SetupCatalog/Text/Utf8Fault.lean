import SetupCatalog.Text.Utf8

/-!
# Faults in UTF-8

Bytes that are no text have a first fault: the longest start of a sequence that cannot be completed,
or a byte that starts no sequence. `firstFault` finds it, and `decodeReplacing` reads bytes with one
replacement character for each fault.
-/

namespace SetupCatalog.Text.Utf8

/-- What is wrong with bytes that stand for no character. -/
inductive FaultKind where
  | badStart
  | badContinuation
  | cutShort
  deriving DecidableEq, Repr

/-- A fault in bytes. -/
structure Fault where
  /-- How many bytes come before the fault. -/
  position : Nat
  /-- The first byte at fault. -/
  lead : UInt8
  /-- How many bytes are at fault. -/
  size : Nat
  /-- What is wrong with them. -/
  kind : FaultKind
  deriving DecidableEq, Repr

/-- The wording of what is wrong. -/
def FaultKind.wording : FaultKind → Text
  | badStart => "invalid start byte".toList
  | badContinuation => "invalid continuation byte".toList
  | cutShort => "unexpected end of data".toList

/-- The wording of a fault. -/
def Fault.message (f : Fault) : Text :=
  let place :=
    if f.size = 1 then
      "byte 0x".toList ++ hex 2 f.lead.toNat ++ " in position ".toList ++ ofNat f.position
    else "bytes in position ".toList ++ ofNat f.position ++ '-' :: ofNat (f.position + f.size - 1)
  "'utf-8' codec can't decode ".toList ++ place ++ ": ".toList ++ f.kind.wording

/-- How many bytes follow the first byte of a sequence, if it is one. -/
def followers? (lead : UInt8) : Option Nat :=
  let n := lead.toNat
  if n < 0x80 then some 0
  else if n < 0xC2 then none
  else if n < 0xE0 then some 1
  else if n < 0xF0 then some 2
  else if n < 0xF5 then some 3
  else none

/-- Whether a byte can be the second of a sequence with the given first byte, so that the sequence
is not overlong, no surrogate and not above the last code point. -/
def follows (lead b : UInt8) : Bool :=
  let n := b.toNat
  isContinuation b &&
    (if lead = 0xE0 then 0xA0 ≤ n
    else if lead = 0xED then n < 0xA0
    else if lead = 0xF0 then 0x90 ≤ n
    else if lead = 0xF4 then n < 0x90
    else true)

/-- How many of the bytes after a first byte continue its sequence. -/
def followerCount (lead : UInt8) : List UInt8 → Nat
  | [] => 0
  | b :: bytes => if follows lead b then 1 + (bytes.takeWhile isContinuation).length else 0

/-- What is wrong with the sequence that bytes start with, if anything, and how many bytes are at
fault. -/
def faultAt? (lead : UInt8) (bytes : List UInt8) : Option (FaultKind × Nat) :=
  match followers? lead with
  | none => some (.badStart, 1)
  | some n =>
    let after := bytes.take n
    let good := followerCount lead after
    if good = n then none
    else if good = after.length then some (.cutShort, good + 1)
    else some (.badContinuation, good + 1)

/-- The first fault of bytes, `position` bytes being before them. -/
def faultFrom (position : Nat) (bytes : List UInt8) : Option Fault :=
  match bytes with
  | [] => none
  | lead :: bytes =>
    match faultAt? lead bytes with
    | some (kind, size) => some ⟨position, lead, size, kind⟩
    | none =>
      let n := (followers? lead).getD 0
      faultFrom (position + 1 + n) (bytes.drop n)
termination_by bytes.length

/-- The first fault of bytes. -/
def firstFault (bytes : List UInt8) : Option Fault :=
  faultFrom 0 bytes

/-- The text that bytes stand for, with the replacement character for each fault. -/
def decodeReplacing (bytes : List UInt8) : Text :=
  match bytes with
  | [] => []
  | lead :: bytes =>
    match faultAt? lead bytes with
    | some (_, size) => '\uFFFD' :: decodeReplacing (bytes.drop (size - 1))
    | none =>
      let n := (followers? lead).getD 0
      (decode (lead :: bytes.take n)).getD [] ++ decodeReplacing (bytes.drop n)
termination_by bytes.length

/-- The text that bytes stand for, or else their first fault. -/
def read (bytes : List UInt8) : Except Fault Text :=
  match firstFault bytes with
  | some fault => .error fault
  | none => .ok (decodeReplacing bytes)

end SetupCatalog.Text.Utf8
