/-!
# The checksum of a member

The cyclic redundancy check with 32 bits: the bytes are divided, bit by bit and the lowest bit
first, by a fixed polynomial. The remainder starts with all bits set and all its bits are flipped at
the end.
-/

namespace SetupCatalog.Archive

/-- The polynomial, its highest power in the lowest bit. -/
def polynomial : UInt32 := 0xEDB88320

/-- The remainder after one more bit. -/
def checksumBit (r : UInt32) : UInt32 :=
  if r % 2 = 1 then (r >>> 1) ^^^ polynomial else r >>> 1

/-- The remainder after one more byte. -/
def checksumByte (r : UInt32) (b : UInt8) : UInt32 :=
  let r := r ^^^ b.toUInt32
  checksumBit (checksumBit (checksumBit (checksumBit (checksumBit (checksumBit (checksumBit
    (checksumBit r)))))))

/-- The checksum of bytes. -/
def checksum (bytes : List UInt8) : UInt32 :=
  bytes.foldl checksumByte 0xFFFFFFFF ^^^ 0xFFFFFFFF

end SetupCatalog.Archive
