/-!
# Records of bytes

The records of an archive have fields at fixed offsets. A field holds a number whose lowest byte
comes first: `number` reads it and `bytesOf` writes it.
-/

namespace SetupCatalog.Archive

/-- The number that bytes stand for, the lowest byte first. -/
def number (bytes : List UInt8) : Nat :=
  bytes.foldr (fun b n => b.toNat + 256 * n) 0

/-- The given number of bytes of a number, the lowest byte first. -/
def bytesOf : (width value : Nat) → List UInt8
  | 0, _ => []
  | width + 1, value => UInt8.ofNat (value % 256) :: bytesOf width (value / 256)

/-- The bytes of a record from an offset on. -/
def piece (record : List UInt8) (offset width : Nat) : List UInt8 :=
  (record.drop offset).take width

/-- The number in a field of a record. -/
def field (record : List UInt8) (offset width : Nat) : Nat :=
  number (piece record offset width)

/-- Whether a number has the bit with the given value, which is a power of two. -/
def hasBit (n bit : Nat) : Bool :=
  n / bit % 2 == 1

/-- What has been written in enough bytes is read back. -/
theorem number_bytesOf {width value : Nat} (h : value < Nat.pow 256 width) :
    number (bytesOf width value) = value := by
  induction width generalizing value with
  | zero =>
    have : value = 0 := by simpa using h
    subst this
    rfl
  | succ width ih =>
    have hv : value / 256 < Nat.pow 256 width := by
      refine Nat.div_lt_of_lt_mul ?_
      have : Nat.pow 256 (width + 1) = Nat.pow 256 width * 256 := rfl
      omega
    have hb : (UInt8.ofNat (value % 256)).toNat = value % 256 := by
      simp
    have hs : number (bytesOf (width + 1) value) =
        (UInt8.ofNat (value % 256)).toNat + 256 * number (bytesOf width (value / 256)) := rfl
    rw [hs, ih hv, hb]
    omega

end SetupCatalog.Archive
