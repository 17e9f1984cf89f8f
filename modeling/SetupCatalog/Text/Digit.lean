import SetupCatalog.Text.Blank

/-!
# Decimal digits and whole numbers

The decimal digits of Unicode come in runs of ten, each run in the order 0 to 9, so a list of the
zeros says what every digit is worth. `readInt` reads a whole number written with such digits.
Hexadecimal digits are those of ASCII alone.
-/

namespace SetupCatalog.Text

/-- The zeros outside ASCII, each the first of its run of ten digits. -/
def digitZeros : List Nat :=
  [1632, 1776, 1984, 2406, 2534, 2662, 2790, 2918, 3046, 3174, 3302, 3430, 3558, 3664, 3792, 3872,
   4160, 4240, 6112, 6160, 6470, 6608, 6784, 6800, 6992, 7088, 7232, 7248, 42528, 43216, 43264,
   43472, 43504, 43600, 44016, 65296, 66720, 68912, 69734, 69872, 69942, 70096, 70384, 70736,
   70864, 71248, 71360, 71472, 71904, 72016, 72784, 73040, 73120, 92768, 92864, 93008, 120782,
   120792, 120802, 120812, 120822, 123200, 123632, 125264, 130032]

/-- What a decimal digit is worth. -/
def digitValue? (c : Char) : Option Nat :=
  (('0'.toNat :: digitZeros).find? fun first => first ≤ c.toNat && c.toNat < first + 10).map
    fun first => c.toNat - first

/-- Whether a character is a decimal digit. -/
def isDigit (c : Char) : Bool :=
  (digitValue? c).isSome

/-- The value of digits with single underscores allowed between them, added to what has been read
so far. An underscore must stand between two digits. -/
def readDigits (value : Nat) : Text → Option Nat
  | [] => some value
  | '_' :: c :: t => (digitValue? c).bind fun d => readDigits (10 * value + d) t
  | c :: t => (digitValue? c).bind fun d => readDigits (10 * value + d) t

/-- The most digits that a whole number may have. -/
def maxDigits : Nat := 4300

/-- The value of a sequence of at least one and at most `maxDigits` digits. -/
def readNat : Text → Option Nat
  | [] => none
  | c :: t =>
    if (c :: t).countP isDigit > maxDigits then none
    else (digitValue? c).bind fun d => readDigits d t

/-- Whether a character may stand around a whole number: a blank that is not one of the four
separator controls below the space. -/
def isNumberPadding (c : Char) : Bool :=
  isBlank c && !(28 ≤ c.toNat && c.toNat ≤ 31)

/-- A whole number: an optional sign and digits, with padding around them. -/
def readInt (t : Text) : Option Int :=
  match trimEnd isNumberPadding (t.dropWhile isNumberPadding) with
  | '-' :: t => (readNat t).map fun n => - (n : Int)
  | '+' :: t => (readNat t).map fun n => (n : Int)
  | t => (readNat t).map fun n => (n : Int)

/-- What a hexadecimal digit is worth. -/
def hexValue? (c : Char) : Option Nat :=
  if c.isDigit then some (c.toNat - '0'.toNat)
  else if 'a' ≤ c ∧ c ≤ 'f' then some (c.toNat - 'a'.toNat + 10)
  else if 'A' ≤ c ∧ c ≤ 'F' then some (c.toNat - 'A'.toNat + 10)
  else none

/-- The number that hexadecimal digits stand for. -/
def hexNumber? (digits : Text) : Option Nat :=
  digits.foldlM (fun n c => (hexValue? c).map fun d => 16 * n + d) 0

end SetupCatalog.Text
