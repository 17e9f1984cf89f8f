import SetupCatalog.Text.Basic

/-!
# JSON values

The values that reports are written as and requests are read as. A whole number is exact; a number
with a fraction or an exponent keeps its digits.
-/

namespace SetupCatalog

/-- A JSON value. The fields of an object keep their order. -/
inductive Json where
  | null
  | bool (value : Bool)
  | int (value : Int)
  /-- A number with a fraction or an exponent: the mantissa times a power of ten. -/
  | real (mantissa exponent : Int)
  /-- A number beyond the finite ones. -/
  | notFinite
  | text (value : Text)
  | array (items : List Json)
  | object (fields : List (Text × Json))

namespace Json

/-- The value of a field. Of several fields with one name the last counts. -/
def field? (fields : List (Text × Json)) (name : Text) : Option Json :=
  ((fields.filter fun field => field.1 == name).getLast?).map (·.2)

/-- Whether a number is so close to zero that no floating-point number lies nearer: at most half of
the smallest positive one, which is 2 to the power −1074. -/
def roundsToZero (mantissa exponent : Int) : Bool :=
  let m := mantissa.natAbs
  let k := (-exponent).toNat
  m == 0 || (exponent < 0 &&
    ((Nat.toDigits 10 m).length + 330 < k || m * Nat.pow 2 1075 ≤ Nat.pow 10 k))

/-- Whether a value counts as absent: null, false, zero, or something empty. -/
def isVoid : Json → Bool
  | null => true
  | bool b => !b
  | int n => n == 0
  | real m e => roundsToZero m e
  | notFinite => false
  | text t => t.isEmpty
  | array items => items.isEmpty
  | object fields => fields.isEmpty

end Json

end SetupCatalog
