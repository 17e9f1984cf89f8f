import SetupCatalog.Json.Basic
import SetupCatalog.Text.Digit

/-!
# Reading JSON

`read?` reads one value with nothing but white space around it. Beyond the standard it accepts the
names of the numbers that are not finite. An escape that is half of a surrogate pair stands for the
replacement character.

`read` is the same with a limit on how deep arrays and objects may be nested. A bracket that opens
one level too many is a fault of its own, whatever comes after it.
-/

namespace SetupCatalog.Json

open Text

/-- Whether a character may stand between the parts of a value. -/
def isSpace (c : Char) : Bool :=
  c == ' ' || c == '\t' || c == '\n' || c == '\r'

/-- The text without the white space at its start. -/
def skipSpace (t : Text) : Text :=
  t.dropWhile isSpace

/-! ## Texts -/

/-- What a backslash and a single character stand for. -/
def simpleEscape? (c : Char) : Option Char :=
  [('"', '"'), ('\\', '\\'), ('/', '/'), ('b', '\x08'), ('f', '\x0c'), ('n', '\n'), ('r', '\r'),
    ('t', '\t')].lookup c

/-- Reads a text after its opening quote, up to and with its closing quote. Finds the code points
and the units that it is written with. -/
def readUnits : Text → Option (List Nat × Text)
  | [] => none
  | c :: t =>
    if c = '"' then some ([], t)
    else if c = '\\' then
      match t with
      | [] => none
      | d :: t =>
        if d = 'u' then
          match t with
          | h₁ :: h₂ :: h₃ :: h₄ :: t => do
            let unit ← hexNumber? [h₁, h₂, h₃, h₄]
            let (units, rest) ← readUnits t
            return (unit :: units, rest)
          | _ => none
        else do
          let e ← simpleEscape? d
          let (units, rest) ← readUnits t
          return (e.toNat :: units, rest)
    else if c.toNat < 32 then none
    else (readUnits t).map fun (units, rest) => (c.toNat :: units, rest)

/-- Whether a unit is the first half of a surrogate pair. -/
def isHighSurrogate (n : Nat) : Bool :=
  0xD800 ≤ n && n < 0xDC00

/-- Whether a unit is the second half of a surrogate pair. -/
def isLowSurrogate (n : Nat) : Bool :=
  0xDC00 ≤ n && n < 0xE000

/-- The character that a unit outside any pair stands for. -/
def charOfUnit (n : Nat) : Char :=
  if n.isValidChar then Char.ofNat n else '\uFFFD'

/-- The text that code points and units stand for. -/
def textOfUnits : List Nat → Text
  | [] => []
  | [n] => [charOfUnit n]
  | n :: m :: units =>
    if isHighSurrogate n && isLowSurrogate m then
      Char.ofNat (0x10000 + (n - 0xD800) * 1024 + (m - 0xDC00)) :: textOfUnits units
    else charOfUnit n :: textOfUnits (m :: units)

/-- Reads a text after its opening quote. -/
def readText (t : Text) : Option (Text × Text) :=
  (readUnits t).map fun (units, rest) => (textOfUnits units, rest)

/-! ## Numbers -/

/-- The number that decimal digits stand for. -/
def decimalNumber (digits : Text) : Nat :=
  digits.foldl (fun n c => 10 * n + (c.toNat - '0'.toNat)) 0

/-- Reads digits, and at least one. -/
def someDigits (t : Text) : Option (Text × Text) :=
  match t.takeWhile Char.isDigit with
  | [] => none
  | d :: ds => some (d :: ds, t.dropWhile Char.isDigit)

/-- Reads the digits of a whole number: a zero, or digits that do not start with one. -/
def wholeDigits : Text → Option (Text × Text)
  | '0' :: t => some (['0'], t)
  | t => someDigits t

/-- Reads a point and the digits after it, if they are there. -/
def fraction : Text → Option (Text × Text)
  | '.' :: t => someDigits t
  | _ => none

/-- Reads an exponent if there is one. -/
def exponent : Text → Option (Int × Text)
  | c :: t =>
    if c = 'e' || c = 'E' then
      match t with
      | '-' :: t => (someDigits t).map fun (ds, rest) => (- (decimalNumber ds : Int), rest)
      | '+' :: t => (someDigits t).map fun (ds, rest) => ((decimalNumber ds : Int), rest)
      | t => (someDigits t).map fun (ds, rest) => ((decimalNumber ds : Int), rest)
    else none
  | [] => none

/-- A number with a sign. -/
def signed (negative : Bool) (n : Nat) : Int :=
  if negative then - (n : Int) else n

/-- Reads a number without its sign. A whole number has a limit on its digits. -/
def readUnsigned (negative : Bool) (t : Text) : Option (Json × Text) := do
  let (whole, rest) ← wholeDigits t
  match fraction rest, exponent ((fraction rest).elim rest (·.2)) with
  | none, none =>
    -- the limit is on whole numbers alone; a number with a point or an exponent is a real one
    if whole.length > maxDigits then none
    else return (int (signed negative (decimalNumber whole)), rest)
  | some (ds, rest), none =>
    return (real (signed negative (decimalNumber (whole ++ ds))) (- (ds.length : Int)), rest)
  | none, some (e, rest) => return (real (signed negative (decimalNumber whole)) e, rest)
  | some (ds, _), some (e, rest) =>
    return (real (signed negative (decimalNumber (whole ++ ds))) (e - ds.length), rest)

/-- Reads a number. -/
def readNumber : Text → Option (Json × Text)
  | '-' :: t => readUnsigned true t
  | t => readUnsigned false t

/-! ## Values -/

/-- The names of values, each with the value it stands for. -/
def namedValues : List (Text × Json) :=
  [("null".toList, null), ("true".toList, bool true), ("false".toList, bool false),
    ("NaN".toList, notFinite), ("Infinity".toList, notFinite), ("-Infinity".toList, notFinite)]

/-- Reads a value that is written as a name. -/
def readNamed (t : Text) : Option (Json × Text) :=
  namedValues.findSome? fun (name, v) => (dropPrefix? name t).map fun rest => (v, rest)

/-- The values that hold other values. -/
inductive Container where
  | array
  | object
  deriving DecidableEq, Repr

/-- Why a text cannot be read as a value. -/
inductive ReadFault where
  | invalid
  /-- A container is nested too deep. -/
  | tooDeep (container : Container)
  deriving DecidableEq, Repr

/-- What has been read, or else that the text is no value. -/
def valid (r : Option α) : Except ReadFault α :=
  r.elim (.error .invalid) .ok

mutual

/-- Reads a value in which at most `levels` containers are nested. The fuel bounds the depth and the
number of its parts. -/
def readValue : (levels fuel : Nat) → Text → Except ReadFault (Json × Text)
  | _, 0, _ => .error .invalid
  | levels, fuel + 1, t =>
    match t with
    | '"' :: t => valid ((readText t).map fun (s, rest) => (text s, rest))
    | '[' :: t =>
      match levels with
      | 0 => .error (.tooDeep .array)
      | levels + 1 =>
        match skipSpace t with
        | ']' :: rest => .ok (array [], rest)
        | t => (readItems levels fuel t).map fun (items, rest) => (array items, rest)
    | '{' :: t =>
      match levels with
      | 0 => .error (.tooDeep .object)
      | levels + 1 =>
        match skipSpace t with
        | '}' :: rest => .ok (object [], rest)
        | t => (readFields levels fuel t).map fun (fields, rest) => (object fields, rest)
    | t => valid ((readNamed t).orElse fun _ => readNumber t)

/-- Reads the items of an array up to and with its closing bracket. -/
def readItems : (levels fuel : Nat) → Text → Except ReadFault (List Json × Text)
  | _, 0, _ => .error .invalid
  | levels, fuel + 1, t => do
    let (item, t) ← readValue levels fuel t
    match skipSpace t with
    | ']' :: rest => return ([item], rest)
    | ',' :: t =>
      let (items, rest) ← readItems levels fuel (skipSpace t)
      return (item :: items, rest)
    | _ => throw .invalid

/-- Reads the fields of an object up to and with its closing brace. -/
def readFields : (levels fuel : Nat) → Text → Except ReadFault (List (Text × Json) × Text)
  | _, 0, _ => .error .invalid
  | levels, fuel + 1, t =>
    match t with
    | '"' :: t => do
      let (name, t) ← valid (readText t)
      match skipSpace t with
      | ':' :: t =>
        let (value, t) ← readValue levels fuel (skipSpace t)
        match skipSpace t with
        | '}' :: rest => return ([(name, value)], rest)
        | ',' :: t =>
          let (fields, rest) ← readFields levels fuel (skipSpace t)
          return ((name, value) :: fields, rest)
        | _ => throw .invalid
      | _ => throw .invalid
    | _ => throw .invalid

end

/-- The value that a text is, with nothing but white space around it and at most `levels` containers
nested in it. -/
def read (levels : Nat) (t : Text) : Except ReadFault Json := do
  let (v, rest) ← readValue levels (t.length + 1) (skipSpace t)
  if (skipSpace rest).isEmpty then return v else throw .invalid

/-- The value that a text is, however deep. A text has fewer levels than characters. -/
def read? (t : Text) : Option Json :=
  -- so no text is too deep here
  (read (t.length + 1) t).toOption

end SetupCatalog.Json
