import SetupCatalog.Text.Case
import SetupCatalog.Text.Cut
import SetupCatalog.Text.Percent
import SetupCatalog.Text.Utf8Fault

/-!
# Header fields with parameters

A header field may have a value and, after semicolons, parameters, each a key and a value with an
equals sign between them. The value of a parameter is a word of token characters or is in quotes. A
key with a star at its end marks a value with percent escapes in a named character set; a star and a
number mark a part of a value.

What is not written like that counts for nothing, and reading goes on after the next semicolon.
-/

namespace SetupCatalog.Service

open Text

/-- A header field with parameters. -/
structure HeaderField where
  /-- The value before the parameters. -/
  value : Text
  /-- The keys and values of the parameters. No key is there twice. -/
  parameters : List (Text × Text)
  deriving DecidableEq, Repr

namespace HeaderField

/-- Whether a character is a space or a tab. -/
def isPadding (c : Char) : Bool :=
  c == ' ' || c == '\t'

/-- A text without the spaces and tabs at its start. -/
def skipPadding (t : Text) : Text :=
  t.dropWhile isPadding

/-- A text without the spaces and tabs at its two ends. -/
def unpadded (t : Text) : Text :=
  trimEnd isPadding (skipPadding t)

/-- Whether a character can be in a word. -/
def isToken (c : Char) : Bool :=
  c.isAlphanum || "_!#$%&'*+-.^\x60|~".toList.contains c

/-! ## Reading the parameters -/

/-- Reads a value in quotes after its opening quote. Finds what is written between the quotes, with
escapes as they are, and the text after it. -/
def readQuoted : Text → Option (Text × Text)
  | [] => none
  | '\\' :: '\\' :: t => (readQuoted t).map fun (inside, rest) => ('\\' :: '\\' :: inside, rest)
  | '\\' :: '"' :: t => (readQuoted t).map fun (inside, rest) => ('\\' :: '"' :: inside, rest)
  | '"' :: t => some ([], t)
  | c :: t => (readQuoted t).map fun (inside, rest) => (c :: inside, rest)

/-- A value in quotes, with the quotes. -/
def inQuotes (t : Text) : Text :=
  '"' :: t ++ ['"']

/-- Reads a parameter. Finds its key and its value as they are written, if there is one, and the
text from where on the next semicolon is looked for. -/
def readParameter (t : Text) : Option (Text × Text) × Text :=
  let key := t.takeWhile isToken
  match key, t.dropWhile isToken with
  | _ :: _, '=' :: rest =>
    match rest.takeWhile isToken, rest with
    | c :: word, _ => (some (lower key, c :: word), rest)
    | [], '"' :: quoted =>
      match readQuoted quoted with
      | some (inside, after) => (some (lower key, inQuotes inside), after)
      | none => (none, rest)
    | [], _ => (none, rest)
  | _, _ => (none, t)

/-- The parameters as they are written. The fuel bounds their number. -/
def readParameters : (fuel : Nat) → Text → List (Text × Text)
  | 0, _ => []
  | fuel + 1, t =>
    let (found, rest) := readParameter t
    found.toList ++
      (if rest.contains ';' then readParameters fuel (skipPadding (cut ';' rest).2) else [])

/-! ## The values of the parameters -/

/-- The character sets that are known. -/
inductive CharacterSet where
  | ascii
  | utf8
  | latin1
  deriving DecidableEq, Repr

/-- The character set with a name. -/
def CharacterSet.ofName? (name : Text) : Option CharacterSet :=
  [("ascii".toList, ascii), ("us-ascii".toList, ascii), ("utf-8".toList, utf8),
    ("iso-8859-1".toList, latin1)].lookup name

/-- The text that bytes stand for. What stands for nothing becomes the replacement character. -/
def CharacterSet.decode : CharacterSet → List UInt8 → Text
  | ascii, bytes => bytes.map fun b => if b.toNat < 128 then Char.ofNat b.toNat else '\uFFFD'
  | utf8, bytes => Utf8.decodeReplacing bytes
  | latin1, bytes => bytes.map fun b => Char.ofNat b.toNat

/-- Whether a character can be in the name of a character set. -/
def isSetToken (c : Char) : Bool :=
  isToken c && c != '\''

/-- The name of the character set that a value starts with, and the value after it. A language may
be named between them. -/
def splitSet? (t : Text) : Option (Text × Text) :=
  let name := t.takeWhile isSetToken
  match t.dropWhile isSetToken with
  | '\'' :: t =>
    match t.dropWhile isSetToken with
    | '\'' :: t =>
      let value := t.takeWhile isToken
      if value.isEmpty then none else some (lower name, value)
    | _ => none
  | _ => none

/-- A value without the quotes around it and with its escapes undone. -/
def unquoted (t : Text) : Text :=
  if t.head? = some '"' && t.getLast? = some '"' then
    let inside := replaceAll ['\\', '\\'] ['\\'] (t.drop 1).dropLast
    replaceAll "%22".toList ['"'] (replaceAll ['\\', '"'] ['"'] inside)
  else t

/-- The key of a part of a value without its number, if it is one. -/
def partKey? (key : Text) : Option Text :=
  match trimEnd Char.isDigit key, key.getLast? with
  | front, some c => if c.isDigit && front.getLast? = some '*' then some front.dropLast else none
  | _, none => none

/-- What is known after some parameters: the character set that was named last, the one that was
used last, and the parameters. -/
structure Reading where
  named : Option Text := none
  used : Option CharacterSet := none
  parameters : List (Text × Text) := []

/-- Stores the value of a key in the place of the one before. -/
def store (parameters : List (Text × Text)) (key value : Text) : List (Text × Text) :=
  parameters.filter (fun p => p.1 != key) ++ [(key, value)]

/-- Undoes the percent escapes of a value whose key has a star. -/
def unescape (r : Reading) (value : Text) : Reading × Text :=
  let (named, value) := match splitSet? value with
    | some (name, value) => (some name, value)
    | none => (r.named, value)
  let set? := match named with
    | none | some [] => r.used
    | some name => CharacterSet.ofName? name
  match set? with
  | some set => ({ r with named, used := some set }, Percent.decode set.decode value)
  | none => ({ r with named }, value)

/-- What is known after one more parameter, given as it is written. -/
def Reading.add (r : Reading) (parameter : Text × Text) : Reading :=
  let (key, value) := parameter
  let (key, r, value) :=
    if key.getLast? = some '*' then
      let (r, value) := unescape r value
      (key.dropLast, r, value)
    else (key, r, value)
  let value := unquoted value
  match partKey? key with
  | some key =>
    let before := (r.parameters.lookup key).getD []
    { r with parameters := store r.parameters key (before ++ value) }
  | none => { r with parameters := store r.parameters key value }

/-- The field that a text is. -/
def ofText (t : Text) : HeaderField :=
  let (value, rest) := cut ';' t
  let value := unpadded value
  let rest := unpadded rest
  if value.isEmpty || rest.isEmpty then ⟨value, []⟩
  else
    let written := readParameters (rest.length + 1) rest
    ⟨value, (written.foldl Reading.add {}).parameters⟩

/-- The value of a parameter. -/
def get? (f : HeaderField) (key : String) : Option Text :=
  f.parameters.lookup key.toList

end HeaderField

end SetupCatalog.Service
