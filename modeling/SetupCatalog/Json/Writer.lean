import SetupCatalog.Json.Basic

/-!
# Writing JSON

A value is written in ASCII alone: every other character of a text is escaped by its UTF-16 units.
Without an indentation everything stands on one line; with one, every item and every field has a
line of its own, even if the indentation is zero.
-/

namespace SetupCatalog.Json

open Text

/-- An escape for one UTF-16 unit. -/
def unitEscape (unit : Nat) : Text :=
  '\\' :: 'u' :: hex 4 unit

/-- A character as it is written inside a text. A character beyond the first 65536 is written as
two units. -/
def writeChar (c : Char) : Text :=
  if c = '"' then ['\\', '"']
  else if c = '\\' then ['\\', '\\']
  else if c = '\n' then ['\\', 'n']
  else if c = '\r' then ['\\', 'r']
  else if c = '\t' then ['\\', 't']
  else if c = '\x0c' then ['\\', 'f']
  else if c = '\x08' then ['\\', 'b']
  else if 32 ≤ c.toNat ∧ c.toNat < 127 then [c]
  else if c.toNat < 0x10000 then unitEscape c.toNat
  else unitEscape (0xD800 + (c.toNat - 0x10000) / 1024) ++
    unitEscape (0xDC00 + (c.toNat - 0x10000) % 1024)

/-- A text in double quotes. -/
def writeText (t : Text) : Text :=
  '"' :: t.flatMap writeChar ++ ['"']

/-- The line break before an item at the given depth, if items have lines of their own. -/
def lineBreak (indent : Option Int) (depth : Nat) : Text :=
  match indent with
  | none => []
  | some width => '\n' :: List.replicate (width.toNat * depth) ' '

/-- What stands between two items at the given depth. -/
def separator (indent : Option Int) (depth : Nat) : Text :=
  match indent with
  | none => [',', ' ']
  | some _ => ',' :: lineBreak indent depth

mutual

/-- A value at the given depth. -/
def writeAt (indent : Option Int) (depth : Nat) : Json → Text
  | null => "null".toList
  | bool true => "true".toList
  | bool false => "false".toList
  | int n => ofInt n
  | real m e => ofInt m ++ 'e' :: ofInt e
  | notFinite => "NaN".toList
  | text t => writeText t
  | array [] => "[]".toList
  | array (item :: items) =>
    '[' :: lineBreak indent (depth + 1) ++ writeAt indent (depth + 1) item ++
      writeItems indent (depth + 1) items ++ lineBreak indent depth ++ [']']
  | object [] => ['{', '}']
  | object ((name, value) :: fields) =>
    '{' :: lineBreak indent (depth + 1) ++ writeText name ++ [':', ' '] ++
      writeAt indent (depth + 1) value ++ writeFields indent (depth + 1) fields ++
      lineBreak indent depth ++ ['}']

/-- The items of an array after its first one. -/
def writeItems (indent : Option Int) (depth : Nat) : List Json → Text
  | [] => []
  | item :: items => separator indent depth ++ writeAt indent depth item ++
      writeItems indent depth items

/-- The fields of an object after its first one. -/
def writeFields (indent : Option Int) (depth : Nat) : List (Text × Json) → Text
  | [] => []
  | (name, value) :: fields => separator indent depth ++ writeText name ++ [':', ' '] ++
      writeAt indent depth value ++ writeFields indent depth fields

end

/-- A value in JSON, on one line or with the given indentation. -/
def write (indent : Option Int) (v : Json) : Text :=
  writeAt indent 0 v

end SetupCatalog.Json
