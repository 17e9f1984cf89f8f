import SetupCatalog.Text.Basic

/-!
# Name patterns

A pattern for file names: `*` stands for any text, `?` for any character, and brackets for one
character of a class. A class lists characters and ranges and may be negated by `!`. A bracket that
is never closed stands for itself, and a range whose ends are in the wrong order is empty.
-/

namespace SetupCatalog.Text

/-- What a class of characters lists. -/
inductive ClassItem where
  | one (c : Char)
  | range (first last : Char)
  deriving DecidableEq, Repr

/-- Whether an item of a class covers a character. -/
def ClassItem.covers (c : Char) : ClassItem → Bool
  | one d => c == d
  | range first last => first.toNat ≤ c.toNat && c.toNat ≤ last.toNat

/-- A part of a pattern. -/
inductive GlobPart where
  | anyText
  | anyChar
  | char (c : Char)
  | class (negated : Bool) (items : List ClassItem)
  deriving DecidableEq, Repr

namespace Glob

/-! ## Classes -/

/-- The pieces of a class between the hyphens that make ranges. A hyphen makes a range only after at
least `least` further characters. The fuel bounds the number of pieces. -/
def piecesAtHyphens : (fuel least : Nat) → Text → List Text
  | 0, _, t => [t]
  | fuel + 1, least, t =>
    let rest := t.drop least
    match rest.dropWhile fun c => c != '-' with
    | _ :: after =>
      (t.take least ++ rest.takeWhile fun c => c != '-') :: piecesAtHyphens fuel 2 after
    | [] => [t]

/-- Pieces without an empty one at the end: a hyphen at the end of a class stands for itself. -/
def closeLast : List Text → List Text
  | [] => []
  | [p] => [p]
  | [p, []] => [p ++ ['-']]
  | p :: q :: ps => p :: closeLast (q :: ps)

/-- Pieces without the ranges between them that are empty: where the end of a piece comes after the
start of the next one, both characters are dropped and the pieces are joined. -/
def dropEmptyRanges : List Text → List Text
  | [] => []
  | p :: ps =>
    match dropEmptyRanges ps with
    | [] => [p]
    | q :: qs =>
      match p.getLast?, q.head? with
      | some a, some b =>
        if a.toNat > b.toNat then (p.dropLast ++ q.drop 1) :: qs else p :: q :: qs
      | _, _ => p :: q :: qs

/-- The characters of pieces, with `none` for each hyphen that makes a range. -/
def marked : List Text → List (Option Char)
  | [] => []
  | [p] => p.map some
  | p :: q :: ps => p.map some ++ none :: marked (q :: ps)

/-- The items that marked characters stand for. -/
def itemsOf : List (Option Char) → List ClassItem
  | [] => []
  | some a :: none :: some b :: rest => .range a b :: itemsOf rest
  | some a :: rest => .one a :: itemsOf rest
  | none :: rest => .one '-' :: itemsOf rest

/-- The class that the characters between brackets stand for. -/
def classOf (inside : Text) : GlobPart :=
  let least := if inside.head? = some '!' then 2 else 1
  let parts := dropEmptyRanges (closeLast (piecesAtHyphens inside.length least inside))
  match marked parts with
  | some '!' :: chars => .class true (itemsOf chars)
  | chars => .class false (itemsOf chars)

/-- Reads a class after its opening bracket up to and with its closing one. A closing bracket at the
start of a class belongs to it. -/
def readClass (t : Text) : Option (Text × Text) :=
  let negation := if t.head? = some '!' then 1 else 0
  let start := if (t.drop negation).head? = some ']' then negation + 1 else negation
  let rest := t.drop start
  match rest.dropWhile fun c => c != ']' with
  | _ :: after => some (t.take start ++ rest.takeWhile fun c => c != ']', after)
  | [] => none

/-! ## Patterns -/

/-- The parts of a pattern. The fuel bounds their number. -/
def partsWith : (fuel : Nat) → Text → List GlobPart
  | 0, _ => []
  | _ + 1, [] => []
  | fuel + 1, c :: t =>
    if c = '*' then .anyText :: partsWith fuel t
    else if c = '?' then .anyChar :: partsWith fuel t
    else if c = '[' then
      match readClass t with
      | some (inside, rest) => classOf inside :: partsWith fuel rest
      | none => .char '[' :: partsWith fuel t
    else .char c :: partsWith fuel t

/-- The parts of a pattern. -/
def parts (pattern : Text) : List GlobPart :=
  partsWith pattern.length pattern

/-- Whether some end of a text, perhaps all of it or nothing, satisfies `p`. -/
def anyEnd (p : Text → Bool) : Text → Bool
  | [] => p []
  | c :: t => p (c :: t) || anyEnd p t

/-- Whether a part that stands for one character covers it. -/
def coversChar (c : Char) : GlobPart → Bool
  | .anyText => false
  | .anyChar => true
  | .char d => c == d
  | .class negated items => negated != items.any (ClassItem.covers c)

/-- Whether the parts of a pattern cover a whole text. -/
def covers : List GlobPart → Text → Bool
  | [], t => t.isEmpty
  | .anyText :: parts, t => anyEnd (covers parts) t
  | part :: parts, c :: t => coversChar c part && covers parts t
  | _ :: _, [] => false

end Glob

/-- Whether a name has the form that a pattern describes. -/
def fitsPattern (pattern name : Text) : Bool :=
  Glob.covers (Glob.parts pattern) name

end SetupCatalog.Text
