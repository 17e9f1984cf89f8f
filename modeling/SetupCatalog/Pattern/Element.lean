import SetupCatalog.Pattern.Basic
import SetupCatalog.Text.Case
import SetupCatalog.Text.Line
import SetupCatalog.Text.Word

/-!
# The elements of patterns

Each element reads something at the start of a text and returns the rest, or `none` where the text
does not start that way. The two tests at the end say whether a word can start or end at a spot.
-/

namespace SetupCatalog.Pattern

open Text

/-- Reads the given word, without regard to letter case. -/
def keyword : Text → Text → Option Text
  | [], t => some t
  | _ :: _, [] => none
  | w :: ws, c :: t => if sameLetter w c then keyword ws t else none

/-- Reads the first of the given words that the text starts with. -/
def anyKeyword : List Text → Text → Option Text
  | [], _ => none
  | w :: ws, t => (keyword w t).orElse fun _ => anyKeyword ws t

/-- Reads the given character. -/
def symbol (s : Char) : Text → Option Text
  | c :: t => if c = s then some t else none
  | [] => none

/-- Reads all the blank characters there are, and at least one. -/
def someBlanks : Text → Option Text
  | c :: t => if isBlank c then some (trimStart t) else none
  | [] => none

/-- Whether a character is a single or a double quote. -/
def isQuote (c : Char) : Bool :=
  c == '\'' || c == '"'

/-- Reads a quote if there is one. -/
def optionalQuote : Text → Text
  | c :: t => if isQuote c then t else c :: t
  | [] => []

/-- Reads the characters that satisfy `p`, and at least one. -/
def someOf (p : Char → Bool) (t : Text) : Option (Text × Text) :=
  match t.takeWhile p with
  | [] => none
  | c :: w => some (c :: w, t.dropWhile p)

/-- The characters that two texts differ by, the second being an end of the first. -/
def consumed (t rest : Text) : Text :=
  t.take (t.length - rest.length)

/-- The text up to the end of its line, and the rest from there on. -/
def restOfLine (t : Text) : Text × Text :=
  (t.takeWhile fun c => !isLineEnd c, t.dropWhile fun c => !isLineEnd c)

/-- Whether a word can start after the given character. -/
def wordStarts (prev : Option Char) : Bool :=
  !prev.any isWord

/-- Whether a word can end before the given text. -/
def wordEnds (rest : Text) : Bool :=
  !rest.head?.any isWord

/-- Whether a flag can start after the given character: not inside a word, and not after a
hyphen. -/
def flagStarts (prev : Option Char) : Bool :=
  !prev.any fun c => isWord c || c == '-'

/-- Whether a character is an ASCII letter or digit when letter case is ignored: the dotless and
the dotted i, the long s and the Kelvin sign count as letters then. -/
def isAlnumAnyCase (c : Char) : Bool :=
  isAsciiAlnum c || c == 'ı' || c == 'İ' || c == 'ſ' || c == '\u212A'

end SetupCatalog.Pattern
