import SetupCatalog.Text.Basic
import SetupCatalog.Text.Range

/-!
# Blank characters

The characters that separate words: the controls from tab to carriage return, the four separators
below the space, and the white space of Unicode. A zero-width space and a byte-order mark are not
blank.
-/

namespace SetupCatalog.Text

/-- The ranges of the blank characters. -/
def blankRanges : List (Nat × Nat) :=
  [(9, 13), (28, 32), (133, 133), (160, 160), (5760, 5760), (8192, 8202), (8232, 8233),
   (8239, 8239), (8287, 8287), (12288, 12288)]

/-- Whether a character is blank. -/
def isBlank (c : Char) : Bool :=
  inRanges blankRanges c.toNat

/-- The text without the blank characters at its start. -/
def trimStart (t : Text) : Text :=
  t.dropWhile isBlank

/-- The text without the blank characters at its two ends. -/
def strip (t : Text) : Text :=
  trimEnd isBlank (trimStart t)

end SetupCatalog.Text
