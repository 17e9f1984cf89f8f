import SetupCatalog.Text.Blank
import SetupCatalog.Text.WordRange

/-!
# Word characters

A word character is a letter, a digit or an underscore. The word rules of setup scripts hang on
two facts: a blank character is never a word character (`isWord_eq_false_of_isBlank`), and inside
ASCII the class is the usual one (`isWord_of_ascii`).
-/

namespace SetupCatalog.Text

/-- Whether a character is an ASCII letter or digit. -/
def isAsciiAlnum (c : Char) : Bool :=
  c.isAlphanum

/-- Whether a character can be part of a word: a letter, a digit or an underscore. -/
def isWord (c : Char) : Bool :=
  if c.toNat < 128 then isAsciiAlnum c || c == '_' else inRanges wordRanges c.toNat

theorem isWord_of_ascii {c : Char} (h : c.toNat < 128) :
    isWord c = (isAsciiAlnum c || c == '_') := by
  simp [isWord, h]

/-- The blank ASCII characters are no word characters. -/
theorem ascii_blank_not_word :
    ∀ n < 128, inRanges blankRanges n = true → isWord (Char.ofNat n) = false := by
  decide +kernel

/-- The blank ranges and the ranges of letters outside ASCII do not meet. -/
theorem blankRanges_disjoint_wordRanges : rangesDisjoint blankRanges wordRanges = true := by
  decide +kernel

/-- A blank character is not a word character. -/
theorem isWord_eq_false_of_isBlank {c : Char} (h : isBlank c = true) : isWord c = false := by
  by_cases hc : c.toNat < 128
  · have := ascii_blank_not_word c.toNat hc h
    rwa [Char.ofNat_toNat] at this
  · simp only [isWord, hc, if_false]
    exact not_inRanges_of_disjoint blankRanges_disjoint_wordRanges h

end SetupCatalog.Text
