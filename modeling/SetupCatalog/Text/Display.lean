import SetupCatalog.Text.Basic
import SetupCatalog.Text.PrintableRange
import SetupCatalog.Text.Range

/-!
# Texts shown inside messages

A message shows a text between quotes, with its invisible characters spelled out, so that the
reader sees exactly which characters it has.
-/

namespace SetupCatalog.Text

/-- Whether a character has a visible form of its own, the space included. -/
def isVisible (c : Char) : Bool :=
  if c.toNat < 128 then 32 ≤ c.toNat && c.toNat < 127
  else !inRanges invisibleRanges c.toNat

/-- The quote that a text is shown in: the single quote, unless the text contains it and no double
quote. -/
def displayQuote (t : Text) : Char :=
  if t.contains '\'' && !t.contains '"' then '"' else '\''

/-- A character as it is shown between the given quotes. -/
def displayChar (quote c : Char) : Text :=
  if c = quote || c = '\\' then ['\\', c]
  else if c = '\n' then ['\\', 'n']
  else if c = '\r' then ['\\', 'r']
  else if c = '\t' then ['\\', 't']
  else if isVisible c then [c]
  else if c.toNat < 0x100 then '\\' :: 'x' :: hex 2 c.toNat
  else if c.toNat < 0x10000 then '\\' :: 'u' :: hex 4 c.toNat
  else '\\' :: 'U' :: hex 8 c.toNat

/-- A text in quotes, with the quote, the backslash and every invisible character escaped. -/
def display (t : Text) : Text :=
  let quote := displayQuote t
  quote :: t.flatMap (displayChar quote) ++ [quote]

end SetupCatalog.Text
