import SetupCatalog.Text.Basic

/-!
# Capital letters

The names of methods are compared in capital letters. Only capital letters of ASCII matter there,
but a few other letters and ligatures have such capitals too.
-/

namespace SetupCatalog.Text

/-- The letters outside ASCII whose capital forms are letters of ASCII. -/
def foreignCapitals : List (Char × String) :=
  [('ß', "SS"), ('ı', "I"), ('ſ', "S"), ('\uFB00', "FF"), ('\uFB01', "FI"), ('\uFB02', "FL"),
    ('\uFB03', "FFI"), ('\uFB04', "FFL"), ('\uFB05', "ST"), ('\uFB06', "ST")]

/-- The capital form of a character as far as it has letters of ASCII. Others stay. -/
def capital (c : Char) : Text :=
  if c.toNat < 128 then [c.toUpper]
  else ((foreignCapitals.lookup c).map String.toList).getD [c]

/-- A text with the letters in it that have capitals of ASCII in capitals. -/
def capitals (t : Text) : Text :=
  t.flatMap capital

end SetupCatalog.Text
