import SetupCatalog.Text.Basic
import SetupCatalog.Text.CaseRange
import SetupCatalog.Text.Range

/-!
# Letter case

`lowerChar` is the lower-case form of a single character, and `sameLetter` compares two characters
without regard to case. `lower` lowers a whole text, where one capital letter becomes two
characters and a capital sigma at the end of a word has a form of its own.
-/

namespace SetupCatalog.Text

/-- The lower-case form of a character, always a single character. -/
def lowerChar (c : Char) : Char :=
  if c.toNat < 128 then c.toLower
  else
    match capitalRuns.find? fun (first, last, step, _) =>
        first ≤ c.toNat && c.toNat ≤ last && (c.toNat - first) % step == 0 with
    | some (_, _, _, shift) => Char.ofNat (c.toNat + shift).toNat
    | none => c

/-- Whether two characters are the same letter when case is ignored. -/
def sameLetter (c d : Char) : Bool :=
  let c := lowerChar c
  let d := lowerChar d
  c == d || letterVariants.any fun g => g.contains c.toNat && g.contains d.toNat

/-- Whether the nearest character of `t` that is not passed over has a case. -/
def casedNext (t : Text) : Bool :=
  match t.dropWhile fun c => inRanges caseIgnorableRanges c.toNat with
  | [] => false
  | c :: _ => inRanges casedRanges c.toNat

/-- Lowers the characters of a text one by one; `before` holds the characters already passed, the
nearest first. A capital sigma that ends a word becomes a final sigma. -/
def lowerFrom (before : Text) : Text → Text
  | [] => []
  | c :: t =>
    let low :=
      if c = 'Σ' then (if casedNext before && !casedNext t then ['ς'] else ['σ'])
      else if c = 'İ' then ['i', '\u0307']
      else [lowerChar c]
    low ++ lowerFrom (c :: before) t

/-- The lower-case form of a text. -/
def lower (t : Text) : Text :=
  lowerFrom [] t

end SetupCatalog.Text
