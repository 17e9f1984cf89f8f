import SetupCatalog.Proofs.Package.Novelty
import SetupCatalog.Proofs.Rule.WrittenArray
import SetupCatalog.Proofs.Script.Brace

/-!
# Loops with braces in their bodies

The body of a loop ends at the brace that closes it, and `bodyOf` finds that one by counting. The
rule for piped arrays does not count: it looks for an installation up to the first closing brace
only. The literals are therefore attributed by the beginning of the body, and by the body itself
exactly if its beginning has the same to say. A statement in braces that comes before the
installation hides it.

`scan_textWith` is the main statement.
-/

namespace SetupCatalog.Rule.PipedArray

open Text Pattern Script

/-- The packages that literals declare, given what their loop installs with. -/
def packagesBy (script : Text) (literals : List Text) : Option Installer → List Package
  | none => []
  | some installer => (values literals).eraseDups.map (plainPackage installer script)

/-- Literals with a value declare the same only with the same installer. -/
theorem packagesBy_inj {script : Text} {literals : List Text} {i j : Option Installer} :
    packagesBy script literals i = packagesBy script literals j ↔ values literals = [] ∨ i = j := by
  constructor
  · intro h
    -- one package is enough to tell the installer
    cases hvalues : values literals with
    | nil => exact Or.inl rfl
    | cons value others =>
      right
      simp only [packagesBy, hvalues, List.eraseDups_cons, List.map_cons] at h
      cases i with
      | none =>
        cases j with
        | none => rfl
        | some j => cases h
      | some i =>
        cases j with
        | none => cases h
        | some j => exact congrArg some (congrArg Package.installer (List.cons.inj h).1)
  · rintro (hvalues | rfl)
    · cases i <;> cases j <;> simp [packagesBy, hvalues]
    · rfl

/-- What a match at the start of a script declares. -/
theorem newPackages_declared (script : Text) {found : Loop} {literals : List Text}
    (hrun : literalValues found.run = values literals) (after : Text) :
    newPackages [] (declared script ⟨[], found, after⟩) =
      packagesBy script literals (installerIn found.body) := by
  have hcomment : ¬isComment (lineBefore (⟨[], found, after⟩ : Hit Loop)) = true :=
    Bool.false_ne_true
  rw [declared, if_neg hcomment, hrun]
  cases installerIn found.body with
  | none => rfl
  | some installer => exact newPackages_plainPackage installer script _

/-- What the beginning of the body declares is found first, and nothing else if there is no further
loop behind it. -/
theorem exists_newPackages_textWith (w : WrittenLoop) {inside : Text} (hclosed : '}' ∈ inside)
    (script : Text) :
    ∃ later, newPackages [] (candidates script (w.textWith inside)) =
        packagesBy script w.literals (installerIn (readPart inside)) ++ later ∧
      (loop.occursIn (unreadPart inside) = false → later = []) := by
  obtain ⟨hits, hall, hlast⟩ := exists_all_textWith w hclosed
  refine ⟨_, by rw [candidates, hall, List.flatMap_cons, newPackages_append,
    newPackages_declared script w.literalValues_run],
    fun h => ?_⟩
  rw [hlast h, List.flatMap_nil]
  rfl

/-- **The literals of a loop are attributed by what its body has up to the first closing brace.**
For every written array and whatever stands in the braces of its loop, up to the brace that closes
them: the first packages that are found are those that the beginning of the body declares, and there
are no others if there is no further loop behind it. The whole body declares the same exactly if no
literal has a value or it has the same installer as its beginning. -/
theorem scan_textWith (w : WrittenLoop) {inside body after : Text}
    (hbody : bodyOf 0 inside = some (body, after)) (options : ScanOptions) (earlier : List Text)
    (script : Text) :
    let found := ((⟨.pipedArray, options, earlier⟩ : Detector).scan script (w.textWith inside) []).1
    packagesBy script w.literals (installerIn (readPart inside)) <+: found ∧
    (loop.occursIn (unreadPart inside) = false →
      found = packagesBy script w.literals (installerIn (readPart inside)) ∧
      (found = packagesBy script w.literals (installerIn body) ↔
        values w.literals = [] ∨ installerIn (readPart inside) = installerIn body)) := by
  intro found
  obtain ⟨-, hinside⟩ := bodyOf_eq_some_iff.mp hbody
  obtain ⟨later, hfound, hlast⟩ :=
    exists_newPackages_textWith w (show '}' ∈ inside by rw [hinside]; simp) script
  replace hfound : found = _ := hfound
  refine ⟨hfound ▸ List.prefix_append _ _, fun hno => ?_⟩
  rw [hlast hno, List.append_nil] at hfound
  exact ⟨hfound, by rw [hfound, packagesBy_inj]⟩

/-- One literal in a loop. -/
def gitLoop : WrittenLoop where
  first := ⟨'\'', "git".toList, by decide, by decide, by decide, by decide⟩
  others := []
  parentheses := none
  beforePipe := ⟨[' '], by decide⟩
  afterPipe := ⟨[' '], by decide⟩
  word := "%".toList
  word_mem := by decide
  beforeBody := ⟨[' '], by decide⟩
  tool := .choco

/-- An installation in braces is found if it comes first. -/
theorem scan_textWith_gitLoop :
    let inside := " if ($x) \x7b choco install $_ \x7d \x7d".toList
    bodyOf 0 inside = some (" if ($x) \x7b choco install $_ \x7d ".toList, []) ∧
    ((⟨.pipedArray, {}, []⟩ : Detector).scan [] (gitLoop.textWith inside) []).1 =
      packagesBy [] gitLoop.literals (some .choco) := by
  intro inside
  have hbody : bodyOf 0 inside = some (" if ($x) \x7b choco install $_ \x7d ".toList, []) := by
    decide
  obtain ⟨-, hread⟩ := scan_textWith gitLoop hbody {} [] []
  have hwhole := (hread (by decide)).2.mpr (Or.inr (by decide))
  refine ⟨hbody, hwhole.trans (congrArg _ ?_)⟩
  decide

/-- A body can have an installation that its beginning has not, and another one than its beginning.
-/
theorem scan_textWith_ne_packagesBy :
    (let body := " if ($x) \x7b y \x7d choco install $_ ".toList
     bodyOf 0 (body ++ ['}']) = some (body, []) ∧
       packagesBy [] gitLoop.literals (installerIn body) =
         [plainPackage .choco [] "git".toList] ∧
       ((⟨.pipedArray, {}, []⟩ : Detector).scan [] (gitLoop.textWith (body ++ ['}'])) []).1 = []) ∧
    (let body :=
       " if ($x) \x7b scoop install $_ \x7d else \x7b choco install $_ \x7d ".toList
     bodyOf 0 (body ++ ['}']) = some (body, []) ∧
       packagesBy [] gitLoop.literals (installerIn body) =
         [plainPackage .choco [] "git".toList] ∧
       ((⟨.pipedArray, {}, []⟩ : Detector).scan [] (gitLoop.textWith (body ++ ['}'])) []).1 =
         [plainPackage .scoop [] "git".toList]) := by
  refine ⟨⟨?_, ?_, ?_⟩, ?_, ?_, ?_⟩ <;> decide

end SetupCatalog.Rule.PipedArray
