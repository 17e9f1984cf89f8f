import SetupCatalog.Proofs.Detector.Scan
import SetupCatalog.Proofs.Rule.Uncased

/-!
# Scans without letter case

Two scripts that differ in the case of letters only declare the same packages: the same installers
with the same identities, when these are lowered (`mem_loweredKeys_iff`).

The records themselves may differ. A repeated package is recognised by the spelling of its identity,
so an identity that is spelt in two ways gives two records, and one where the spellings agree. The
pairs of installer and lowered identity are the same all the same, since a package is left out only
where a package with the same pair has been declared.
-/

namespace SetupCatalog

open Text

/-- What installs a package and what the package is, in lower case. -/
def Package.loweredKey (p : Package) : Installer × Text :=
  (p.installer, lower p.id)

/-- The lowered keys of the packages that every rule together finds in a script. -/
def loweredKeys (script text : Text) (options : ScanOptions) : List (Installer × Text) :=
  (packagesOf script text options).map Package.loweredKey

/-- Lowering forgets no more than the case of letters. -/
theorem loweredKey_eq (p : Package) :
    p.loweredKey = (p.uncasedKey.1, lower p.uncasedKey.2) := by
  rw [Package.loweredKey, Package.uncasedKey, lower_uncased]

/-- Leaving out repeated packages leaves out no lowered key. -/
theorem mem_map_loweredKey_newPackages_iff {ps : List Package} {k : Installer × Text} :
    k ∈ (newPackages [] ps).map Package.loweredKey ↔ k ∈ ps.map Package.loweredKey := by
  simp only [List.mem_map]
  constructor
  · rintro ⟨p, hp, rfl⟩
    exact ⟨p, (mem_newPackages hp).1, rfl⟩
  · rintro ⟨p, hp, rfl⟩
    obtain ⟨q, hq, hkey⟩ := exists_newPackages hp List.not_mem_nil
    obtain ⟨hinstaller, hid⟩ := Package.key_eq_iff.mp hkey
    refine ⟨q, hq, ?_⟩
    rw [Package.loweredKey, hinstaller, hid, Package.loweredKey]

/-- The lowered keys of an uncased script are those of the script. -/
theorem mem_loweredKeys_uncased_iff {script text : Text} {options : ScanOptions}
    {k : Installer × Text} :
    k ∈ loweredKeys script (uncased text) options ↔ k ∈ loweredKeys script text options := by
  have hrules : (Rule.all.flatMap fun rule => rule.candidates options script (uncased text)).map
      Package.uncasedKey =
        (Rule.all.flatMap fun rule => rule.candidates options script text).map
          Package.uncasedKey := by
    rw [List.map_flatMap, List.map_flatMap]
    exact List.flatMap_congr fun rule _ => rule.candidates_uncased options script text
  have hlowered : ∀ ps : List Package, ps.map Package.loweredKey =
      (ps.map Package.uncasedKey).map fun key => (key.1, lower key.2) := by
    intro ps
    rw [List.map_map]
    exact List.map_congr_left fun p _ => loweredKey_eq p
  rw [loweredKeys, packagesOf_eq, mem_map_loweredKey_newPackages_iff, hlowered, hrules, ← hlowered,
    ← mem_map_loweredKey_newPackages_iff, ← packagesOf_eq, loweredKeys]

/-- **Extraction does not depend on the case of letters.** Two scripts that are the same text when
their capital letters are written small declare the same packages, up to the case of letters. -/
theorem mem_loweredKeys_iff {text text' : Text} (h : uncased text = uncased text') (script : Text)
    (options : ScanOptions) (k : Installer × Text) :
    k ∈ loweredKeys script text options ↔ k ∈ loweredKeys script text' options := by
  rw [← mem_loweredKeys_uncased_iff, h, mem_loweredKeys_uncased_iff]

/-- The same call, spelt in two ways. -/
theorem mem_loweredKeys_shouted :
    uncased "winget install --id Git.Git".toList = uncased "WINGET Install --ID git.GIT".toList ∧
    (Installer.winget, "git.git".toList) ∈
      loweredKeys [] "WINGET Install --ID git.GIT".toList {} := by
  have hcase : uncased "winget install --id Git.Git".toList =
      uncased "WINGET Install --ID git.GIT".toList := by decide
  refine ⟨hcase, (mem_loweredKeys_iff hcase [] {} _).mp ?_⟩
  decide

end SetupCatalog
