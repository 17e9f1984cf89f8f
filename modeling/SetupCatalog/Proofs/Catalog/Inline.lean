import SetupCatalog.Proofs.Catalog.Independence
import SetupCatalog.Proofs.Disk.Decoding
import SetupCatalog.Proofs.Discovery.Exclusion
import SetupCatalog.Proofs.Rule.Unified
import SetupCatalog.Proofs.Service.Payload

/-!
# Scripts that are handed in and scripts that are found

A script reaches a catalog in two ways: a request carries its text, or discovery finds its file and
reads the bytes. The second way makes every line break a line feed and the first does not. Where the
script `ReadsAlike`, this makes no difference to its packages (`packages_inline_eq_file`).

It can make one, because windows are measured in characters: an address that is near enough to a
sideload in the file can be too far away in the text that the file was made from
(`packages_inline_ne_file`).
-/

namespace SetupCatalog

open Text Discovery

/-! ## The name of a script that was found -/

/-- The path to a script is not empty when it is spelt. -/
theorem Discovery.relativeText_ne_nil {path : List Text}
    (h : isScriptName (path.getLast?.getD []) = true) : relativeText path ≠ [] := by
  match path, h with
  | [], h => exact absurd h (by decide)
  | [name], h =>
    rintro rfl
    exact absurd h (by decide)
  | first :: second :: others, _ => simp [relativeText, joined]

/-- Every script that was found has a name. -/
theorem Discovery.name_ne_nil_of_mem_scripts {disk : Disk} {p : WrittenPath} {excludes : List Text}
    {limit : Int} {d : Discovery} {s : FoundScript} (hfound : ofDisk disk p excludes limit = .ok d)
    (hs : s ∈ d.scripts) : s.name ≠ [] := by
  rcases ofDisk_error_or_folder disk p with ⟨fault, hfault⟩ | ⟨hzero, inside, hfolder⟩
  · rw [hfault] at hfound
    cases hfound
  · rw [ofDisk_eq_ofFolder hzero hfolder] at hfound
    obtain rfl := Except.ok.inj hfound
    rw [scripts_ofFolder] at hs
    obtain ⟨path, hpath, rfl⟩ := List.mem_map.mp hs
    rw [mem_orderedPaths_iff, scriptPaths_eq] at hpath
    -- the path of a script ends with a name that has an extension
    obtain ⟨⟨walkedPath, node⟩, -, hscript⟩ := List.mem_filterMap.mp hpath
    unfold scriptPath? at hscript
    split at hscript
    · split at hscript
      · next hname =>
        obtain rfl := Option.some.inj hscript
        exact relativeText_ne_nil hname
      · cases hscript
    · cases hscript

namespace Catalog

/-- The packages of a single script are those that it declares. -/
theorem packages_build_singleton (s : Source) (options : ScanOptions) :
    (build [s] options).packages = packagesOf s.name s.text options := by
  rw [build_eq, List.flatMap_singleton]

end Catalog

/-- A file with the bytes of a text gives the text with one kind of line break. -/
theorem Discovery.readScript_of_encode {disk : Disk} {s : FoundScript} {t : Text}
    (hread : disk.read (.ofLocation s.location) = .ok (Utf8.encode t))
    (hmark : t.head? ≠ some '\uFEFF') :
    readScript disk s = .ok ⟨s.name, unifyBreaks t⟩ := by
  have htext := Disk.readText_of_encode hread hmark
  rw [Disk.readText] at htext
  rw [readScript, sourceFrom, Disk.files, htext]

/-- What discovery finds in all the scripts that it reads is what they declare when they are handed
in. -/
theorem Discovery.packages_load_eq_inline {disk : Disk} {d : Discovery} {text : FoundScript → Text}
    (hread : ∀ s ∈ d.declarations,
      disk.read (.ofLocation s.location) = .ok (Utf8.encode (text s)))
    (hmark : ∀ s ∈ d.declarations, (text s).head? ≠ some '\uFEFF')
    (halike : ∀ s ∈ d.declarations, ReadsAlike {} (text s)) :
    (Catalog.build (d.load disk).1 {}).packages =
      (Catalog.build (d.declarations.map fun s => ⟨s.name, text s⟩) {}).packages := by
  rw [packages_build_load, Catalog.build_eq, List.flatMap_map]
  refine List.flatMap_congr fun s hs => ?_
  rw [contribution, readScript_of_encode (hread s hs) (hmark s hs)]
  exact packagesOf_unified ScanOptions.forward_default (halike s hs) s.name

/-- The packages of a script that is handed in are those of the file that it is found in. -/
theorem packages_inline_eq_file {disk : Disk} {p : WrittenPath} {excludes : List Text} {limit : Int}
    {d : Discovery} {s : FoundScript} {t : Text} (hfound : ofDisk disk p excludes limit = .ok d)
    (hs : s ∈ d.scripts) (hread : disk.read (.ofLocation s.location) = .ok (Utf8.encode t))
    (hmark : t.head? ≠ some '\uFEFF') (halike : ReadsAlike {} t) :
    Service.sourcesOf (Service.payload [⟨s.name, t⟩]) = .ok [⟨s.name, t⟩] ∧
      readScript disk s = .ok ⟨s.name, unifyBreaks t⟩ ∧
      (Catalog.build [⟨s.name, t⟩] {}).packages =
        (Catalog.build [⟨s.name, unifyBreaks t⟩] {}).packages := by
  have hname := name_ne_nil_of_mem_scripts hfound hs
  refine ⟨Service.sourcesOf_payload (by simpa using hname), readScript_of_encode hread hmark, ?_⟩
  rw [Catalog.packages_build_singleton, Catalog.packages_build_singleton,
    packagesOf_unified ScanOptions.forward_default halike]

/-! ## A repository with one script -/

/-- A disk with nothing but one script at its top. -/
def diskWith (t : Text) : Disk :=
  ⟨.file "a.ps1".toList (Utf8.encode t) .empty, []⟩

/-- The script on such a disk. -/
def foundOnDisk : FoundScript :=
  scriptAt [] [] ["a.ps1".toList]

/-- The one script of the disk reads as the bytes of its text. -/
theorem read_diskWith (t : Text) :
    (diskWith t).read (.ofLocation foundOnDisk.location) = .ok (Utf8.encode t) := by
  have hlocation : foundOnDisk.location = ["a.ps1".toList] := by decide
  rw [hlocation]
  exact Disk.read_ofFile (Utf8.encode t)

/-- That script is found. -/
theorem mem_scripts_diskWith (t : Text) :
    ∃ d, ofDisk (diskWith t) (.ofText "/".toList) [] 500 = .ok d ∧ foundOnDisk ∈ d.scripts := by
  have hpath : ["a.ps1".toList] ∈ orderedPaths (diskWith t).top := by
    have hscript : isScriptName "a.ps1".toList = true := by decide
    rw [mem_orderedPaths_iff, diskWith, scriptPaths, hscript]
    exact List.mem_singleton_self _
  refine ⟨_, ofDisk_top _ [] 500, ?_⟩
  rw [scripts_ofFolder]
  exact List.mem_map_of_mem hpath

/-! ## Two scripts -/

/-- A script with a download and a sideload, one on each line, and the lines ending as given. -/
def sideloadScript (lineEnds : Text) : Text :=
  "iwr https://e.org/a.msix".toList ++ lineEnds ++ "Add-AppxPackage a".toList

/-- A sideloading script with carriage returns, as a file and inline. -/
theorem packages_inline_eq_file_sideload :
    ∃ d, ofDisk (diskWith (sideloadScript ['\r', '\n'])) (.ofText "/".toList) [] 500 = .ok d ∧
      foundOnDisk ∈ d.scripts ∧
      readScript (diskWith (sideloadScript ['\r', '\n'])) foundOnDisk =
        .ok ⟨"a.ps1".toList, sideloadScript ['\n']⟩ ∧
      (Catalog.build [⟨"a.ps1".toList, sideloadScript ['\r', '\n']⟩] {}).packages =
        (Catalog.build [⟨"a.ps1".toList, sideloadScript ['\n']⟩] {}).packages := by
  obtain ⟨d, hfound, hs⟩ := mem_scripts_diskWith (sideloadScript ['\r', '\n'])
  have halike : ReadsAlike {} (sideloadScript ['\r', '\n']) :=
    readsAlike_of_length_le (by decide) (by decide) (by decide) (by decide) (by decide)
  obtain ⟨-, hread, hpackages⟩ := packages_inline_eq_file hfound hs (read_diskWith _) (by decide)
    halike
  exact ⟨d, hfound, hs, hread, hpackages⟩

/-- A hundred and fifty empty lines between the download and the sideload are too many for the
address to be found in the text that is handed in, but not in the file. -/
theorem packages_inline_ne_file :
    let t := sideloadScript (List.replicate 150 ['\r', '\n']).flatten
    ∃ d, ofDisk (diskWith t) (.ofText "/".toList) [] 500 = .ok d ∧ foundOnDisk ∈ d.scripts ∧
      (diskWith t).read (.ofLocation foundOnDisk.location) = .ok (Utf8.encode t) ∧
      t.head? ≠ some '\uFEFF' ∧
      Service.sourcesOf (Service.payload [⟨foundOnDisk.name, t⟩]) = .ok [⟨foundOnDisk.name, t⟩] ∧
      readScript (diskWith t) foundOnDisk = .ok ⟨foundOnDisk.name, unifyBreaks t⟩ ∧
      (Catalog.build [⟨foundOnDisk.name, t⟩] {}).packages.map Package.id = ["unknown".toList] ∧
      (Catalog.build [⟨foundOnDisk.name, unifyBreaks t⟩] {}).packages.map Package.id =
        ["https://e.org/a.msix".toList] ∧
      (Catalog.build [⟨foundOnDisk.name, t⟩] {}).packages ≠
        (Catalog.build [⟨foundOnDisk.name, unifyBreaks t⟩] {}).packages := by
  intro t
  obtain ⟨d, hfound, hs⟩ := mem_scripts_diskWith t
  have hmark : t.head? ≠ some '\uFEFF' := by decide
  have hinline : (Catalog.build [⟨foundOnDisk.name, t⟩] {}).packages.map Package.id =
      ["unknown".toList] := by
    decide +kernel
  have hfile : (Catalog.build [⟨foundOnDisk.name, unifyBreaks t⟩] {}).packages.map Package.id =
      ["https://e.org/a.msix".toList] := by
    decide +kernel
  -- the identities differ, so the packages do
  refine ⟨d, hfound, hs, read_diskWith t, hmark, rfl, readScript_of_encode (read_diskWith t) hmark,
    hinline, hfile, fun hsame => ?_⟩
  rw [hsame, hfile] at hinline
  exact absurd hinline (by decide)

end SetupCatalog
