import SetupCatalog.Catalog
import SetupCatalog.Disk.Decoding
import SetupCatalog.Text.Case
import SetupCatalog.Text.Glob

/-!
# Discovering scripts

The scripts of a repository are the files below its root whose names end in `.ps1`, in any letter
case. Links are not followed, and folders of tools and version control are left out. A script either
declares packages or is excluded by its name. Scripts are listed in the order of their names.
-/

namespace SetupCatalog

open Text

/-- Whether a script is searched for packages. -/
inductive ScriptCategory where
  | declaration
  | excluded
  deriving DecidableEq, Repr

/-- The name of a category in listings. -/
def ScriptCategory.name : ScriptCategory → Text
  | declaration => "DECLARATION".toList
  | excluded => "EXCLUDED".toList

/-- A script below the root of a repository. -/
structure FoundScript where
  /-- The path of the script below the root, with slashes. -/
  name : Text
  /-- Where the script is. -/
  location : Location
  /-- Whether the script is searched for packages. -/
  category : ScriptCategory
  /-- Why it is or is not. -/
  note : Text
  deriving DecidableEq, Repr

/-- How a script is listed. -/
def FoundScript.listing (s : FoundScript) : Text :=
  s.name ++ " [".toList ++ s.category.name ++ "]".toList

/-- The scripts of a repository and what was remarked while they were searched for and read. -/
structure Discovery where
  /-- The root of the repository. -/
  root : Location
  /-- The scripts in the order of their names. -/
  scripts : List FoundScript
  /-- The folders that were left out, each with the reason. -/
  skippedFolders : List (Text × Text)
  /-- The remarks so far. -/
  remarks : List Text
  /-- Whether there are more scripts than recommended. -/
  exceedsLimit : Bool

/-- Why scripts cannot be searched for. -/
inductive RootFault where
  | missing (root : Location)
  | notFolder (root : Location)
  | loop (root : Location)
  | tooLong (root : Location)
  | zeroCharacter
  deriving DecidableEq, Repr

namespace RootFault

/-- The wording of a fault of the root. -/
def message : RootFault → Text
  | missing root => "Path does not exist: ".toList ++ locationText root
  | notFolder root => "Path is not a directory: ".toList ++ locationText root
  | loop root => "Symlink loop from ".toList ++ Text.display (locationText root)
  | tooLong root => DiskError.message ⟨.nameTooLong, .ofLocation root⟩
  | zeroCharacter => WrittenPath.zeroMessage

/-- Whether the root can be looked at and is found to be no folder. Otherwise not even that can be
told. -/
def isFinding : RootFault → Bool
  | missing _ | notFolder _ => true
  | loop _ | tooLong _ | zeroCharacter => false

end RootFault

namespace Discovery

/-! ## Names -/

/-- The names of folders that are left out. -/
def ignoredFolders : List Text :=
  [".git".toList, ".svn".toList, ".hg".toList, ".github".toList, ".vscode".toList,
    ".idea".toList, "node_modules".toList, "__pycache__".toList, ".venv".toList, "venv".toList,
    "build".toList, "dist".toList]

/-- Whether a folder with the given name is left out. -/
def isIgnored (name : Text) : Bool :=
  ignoredFolders.contains name

/-- Whether a file with the given name is a script. -/
def isScriptName (name : Text) : Bool :=
  ".ps1".toList.isSuffixOf (lower name)

/-- The patterns of scripts that declare no packages, each with what such a script is for. -/
def usualExclusions : List (Text × Text) :=
  [("_*.ps1".toList, "Shared helper script".toList),
    ("*.Tests.ps1".toList, "Pester test suite".toList),
    ("test-*.ps1".toList, "CI test driver".toList),
    ("install-all.ps1".toList, "Aggregate installer driver".toList),
    ("profile.ps1".toList, "PowerShell profile".toList),
    ("Microsoft.PowerShell_profile.ps1".toList, "PowerShell profile".toList)]

/-- The exclusion by a pattern that was asked for. -/
def requestedExclusion (pattern : Text) : Text × Text :=
  (pattern, "Excluded by pattern: ".toList ++ pattern)

/-- Whether a name fits a pattern when letter case is ignored. -/
def fits (name pattern : Text) : Bool :=
  fitsPattern (lower pattern) (lower name)

/-- The category of a script with the given name, and the reason for it: the first pattern that
fits excludes the script, the usual ones before those asked for. -/
def classify (excludes : List Text) (name : Text) : ScriptCategory × Text :=
  match (usualExclusions ++ excludes.map requestedExclusion).find? fun e => fits name e.1 with
  | some (_, note) => (.excluded, note)
  | none => (.declaration, "Package declaration script".toList)

/-! ## The walk -/

/-- The paths of the scripts of a folder, `above` being its own path below the root. -/
def scriptPaths (above : List Text) : Folder → List (List Text)
  | .empty => []
  | .file name _ rest =>
    (if isScriptName name then [above ++ [name]] else []) ++ scriptPaths above rest
  | .link _ _ rest => scriptPaths above rest
  | .folder name inside rest =>
    (if isIgnored name then [] else scriptPaths (above ++ [name]) inside) ++
      scriptPaths above rest

/-- The paths of the entries of a folder that are left out: the ignored folders, and the links with
an ignored name that lead to a folder. -/
def skippedPaths (leadsToFolder : List Text → Bool) (above : List Text) :
    Folder → List (List Text × Text)
  | .empty => []
  | .file _ _ rest => skippedPaths leadsToFolder above rest
  | .link name _ rest =>
    (if isIgnored name && leadsToFolder (above ++ [name]) then [(above ++ [name], name)] else []) ++
      skippedPaths leadsToFolder above rest
  | .folder name inside rest =>
    (if isIgnored name then [(above ++ [name], name)]
      else skippedPaths leadsToFolder (above ++ [name]) inside) ++
      skippedPaths leadsToFolder above rest

/-- The script at a path below the root. -/
def scriptAt (root : Location) (excludes : List Text) (path : List Text) : FoundScript :=
  let (category, note) := classify excludes (path.getLast?.getD [])
  { name := relativeText path, location := root ++ path, category, note }

/-- The order of scripts. -/
def inOrder (s t : FoundScript) : Bool :=
  le s.name t.name

/-- The number of scripts that is recommended at most. -/
def recommendedLimit : Int := 500

/-- The remark that there are too many scripts. -/
def tooMany (count : Nat) (limit : Int) : Text :=
  "Repository contains ".toList ++ ofNat count ++ " scripts, more than the recommended ".toList ++
    ofInt limit ++ ". Discovery may be slow.".toList

/-- The remark that no script declares packages. -/
def noneFound : Text :=
  "No declaration scripts discovered.".toList

/-- The scripts below a root. -/
def ofFolder (root : Location) (inside : Folder) (leadsToFolder : List Text → Bool)
    (excludes : List Text) (limit : Int) : Discovery :=
  -- sorted once here, so all that is made of the scripts is in their order
  let scripts := ((scriptPaths [] inside).map (scriptAt root excludes)).mergeSort inOrder
  let exceeds := (scripts.length : Int) > limit
  { root
    scripts
    skippedFolders := (skippedPaths leadsToFolder [] inside).map fun (path, name) =>
      (relativeText path, "Default ignore: ".toList ++ name)
    remarks :=
      (if exceeds then [tooMany scripts.length limit] else []) ++
        (if scripts.any fun s => s.category = .declaration then [] else [noneFound])
    exceedsLimit := exceeds }

/-- The scripts below the folder that a path leads to. -/
def ofDisk (disk : Disk) (p : WrittenPath) (excludes : List Text) (limit : Int) :
    Except RootFault Discovery :=
  if p.hasZero then .error .zeroCharacter
  else
    let root := disk.resolve p
    let q := WrittenPath.ofLocation root
    match disk.locate q with
    -- a path that cannot be followed to its end is a fault of another kind than a missing one
    | .error .linkLoop => .error (.loop root)
    | .error .nameTooLong => .error (.tooLong root)
    | _ =>
      if !disk.isThere q then .error (.missing root)
      else match disk.folder? q with
        | none => .error (.notFolder root)
        | some inside =>
          .ok (ofFolder root inside
            (fun path => disk.isFolder (WrittenPath.ofLocation (root ++ path))) excludes limit)

/-! ## Reading the scripts -/

/-- The scripts that are searched for packages. -/
def declarations (d : Discovery) : List FoundScript :=
  d.scripts.filter fun s => s.category = .declaration

/-- The scripts that are excluded by their names. -/
def excluded (d : Discovery) : List FoundScript :=
  d.scripts.filter fun s => s.category = .excluded

/-- The text of a script or the remark that it cannot be read, from what reading its file gives. -/
def sourceFrom (s : FoundScript) (content : Except FileFault (List UInt8)) : Except Text Source :=
  match Encoding.markedUtf8.textOf content with
  | .ok text => .ok ⟨s.name, text⟩
  | .error fault => .error (fault.remark (.ofLocation s.location))

/-- The text of a script, or the remark that it cannot be read. -/
def readScript (disk : Disk) (s : FoundScript) : Except Text Source :=
  sourceFrom s (disk.files s.location)

/-- The scripts that can be read. -/
def sourcesOf (results : List (Except Text Source)) : List Source :=
  results.filterMap fun
    | .ok source => some source
    | .error _ => none

/-- The remarks on the scripts that cannot be read. -/
def faultsOf (results : List (Except Text Source)) : List Text :=
  results.filterMap fun
    | .ok _ => none
    | .error remark => some remark

/-- The scripts that are searched for packages and can be read, and the discovery with a remark on
each of the others. -/
def loadFrom (files : Files) (d : Discovery) : List Source × Discovery :=
  let results := d.declarations.map fun s => sourceFrom s (files s.location)
  (sourcesOf results, { d with remarks := d.remarks ++ faultsOf results })

/-- The scripts of a disk that are searched for packages and can be read. -/
def load (disk : Disk) (d : Discovery) : List Source × Discovery :=
  d.loadFrom disk.files

end Discovery

/-- The scripts below the folder that a path leads to, and the catalog of their packages. -/
def scanFolder (disk : Disk) (p : WrittenPath) (excludes : List Text) (options : ScanOptions) :
    Except RootFault (Discovery × Catalog) := do
  let found ← Discovery.ofDisk disk p excludes Discovery.recommendedLimit
  let (sources, found) := found.load disk
  return (found, Catalog.build sources options)

end SetupCatalog
