import SetupCatalog.CommandLine.Settings
import SetupCatalog.Discovery
import SetupCatalog.Report.Document
import SetupCatalog.Report.Markdown
import SetupCatalog.Report.Plan
import SetupCatalog.SkipList

/-!
# Running the program

A run scans a folder and prints a report or writes it to a file. What is reported depends on the
folder and on what was asked for, never on how much progress is shown: the progress lines are made
by `announced` and `detailed`, and nothing else looks at the two settings that they look at.

A folder that is missing is a result like any other. A run comes to nothing only if the folder
cannot even be looked for, or if the report is to go to a path that can name no file.
-/

namespace SetupCatalog.CommandLine

open Text

/-- What a run leaves behind. -/
structure RunResult where
  /-- The exit code. -/
  exitCode : Nat
  /-- What was printed. -/
  out : Text
  /-- What was printed about progress and errors. -/
  err : Text
  /-- The disk after the run. -/
  disk : Disk

/-- The files that a run created or changed, with their contents. -/
def RunResult.written (before : Disk) (r : RunResult) : List (Location × List UInt8) :=
  (r.disk.top.files []).filter fun (l, content) => before.top.at? l != some (.file content)

/-! ## Progress -/

/-- A line that announces a step. -/
def announced (s : Settings) (message : Text) : Text :=
  if s.quiet then [] else '[' :: programName ++ "] ".toList ++ message ++ ['\n']

/-- A line with a detail. -/
def detailed (s : Settings) (message : Text) : Text :=
  if s.verbose && !s.quiet then "  ".toList ++ message ++ ['\n'] else []

/-- A line that says what went wrong. -/
def complaint (about message : Text) : Text :=
  about ++ ": ".toList ++ message ++ ['\n']

/-- The line that announces the search for scripts. -/
def searchLine (s : Settings) (root : Location) : Text :=
  announced s ("Discovering scripts in ".toList ++ locationText root ++ "...".toList)

/-- The lines about the scripts that were found and read. -/
def scriptLines (s : Settings) (found : Discovery) (sources : List Source) : Text :=
  (found.scripts.flatMap fun script => detailed s script.listing) ++
    detailed s (ofNat sources.length ++ " declaration scripts loaded".toList)

/-- The lines about the packages that were found. -/
def packageLines (s : Settings) (sources : List Source) (catalog : Catalog) : Text :=
  announced s "Extracting package declarations...".toList ++
    sources.flatMap fun source => detailed s (source.name ++ ": ".toList ++
      ofNat (catalog.ofScript source.name).length ++ " packages".toList)

/-- The lines that repeat the remarks. -/
def remarkLines (s : Settings) (remarks : List Text) : Text :=
  remarks.flatMap fun remark => announced s ("Warning: ".toList ++ remark)

/-- The line that counts packages and scripts. -/
def doneLine (s : Settings) (catalog : Catalog) : Text :=
  announced s ("Done. ".toList ++ ofNat catalog.packages.length ++ " packages in ".toList ++
    ofNat catalog.scriptCount ++ " scripts.".toList)

/-! ## The report -/

/-- The report that was asked for. -/
def content (s : Settings) (catalog : Catalog) (remarks : List Text) : Text :=
  if s.plan then Plan.render catalog.packages
  else
    -- the skip list marks packages; it takes none out of the report
    let list := if s.useSkipList then SkipList.standard else []
    let outcomes := list.outcomes catalog.packages
    match s.format with
    | .json => Report.document outcomes remarks (some 2) ++ ['\n']
    | .markdown => Report.markdown outcomes remarks {}

/-- The disk with the report in the file at a path, whose folders are made if they are missing. The
folders stay if the file cannot be written. -/
def writeReport (disk : Disk) (p : WrittenPath) (report : Text) : Except Disk.Stopped Disk := do
  let around ← disk.tryFolders p.parent
  around.orStopped (around.write p (Utf8.encode report))

/-- The file that the report goes to. -/
def outputPath (s : Settings) : Option WrittenPath :=
  match s.output with
  | none | some [] => none
  | some t => some (.ofText t)

/-- Hands over a report, given the progress lines before that. -/
def deliver (disk : Disk) (s : Settings) (progress : Text) (catalog : Catalog) (report : Text) :
    RunResult :=
  match outputPath s with
  | none => ⟨0, report, progress ++ doneLine s catalog, disk⟩
  | some p =>
    match writeReport disk p report with
    | .error stopped =>
      ⟨1, [], progress ++ complaint "Error writing file".toList stopped.error.message,
        stopped.disk⟩
    | .ok disk =>
      ⟨0, [], progress ++ announced s ("Report written to: ".toList ++ p.text) ++
        doneLine s catalog, disk⟩

/-- Why a run comes to nothing. -/
inductive RunFault where
  /-- The folder cannot be looked for. -/
  | root (e : RootFault)
  /-- The path of the report has a zero character in it. -/
  | zeroInOutput
  deriving DecidableEq, Repr

/-- The wording of what made a run come to nothing. -/
def RunFault.message : RunFault → Text
  | root e => e.message
  | zeroInOutput => WrittenPath.zeroMessage

/-- Whether writing to a path gets as far as a part with a zero character: the folders are made
first. -/
def meetsZero (disk : Disk) (p : WrittenPath) : Bool :=
  p.parent.hasZero || (p.hasZero && (disk.makeFolders p.parent).isOk)

/-- A run with the given settings. -/
def run (disk : Disk) (s : Settings) : Except RunFault RunResult :=
  let root := disk.resolve (.ofText s.path)
  let start := searchLine s root
  let p := if (WrittenPath.ofText s.path).hasZero then .ofText s.path else .ofLocation root
  match Discovery.ofDisk disk p s.excludes Discovery.recommendedLimit with
  | .error e =>
    if e.isFinding then .ok ⟨1, [], start ++ complaint "Error".toList e.message, disk⟩
    else .error (.root e)
  | .ok found =>
    if (outputPath s).any (meetsZero disk) then .error .zeroInOutput
    else
      let (sources, found) := found.load disk
      let catalog := Catalog.build sources s.options
      let remarks := found.remarks ++ catalog.remarks
      let progress := start ++ scriptLines s found sources ++ packageLines s sources catalog ++
        remarkLines s remarks
      .ok (deliver disk s progress catalog (content s catalog remarks))

/-- What a run that comes to nothing leaves behind: its fault is all that is printed, and no file is
changed. Folders made for a report whose name turns out to have a zero character are left out. -/
def RunFault.result (disk : Disk) (e : RunFault) : RunResult :=
  ⟨1, [], e.message ++ ['\n'], disk⟩

/-- What the program leaves behind, whether its run comes to something or not. -/
def finished (disk : Disk) : Except RunFault RunResult → RunResult
  | .ok r => r
  | .error e => e.result disk

/-- What the program does for the given arguments. -/
def runArguments (disk : Disk) (arguments : List Text) : Except RunFault RunResult :=
  match settingsOf arguments with
  | .ok s => run disk s
  | .error .help => .ok ⟨0, help, [], disk⟩
  | .error .version => .ok ⟨0, versionLine, [], disk⟩
  | .error (.fault e) => .ok ⟨2, [], e.report, disk⟩

end SetupCatalog.CommandLine
