import SetupCatalog.CommandLine.Run
import SetupCatalog.Proofs.Discovery.Exact
import SetupCatalog.Proofs.Disk.Writing

/-!
# What a run shows and where it puts it

A run searches for scripts, makes a report of them and hands it over. The search and the report look
neither at how much progress is to be shown nor at where the report goes (`search`, `reportOf`), so
runs that differ in nothing else come to the same report. Where a run fails, and what it then says,
is `Fails`.

`finished_run` is the main statement. It is about whole runs: of every disk, with all settings, and
whether the run comes to something or not.
-/

namespace SetupCatalog.CommandLine

open Text

/-! ## The stages of a run -/

/-- The search for scripts that a run starts with. -/
def search (disk : Disk) (s : Settings) : Except RootFault Discovery :=
  let root := disk.resolve (.ofText s.path)
  let p := if (WrittenPath.ofText s.path).hasZero then .ofText s.path else .ofLocation root
  Discovery.ofDisk disk p s.excludes Discovery.recommendedLimit

/-- The catalog of the scripts that have been found. -/
def catalogOf (disk : Disk) (s : Settings) (found : Discovery) : Catalog :=
  Catalog.build (found.load disk).1 s.options

/-- The remarks on the scripts that have been found, on reading them and on their contents. -/
def remarksOf (disk : Disk) (s : Settings) (found : Discovery) : List Text :=
  (found.load disk).2.remarks ++ (catalogOf disk s found).remarks

/-- The report on the scripts that have been found. -/
def reportOf (disk : Disk) (s : Settings) (found : Discovery) : Text :=
  content s (catalogOf disk s found) (remarksOf disk s found)

/-- The progress that is shown before the report is handed over. -/
def progressOf (disk : Disk) (s : Settings) (found : Discovery) : Text :=
  searchLine s (disk.resolve (.ofText s.path)) ++
    scriptLines s (found.load disk).2 (found.load disk).1 ++
    packageLines s (found.load disk).1 (catalogOf disk s found) ++
    remarkLines s (remarksOf disk s found)

/-- A run whose search failed: the message and code 1 where the program foresees the fault, a fault
of the run where it does not. -/
theorem run_of_search_error {disk : Disk} {s : Settings} {e : RootFault}
    (h : search disk s = .error e) :
    run disk s = if e.isFinding then
      .ok ⟨1, [], searchLine s (disk.resolve (.ofText s.path)) ++
        complaint "Error".toList e.message, disk⟩
    else .error (.root e) := by
  rw [search] at h
  simp only [run, h]

/-- A run whose search went well delivers the report, unless the name for it cannot be asked about.
-/
theorem run_of_search_ok {disk : Disk} {s : Settings} {found : Discovery}
    (h : search disk s = .ok found) :
    run disk s = if (outputPath s).any (meetsZero disk) then .error .zeroInOutput
      else .ok (deliver disk s (progressOf disk s found) (catalogOf disk s found)
        (reportOf disk s found)) := by
  rw [search] at h
  simp only [run, h]
  rfl

/-- What a run fails for: the root, or the path of the report, with the message that says so. -/
inductive Fails (disk : Disk) (s : Settings) : Text → Prop
  /-- There is nothing to search. -/
  | root {e : RootFault} (h : search disk s = .error e) : Fails disk s e.message
  /-- The report cannot be written. -/
  | output {found : Discovery} {p : WrittenPath} {stopped : Disk.Stopped}
      (h : search disk s = .ok found) (hp : outputPath s = some p)
      (hzero : meetsZero disk p = false)
      (hwrite : writeReport disk p (reportOf disk s found) = .error stopped) :
      Fails disk s stopped.error.message
  /-- The path of the report has a zero character in it. -/
  | zero {found : Discovery} {p : WrittenPath} (h : search disk s = .ok found)
      (hp : outputPath s = some p) (hzero : meetsZero disk p = true) :
      Fails disk s WrittenPath.zeroMessage

/-! ## Progress -/

/-- A quiet run announces nothing. -/
theorem announced_of_quiet {s : Settings} (h : s.quiet = true) (message : Text) :
    announced s message = [] :=
  if_pos h

/-- A quiet run says no details either. -/
theorem detailed_of_quiet {s : Settings} (h : s.quiet = true) (message : Text) :
    detailed s message = [] := by
  rw [detailed, h, Bool.not_true, Bool.and_false]
  rfl

/-- A quiet run shows no progress. -/
theorem progressOf_of_quiet {s : Settings} (h : s.quiet = true) (disk : Disk) (found : Discovery) :
    progressOf disk s found = [] := by
  simp [progressOf, searchLine, scriptLines, packageLines, remarkLines, announced_of_quiet h,
    detailed_of_quiet h]

/-! ## Settings that leave the report alone -/

/-- The settings with another choice of how much progress is shown. -/
def Settings.showing (s : Settings) (verbose quiet : Bool) : Settings :=
  { s with verbose, quiet }

/-- The settings with the report printed instead of written to a file. -/
def Settings.printing (s : Settings) : Settings :=
  { s with output := none }

/-- Two runs come to the same: the exit code, what is printed and the disk. -/
def RunResult.SameReport (r r' : RunResult) : Prop :=
  r.exitCode = r'.exitCode ∧ r.out = r'.out ∧ r.disk = r'.disk

/-- How a report is handed over does not depend on the progress. -/
theorem sameReport_deliver {s s' : Settings} (h : outputPath s = outputPath s') (disk : Disk)
    (progress progress' report : Text) (catalog : Catalog) :
    (deliver disk s progress catalog report).SameReport
      (deliver disk s' progress' catalog report) := by
  rw [deliver, deliver, ← h]
  split
  · exact ⟨rfl, rfl, rfl⟩
  · split <;> exact ⟨rfl, rfl, rfl⟩

/-- A run comes to the same however much progress it shows. -/
theorem sameReport_showing (disk : Disk) (s : Settings) (verbose quiet : Bool) :
    (finished disk (run disk (s.showing verbose quiet))).SameReport
      (finished disk (run disk s)) := by
  cases hsearch : search disk s with
  | error e =>
    have hsearch' : search disk (s.showing verbose quiet) = .error e := hsearch
    rw [run_of_search_error hsearch, run_of_search_error hsearch']
    split <;> exact ⟨rfl, rfl, rfl⟩
  | ok found =>
    have hsearch' : search disk (s.showing verbose quiet) = .ok found := hsearch
    have hpath : outputPath (s.showing verbose quiet) = outputPath s := rfl
    rw [run_of_search_ok hsearch, run_of_search_ok hsearch', hpath]
    split
    · exact ⟨rfl, rfl, rfl⟩
    · exact sameReport_deliver hpath _ _ _ _ _

/-! ## Failure -/

/-- A complaint ends the progress with its message, on a line of its own. -/
theorem suffix_complaint (progress about message : Text) :
    message ++ ['\n'] <:+ progress ++ complaint about message :=
  ⟨progress ++ (about ++ ": ".toList), by simp only [complaint, List.append_assoc]⟩

/-- A run whose report cannot be written says so, and leaves what could be done. -/
theorem finished_of_writeReport {disk : Disk} {s : Settings} {found : Discovery} {p : WrittenPath}
    {stopped : Disk.Stopped} (hsearch : search disk s = .ok found) (hp : outputPath s = some p)
    (hzero : meetsZero disk p = false)
    (hwrite : writeReport disk p (reportOf disk s found) = .error stopped) :
    finished disk (run disk s) = ⟨1, [], progressOf disk s found ++
      complaint "Error writing file".toList stopped.error.message, stopped.disk⟩ := by
  have hany : ¬ (outputPath s).any (meetsZero disk) = true := by
    rw [hp, Option.any_some, hzero]
    exact Bool.false_ne_true
  rw [run_of_search_ok hsearch, if_neg hany, finished, deliver, hp]
  dsimp only
  rw [hwrite]

/-- A run that meets a zero character in the path of its report comes to nothing. -/
theorem finished_of_meetsZero {disk : Disk} {s : Settings} {found : Discovery} {p : WrittenPath}
    (hsearch : search disk s = .ok found) (hp : outputPath s = some p)
    (hzero : meetsZero disk p = true) :
    finished disk (run disk s) = RunFault.zeroInOutput.result disk := by
  have hany : (outputPath s).any (meetsZero disk) = true := by rw [hp, Option.any_some, hzero]
  rw [run_of_search_ok hsearch, if_pos hany, finished]

/-- A run that fails prints no report, and the last that it shows is what it fails for. -/
theorem finished_of_fails {disk : Disk} {s : Settings} {message : Text}
    (h : Fails disk s message) :
    (finished disk (run disk s)).exitCode = 1 ∧ (finished disk (run disk s)).out = [] ∧
      message ++ ['\n'] <:+ (finished disk (run disk s)).err := by
  cases h with
  | @root e hsearch =>
    rw [run_of_search_error hsearch]
    split
    · exact ⟨rfl, rfl, suffix_complaint _ _ _⟩
    · exact ⟨rfl, rfl, List.suffix_refl _⟩
  | output hsearch hp hzero hwrite =>
    rw [finished_of_writeReport hsearch hp hzero hwrite]
    exact ⟨rfl, rfl, suffix_complaint _ _ _⟩
  | zero hsearch hp hzero =>
    rw [finished_of_meetsZero hsearch hp hzero]
    exact ⟨rfl, rfl, List.suffix_refl _⟩

/-- A report that cannot be written leaves at most folders behind. -/
theorem sameFiles_of_writeReport {disk : Disk} {p : WrittenPath} {report : Text}
    {stopped : Disk.Stopped} (h : writeReport disk p report = .error stopped) :
    Folder.SameFiles disk.top stopped.disk.top := by
  have hfolders := Disk.sameFiles_tryFolders disk p.parent
  simp only [writeReport, bind, Except.bind] at h
  -- the run stopped at the folders, or at the file after they were made
  split at h
  · next stopped' hmake =>
    rw [hmake] at hfolders
    rw [← Except.error.inj h]
    exact hfolders
  · next around hmake =>
    rw [hmake] at hfolders
    cases hwrite : around.write p (Utf8.encode report) with
    | error e =>
      rw [hwrite] at h
      rw [← Except.error.inj h]
      exact hfolders
    | ok after =>
      rw [hwrite] at h
      cases h

/-- **A run that fails leaves every file as it is.** It may have made folders for its report. -/
theorem sameFiles_finished_of_fails {disk : Disk} {s : Settings} {message : Text}
    (h : Fails disk s message) :
    Folder.SameFiles disk.top (finished disk (run disk s)).disk.top := by
  cases h with
  | @root e hsearch =>
    rw [run_of_search_error hsearch]
    split <;> exact .refl _
  | output hsearch hp hzero hwrite =>
    rw [finished_of_writeReport hsearch hp hzero hwrite]
    exact sameFiles_of_writeReport hwrite
  | zero hsearch hp hzero =>
    rw [finished_of_meetsZero hsearch hp hzero]
    exact .refl _

/-- A run that does not fail hands over its report. -/
theorem exists_found_of_not_fails {disk : Disk} {s : Settings}
    (h : ∀ message, ¬ Fails disk s message) :
    ∃ found, search disk s = .ok found ∧
      finished disk (run disk s) = deliver disk s (progressOf disk s found)
        (catalogOf disk s found) (reportOf disk s found) ∧
      ∀ p, outputPath s = some p →
        ∃ after, writeReport disk p (reportOf disk s found) = .ok after := by
  cases hsearch : search disk s with
  | error e => exact absurd (.root hsearch) (h e.message)
  | ok found =>
    -- each way to fail is one case of `Fails`: the search, a zero character in the name, the
    -- writing
    have hzero : ∀ p, outputPath s = some p → meetsZero disk p = false := by
      intro p hp
      rw [← Bool.not_eq_true]
      exact fun hmeets => h _ (.zero hsearch hp hmeets)
    refine ⟨found, rfl, ?_, fun p hp => ?_⟩
    · have hany : ¬ (outputPath s).any (meetsZero disk) = true := by
        rw [Option.any_eq_true]
        rintro ⟨p, hp, hmeets⟩
        rw [hzero p hp] at hmeets
        cases hmeets
      rw [run_of_search_ok hsearch, if_neg hany, finished]
    · cases hwrite : writeReport disk p (reportOf disk s found) with
      | error stopped =>
        exact absurd (.output hsearch hp (hzero p hp) hwrite) (h stopped.error.message)
      | ok after => exact ⟨after, rfl⟩

/-! ## Success -/

/-- A report that has been written is in the file that its path leads to. -/
theorem writes_of_writeReport {disk after : Disk} {p : WrittenPath} {report : Text}
    (h : writeReport disk p report = .ok after) :
    disk.Writes p (Utf8.encode report) after := by
  simp only [writeReport, bind, Except.bind] at h
  split at h
  · cases h
  · next around hmake =>
    exact Disk.writes_of_tryFolders hmake (mapError_eq_ok_iff.mp h)

/-- A run that hands over its report ends well, and its report is printed or in the file. -/
theorem deliver_of_written (disk : Disk) (s : Settings) (progress : Text) (catalog : Catalog)
    {report : Text}
    (h : ∀ p, outputPath s = some p → ∃ after, writeReport disk p report = .ok after) :
    let r := deliver disk s progress catalog report
    r.exitCode = 0 ∧ (outputPath s = none → r.out = report ∧ r.disk = disk) ∧
      (∀ p, outputPath s = some p → r.out = [] ∧ disk.Writes p (Utf8.encode report) r.disk) ∧
      (s.quiet = true → r.err = progress) := by
  intro r
  have hdone : s.quiet = true → doneLine s catalog = [] := fun hquiet => announced_of_quiet hquiet _
  cases hp : outputPath s with
  | none =>
    have hr : r = ⟨0, report, progress ++ doneLine s catalog, disk⟩ := by
      simp only [r, deliver, hp]
    rw [hr]
    refine ⟨rfl, fun _ => ⟨rfl, rfl⟩, nofun, fun hquiet => ?_⟩
    rw [hdone hquiet, List.append_nil]
  | some p =>
    obtain ⟨after, hwrite⟩ := h p hp
    have hr : r = ⟨0, [], progress ++ announced s ("Report written to: ".toList ++ p.text) ++
        doneLine s catalog, after⟩ := by
      simp only [r, deliver, hp, hwrite]
    rw [hr]
    refine ⟨rfl, nofun, fun q hq => ⟨rfl, ?_⟩, fun hquiet => ?_⟩
    · rw [← Option.some.inj hq]
      exact writes_of_writeReport hwrite
    · rw [hdone hquiet, announced_of_quiet hquiet, List.append_nil, List.append_nil]

/-- **Verbosity and destination do not change the report.** However much progress a run shows, it
has the same exit code, prints the same and leaves the same disk. It ends with exit code 0 exactly
if there is a root to search and the report can be written where it should go. Then a quiet run
shows nothing else; and if the report goes to a file, nothing is printed, the file has what would
have been printed, and no other file is changed. Otherwise the exit code is 1, nothing is printed,
and the message comes last of what is shown. -/
theorem finished_run (disk : Disk) (s : Settings) :
    let r := finished disk (run disk s)
    (∀ verbose quiet, (finished disk (run disk (s.showing verbose quiet))).SameReport r) ∧
    (r.exitCode = 0 ↔ ∀ message, ¬ Fails disk s message) ∧
    (r.exitCode = 0 → s.quiet = true → r.err = []) ∧
    (r.exitCode = 0 → ∀ p, outputPath s = some p →
      let printed := finished disk (run disk s.printing)
      r.out = [] ∧ printed.exitCode = 0 ∧ printed.disk = disk ∧
        disk.Writes p (Utf8.encode printed.out) r.disk) ∧
    ∀ message, Fails disk s message →
      r.exitCode = 1 ∧ r.out = [] ∧ message ++ ['\n'] <:+ r.err := by
  intro r
  have hsame : ∀ verbose quiet,
      (finished disk (run disk (s.showing verbose quiet))).SameReport r :=
    sameReport_showing disk s
  have hfails : ∀ message, Fails disk s message →
      r.exitCode = 1 ∧ r.out = [] ∧ message ++ ['\n'] <:+ r.err := fun _ => finished_of_fails
  by_cases hfail : ∃ message, Fails disk s message
  · obtain ⟨message, hmessage⟩ := hfail
    have hcode : r.exitCode ≠ 0 := by
      rw [(hfails message hmessage).1]
      decide
    refine ⟨hsame, iff_of_false hcode fun hno => hno message hmessage, ?_, ?_, hfails⟩
    · exact fun h => absurd h hcode
    · exact fun h => absurd h hcode
  · rw [not_exists] at hfail
    obtain ⟨found, hsearch, hr, hwritten⟩ := exists_found_of_not_fails hfail
    obtain ⟨hcode, -, hfile, hquiet⟩ := deliver_of_written disk s (progressOf disk s found)
      (catalogOf disk s found) hwritten
    rw [← hr] at hcode hfile hquiet
    refine ⟨hsame, iff_of_true hcode hfail, fun _ hq => ?_, fun _ p hp => ?_, hfails⟩
    · exact (hquiet hq).trans (progressOf_of_quiet hq disk found)
    · -- the run that prints its report finds the same scripts and makes the same report
      have hprinted : run disk s.printing = .ok (deliver disk s.printing
          (progressOf disk s.printing found) (catalogOf disk s found)
          (reportOf disk s found)) := run_of_search_ok (s := s.printing) hsearch
      have hnowhere : ∀ p, outputPath s.printing = some p →
          ∃ after, writeReport disk p (reportOf disk s found) = .ok after := nofun
      obtain ⟨hcode', hprint, -, -⟩ := deliver_of_written disk s.printing
        (progressOf disk s.printing found) (catalogOf disk s found) hnowhere
      obtain ⟨hout, hdisk⟩ := hprint rfl
      obtain ⟨hnothing, hwrites⟩ := hfile p hp
      rw [hprinted]
      refine ⟨hnothing, hcode', hdisk, ?_⟩
      rw [finished, hout]
      exact hwrites

/-! ## Two runs in one folder -/

/-- A folder with one script, where the program is started. -/
def sampleHome : Disk :=
  ⟨.file "a.ps1".toList (Utf8.encode "choco install git".toList) .empty, []⟩

/-- A quiet run that writes a report. -/
def sampleSettings (path : String) : Settings :=
  { path := path.toList, output := some "report.md".toList, quiet := true }

/-- The sample's home is found. -/
theorem exists_search_sampleHome :
    ∃ found, search sampleHome (sampleSettings ".") = .ok found := by
  have hself : sampleHome.resolve (.ofLocation []) = [] := by decide
  have hfolder : sampleHome.folder? (.ofLocation (sampleHome.resolve (.ofText ".".toList))) =
      some sampleHome.top := by
    have hroot : sampleHome.resolve (.ofText ".".toList) = [] := by decide
    rw [hroot, Disk.folder?, Disk.node?, Disk.locate, if_neg (by decide)]
    simp only [WrittenPath.ofLocation, Disk.locateFrom]
    rfl
  exact ⟨_, Discovery.ofDisk_eq_ofFolder (by decide) hfolder [] Discovery.recommendedLimit⟩

/-- A name that no entry of the folder has is where something can be stored. -/
theorem locate_sampleHome {absolute : Bool} {name : Text} (hname : sampleHome.top.get? name = none)
    (hdots : name ≠ ['.'] ∧ name ≠ "..".toList) (hshort : Disk.isTooLong name = false)
    (hpath : Disk.isPathTooLong ⟨absolute, [name]⟩ = false) :
    sampleHome.locate ⟨absolute, [name]⟩ = .ok [name] := by
  have horigin : sampleHome.origin ⟨absolute, [name]⟩ = [] := by cases absolute <;> rfl
  exact Disk.locate_name horigin hpath hdots.1 hdots.2 hshort (by simp [hname])

/-- A report of any content is stored next to the script. -/
theorem writeReport_sampleHome (report : Text) :
    writeReport sampleHome (.ofText "report.md".toList) report =
      .ok (sampleHome.store ["report.md".toList] (.file (Utf8.encode report))) := by
  have hhere : sampleHome.locate ⟨false, []⟩ = .ok [] := by
    rw [Disk.locate, if_neg (by decide), Disk.locateFrom]
    rfl
  -- the folder of the report is the working folder, which is there already
  have hmake : sampleHome.makeFolder ⟨false, []⟩ = .error ⟨.exists, ⟨false, []⟩⟩ := by
    have hparent : WrittenPath.parent ⟨false, []⟩ = ⟨false, []⟩ := rfl
    rw [Disk.makeFolder, if_neg (by decide), hparent, hhere]
    rfl
  have hfolder : sampleHome.isFolder ⟨false, []⟩ = true := by
    rw [Disk.isFolder, Disk.folder?, Disk.node?, hhere]
    rfl
  have hfolders : sampleHome.tryFolders (WrittenPath.ofText "report.md".toList).parent =
      .ok sampleHome := by
    show sampleHome.orStopped (sampleHome.ensureFolder ⟨false, []⟩) = _
    rw [Disk.ensureFolder, hmake, hhere, hfolder]
    rfl
  have hlocate : sampleHome.locate (.ofText "report.md".toList) = .ok ["report.md".toList] :=
    locate_sampleHome (by decide) (by decide) (by decide) (by decide)
  rw [writeReport, hfolders]
  show sampleHome.orStopped (sampleHome.write (.ofText "report.md".toList) _) = _
  rw [Disk.write, hlocate]
  rfl

/-- A folder that is not there is missing by its own path. -/
theorem search_sampleHome_missing :
    search sampleHome (sampleSettings "missing") = .error (.missing ["missing".toList]) := by
  have hroot : sampleHome.resolve (.ofText "missing".toList) = ["missing".toList] := by
    decide
  have hself : sampleHome.resolve (.ofLocation ["missing".toList]) = ["missing".toList] := by
    decide
  have hlocate : sampleHome.locate (.ofLocation ["missing".toList]) = .ok ["missing".toList] :=
    locate_sampleHome (by decide) (by decide) (by decide) (by decide)
  have hthere : sampleHome.isThere (.ofLocation ["missing".toList]) = false := by
    rw [Disk.isThere, Disk.node?, hlocate]
    rfl
  have hdisk : Discovery.ofDisk sampleHome (.ofLocation ["missing".toList]) []
      Discovery.recommendedLimit = .error (.missing ["missing".toList]) := by
    rw [Discovery.ofDisk, if_neg (by decide)]
    simp only [hself, hlocate, hthere]
    rfl
  -- the root is resolved before the search
  have hzero : (WrittenPath.ofText "missing".toList).hasZero = false := by decide
  show Discovery.ofDisk sampleHome (if (WrittenPath.ofText "missing".toList).hasZero then
    _ else .ofLocation (sampleHome.resolve (.ofText "missing".toList))) [] _ = _
  rw [hzero, if_neg Bool.false_ne_true, hroot]
  exact hdisk

/-- A report in a file is what would have been printed, and a root that is missing is what a run
fails for. -/
theorem finished_run_sampleHome :
    (let r := finished sampleHome (run sampleHome (sampleSettings "."))
     let printed := finished sampleHome (run sampleHome (sampleSettings ".").printing)
     r.exitCode = 0 ∧ r.out = [] ∧ r.err = [] ∧
       r.disk.read (.ofText "report.md".toList) = .ok (Utf8.encode printed.out)) ∧
    (let r := finished sampleHome (run sampleHome (sampleSettings "missing"))
     r.exitCode = 1 ∧ r.out = [] ∧ "Path does not exist: /missing\n".toList <:+ r.err) := by
  -- none of the three ways to fail is met: the home is found, and the report can be written
  have hnot : ∀ message, ¬ Fails sampleHome (sampleSettings ".") message := by
    obtain ⟨found, hsearch⟩ := exists_search_sampleHome
    intro message h
    cases h with
    | root h => cases hsearch.symm.trans h
    | output h hp hzero hwrite =>
      obtain rfl := Option.some.inj hp
      cases (writeReport_sampleHome _).symm.trans hwrite
    | zero h hp hzero =>
      obtain rfl := Option.some.inj hp
      exact absurd hzero (by decide)
  obtain ⟨-, hcode, hquiet, hfile, -⟩ := finished_run sampleHome (sampleSettings ".")
  obtain ⟨-, -, -, -, hfails⟩ := finished_run sampleHome (sampleSettings "missing")
  obtain ⟨hout, -, -, hwrites⟩ := hfile (hcode.mpr hnot) _ rfl
  exact ⟨⟨hcode.mpr hnot, hout, hquiet (hcode.mpr hnot) rfl, hwrites.read⟩,
    hfails _ (.root search_sampleHome_missing)⟩

end SetupCatalog.CommandLine
