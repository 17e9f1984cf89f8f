import SetupCatalog.Proofs.Discovery.Exclusion

/-!
# Reading the scripts that were found

When the scripts of a discovery are read, the files may be gone or changed. Whatever is found in
their places, a script that declares packages is read, or one remark says why it is not (`Reading`).
`loads_accounted` says what that makes of a discovery that is loaded any number of times.

`loadFrom` reads all scripts and sorts the results. `loadFrom_eq_foldl` says that this is a run
through the scripts that carries along what was read and remarked so far.
-/

namespace SetupCatalog.Discovery

open Text

/-! ## One script -/

/-- What becomes of a script, by what reading its file gives: its name with a text, or a remark. -/
inductive Reading (s : FoundScript) : Except FileFault (List UInt8) → Except Text Source → Prop
  | readable {bytes : List UInt8} {t : Text} (h : Encoding.markedUtf8.decode bytes = some t) :
      Reading s (.ok bytes) (.ok ⟨s.name, unifyBreaks t⟩)
  | undecodable {bytes : List UInt8} (h : Encoding.markedUtf8.decode bytes = none) :
      Reading s (.ok bytes)
        (.error ("Could not decode file (not utf-8-sig): ".toList ++ locationText s.location))
  | missing : Reading s (.error (.disk .notFound))
      (.error ("File not found: ".toList ++ locationText s.location))
  | forbidden : Reading s (.error .notPermitted)
      (.error ("Permission denied: ".toList ++ locationText s.location))
  | unreadable {fault : DiskFault} (hfound : fault ≠ .notFound) :
      Reading s (.error (.disk fault))
        (.error ("Could not read file ".toList ++ locationText s.location ++ ": ".toList ++
          DiskError.message ⟨fault, .ofLocation s.location⟩))

/-- There is one case for each state of a file. -/
theorem reading_iff {s : FoundScript} {content : Except FileFault (List UInt8)}
    {result : Except Text Source} : Reading s content result ↔ sourceFrom s content = result := by
  constructor
  · intro h
    cases h with
    | readable h => simp only [sourceFrom, Encoding.textOf, h]
    | undecodable h =>
      simp only [sourceFrom, Encoding.textOf, h]
      rfl
    | missing | forbidden => rfl
    | @unreadable fault hfound =>
      cases fault with
      | notFound => exact absurd rfl hfound
      | _ => rfl
  · rintro rfl
    cases content with
    | ok bytes =>
      cases hdecode : Encoding.markedUtf8.decode bytes with
      | some t =>
        simp only [sourceFrom, Encoding.textOf, hdecode]
        exact .readable hdecode
      | none =>
        simp only [sourceFrom, Encoding.textOf, hdecode]
        exact .undecodable hdecode
    | error fault =>
      -- a file that may not be read and one that is not there have messages of their own
      rcases fault with _ | fault
      · exact .forbidden
      · cases fault with
        | notFound => exact .missing
        | _ => exact .unreadable (by decide)

/-- A script that is read keeps its name. -/
theorem Reading.name_eq {s : FoundScript} {content : Except FileFault (List UInt8)}
    {source : Source} (h : Reading s content (.ok source)) : source.name = s.name := by
  cases h
  rfl

/-- Every remark names the path of its script. -/
theorem Reading.location_isInfix {s : FoundScript} {content : Except FileFault (List UInt8)}
    {remark : Text} (h : Reading s content (.error remark)) :
    locationText s.location <:+: remark := by
  cases h with
  | undecodable | missing | forbidden => exact (List.suffix_append _ _).isInfix
  | unreadable => exact ⟨_, _, (List.append_assoc _ _ _).symm⟩

/-! ## All scripts of a discovery -/

/-- Each script gives one of the pairs or one of the remarks, and both are in the order of the
scripts. -/
inductive Accounts (files : Files) : List FoundScript → List Source → List Text → Prop
  | nil : Accounts files [] [] []
  | read {s : FoundScript} {source : Source} {scripts : List FoundScript} {sources : List Source}
      {remarks : List Text} (hs : Reading s (files s.location) (.ok source))
      (h : Accounts files scripts sources remarks) :
      Accounts files (s :: scripts) (source :: sources) remarks
  | remarked {s : FoundScript} {remark : Text} {scripts : List FoundScript} {sources : List Source}
      {remarks : List Text} (hs : Reading s (files s.location) (.error remark))
      (h : Accounts files scripts sources remarks) :
      Accounts files (s :: scripts) sources (remark :: remarks)

/-- The pairs that the scripts give. -/
def sourcesIn (d : Discovery) (files : Files) : List Source :=
  sourcesOf (d.declarations.map fun s => sourceFrom s (files s.location))

/-- The remarks that the scripts give. -/
def remarksIn (d : Discovery) (files : Files) : List Text :=
  faultsOf (d.declarations.map fun s => sourceFrom s (files s.location))

theorem loadFrom_eq (d : Discovery) (files : Files) :
    d.loadFrom files =
      (d.sourcesIn files, { d with remarks := d.remarks ++ d.remarksIn files }) := rfl

/-- One load accounts for each declaration once, as a source or as a remark. -/
theorem accounts_declarations (d : Discovery) (files : Files) :
    Accounts files d.declarations (d.sourcesIn files) (d.remarksIn files) := by
  rw [sourcesIn, remarksIn]
  induction d.declarations with
  | nil => exact .nil
  | cons s scripts ih =>
    cases hs : sourceFrom s (files s.location) with
    | ok source =>
      rw [List.map_cons, hs]
      exact .read (reading_iff.mpr hs) ih
    | error remark =>
      rw [List.map_cons, hs]
      exact .remarked (reading_iff.mpr hs) ih

/-- Scripts that are accounted for fall into those that are read and those that are remarked on. -/
theorem Accounts.exists_parts {files : Files} {scripts : List FoundScript} {sources : List Source}
    {remarks : List Text} (h : Accounts files scripts sources remarks) :
    ∃ read failed : List FoundScript, (read ++ failed).Perm scripts ∧
      read.Sublist scripts ∧ failed.Sublist scripts ∧
      sources.map Source.name = read.map FoundScript.name ∧
      failed.Forall₂ (fun s remark => locationText s.location <:+: remark) remarks := by
  induction h with
  | nil => exact ⟨[], [], .nil, .slnil, .slnil, rfl, .nil⟩
  | read hs _ ih =>
    obtain ⟨read, failed, hperm, hread, hfailed, hnames, hremarks⟩ := ih
    refine ⟨_ :: read, failed, hperm.cons _, hread.cons_cons _, hfailed.cons _, ?_, hremarks⟩
    rw [List.map_cons, List.map_cons, hs.name_eq, hnames]
  | remarked hs _ ih =>
    obtain ⟨read, failed, hperm, hread, hfailed, hnames, hremarks⟩ := ih
    exact ⟨read, _ :: failed, List.perm_middle.trans (hperm.cons _), hread.cons _,
      hfailed.cons_cons _, hnames, .cons hs.location_isInfix hremarks⟩

/-! ## Scripts one after the other -/

/-- Reads one script more, with what was read and remarked so far. -/
def loadStep (files : Files) (soFar : List Source × List Text) (s : FoundScript) :
    List Source × List Text :=
  match Encoding.markedUtf8.textOrRemark (.ofLocation s.location) (files s.location) soFar.2 with
  | (some t, remarks) => (soFar.1 ++ [⟨s.name, t⟩], remarks)
  | (none, remarks) => (soFar.1, remarks)

/-- One step of the load adds its script's source or its remark. -/
theorem loadStep_eq (files : Files) (sources : List Source) (remarks : List Text)
    (s : FoundScript) :
    loadStep files (sources, remarks) s =
      (sources ++ sourcesOf [sourceFrom s (files s.location)],
        remarks ++ faultsOf [sourceFrom s (files s.location)]) := by
  rw [loadStep, Encoding.textOrRemark, sourceFrom]
  cases Encoding.markedUtf8.textOf (files s.location) <;>
    simp only [sourcesOf, faultsOf, List.filterMap_cons, List.filterMap_nil, List.append_nil]

/-- The whole load, from any sources and remarks already there. -/
theorem foldl_loadStep (files : Files) (scripts : List FoundScript) (sources : List Source)
    (remarks : List Text) :
    scripts.foldl (loadStep files) (sources, remarks) =
      (sources ++ sourcesOf (scripts.map fun s => sourceFrom s (files s.location)),
        remarks ++ faultsOf (scripts.map fun s => sourceFrom s (files s.location))) := by
  induction scripts generalizing sources remarks with
  | nil => simp [sourcesOf, faultsOf]
  | cons s scripts ih =>
    rw [List.foldl_cons, loadStep_eq, ih, List.append_assoc, List.append_assoc, sourcesOf,
      sourcesOf, faultsOf, faultsOf, ← List.filterMap_append, ← List.filterMap_append]
    rfl

/-- Loading is a run through the scripts that starts with the remarks of the discovery. -/
theorem loadFrom_eq_foldl (d : Discovery) (files : Files) :
    d.loadFrom files =
      ((d.declarations.foldl (loadStep files) ([], d.remarks)).1,
        { d with remarks := (d.declarations.foldl (loadStep files) ([], d.remarks)).2 }) := by
  rw [foldl_loadStep]
  rfl

/-! ## Loading again and again -/

/-- What is read when a discovery is loaded time after time, and the discovery after that. -/
def loads (d : Discovery) : List Files → List (List Source) × Discovery
  | [] => ([], d)
  | files :: states =>
    let (sources, d) := d.loadFrom files
    let (others, d) := d.loads states
    (sources :: others, d)

theorem loads_cons (d : Discovery) (files : Files) (states : List Files) :
    d.loads (files :: states) =
      ((d.loadFrom files).1 :: ((d.loadFrom files).2.loads states).1,
        ((d.loadFrom files).2.loads states).2) := rfl

/-- Every load gives what the files hold at its time; only the remarks grow. -/
theorem loads_eq (d : Discovery) (states : List Files) :
    d.loads states = (states.map d.sourcesIn,
      { d with remarks := d.remarks ++ states.flatMap d.remarksIn }) := by
  induction states generalizing d with
  | nil => simp [loads]
  | cons files states ih =>
    -- remarks do not show in what the scripts give, so with more of them it gives the same
    have hlater := ih { d with remarks := d.remarks ++ d.remarksIn files }
    rw [loads_cons, loadFrom_eq, hlater, List.append_assoc, List.flatMap_cons]
    rfl

/-- A discovery at any time: as it was found, or after it was loaded. -/
inductive Reached : Discovery → Prop
  | found {disk : Disk} {p : WrittenPath} {excludes : List Text} {limit : Int} {d : Discovery}
      (h : ofDisk disk p excludes limit = .ok d) : Reached d
  | loaded {d : Discovery} (h : Reached d) (files : Files) : Reached (d.loadFrom files).2

/-- The scripts stay as they were found. -/
theorem Reached.exists_scripts_eq {d : Discovery} (h : Reached d) :
    ∃ (root : Location) (excludes : List Text) (inside : Folder),
      d.scripts = (orderedPaths inside).map (scriptAt root excludes) := by
  induction h with
  | @found disk p excludes limit d h =>
    rcases ofDisk_error_or_folder disk p with ⟨fault, hfault⟩ | ⟨hzero, inside, hfolder⟩
    · rw [hfault] at h
      cases h
    · rw [ofDisk_eq_ofFolder hzero hfolder] at h
      rw [← Except.ok.inj h]
      exact ⟨_, excludes, inside, scripts_ofFolder _ _ _ _ _⟩
  | loaded h files ih => exact ih

/-- The scripts stay in the order of their names, whatever has been loaded. -/
theorem Reached.pairwise_le {d : Discovery} (h : Reached d) :
    d.scripts.Pairwise fun s t => le s.name t.name = true := by
  obtain ⟨root, excludes, inside, hscripts⟩ := h.exists_scripts_eq
  rw [hscripts, List.pairwise_map]
  exact pairwise_le_orderedPaths inside

/-- No two scripts are at one place, whatever their categories. -/
theorem Reached.eq_of_location_eq {d : Discovery} (h : Reached d) {s t : FoundScript}
    (hs : s ∈ d.scripts) (ht : t ∈ d.scripts) (hlocation : s.location = t.location) : s = t := by
  obtain ⟨root, excludes, inside, hscripts⟩ := h.exists_scripts_eq
  rw [hscripts] at hs ht
  obtain ⟨path, -, rfl⟩ := List.mem_map.mp hs
  obtain ⟨other, -, rfl⟩ := List.mem_map.mp ht
  exact congrArg _ (List.append_cancel_left hlocation)

/-- **Every script that declares packages is read or remarked on.** What a discovery gives depends
on nothing but the files of these scripts: for each of them the pair of its name and its text, or
one remark that names its path. Remarks are added to those so far, again each time the discovery is
loaded. In a discovery that was found, the pairs and the remarks are in the order of the names, and
the excluded scripts are at other places than those that are read. -/
theorem loads_accounted (d : Discovery) :
    ∃ (sources : Files → List Source) (new : Files → List Text),
      (∀ files, d.loadFrom files =
        (sources files, { d with remarks := d.remarks ++ new files })) ∧
      (∀ states, d.loads states =
        (states.map sources, { d with remarks := d.remarks ++ states.flatMap new })) ∧
      (∀ files, Accounts files d.declarations (sources files) (new files) ∧
        ∃ read failed : List FoundScript, (read ++ failed).Perm d.declarations ∧
          (sources files).map Source.name = read.map FoundScript.name ∧
          failed.Forall₂ (fun s remark => locationText s.location <:+: remark) (new files) ∧
          (Reached d → (read.map FoundScript.name).Pairwise (fun t u => le t u = true) ∧
            (failed.map FoundScript.name).Pairwise fun t u => le t u = true)) ∧
      (∀ files other : Files, (∀ s ∈ d.declarations, files s.location = other s.location) →
        sources files = sources other ∧ new files = new other) ∧
      (Reached d → ∀ s ∈ d.excluded, ∀ t ∈ d.declarations, s.location ≠ t.location) := by
  refine ⟨d.sourcesIn, d.remarksIn, d.loadFrom_eq, d.loads_eq, fun files => ⟨?_, ?_⟩, ?_, ?_⟩
  · exact d.accounts_declarations files
  · obtain ⟨read, failed, hperm, hread, hfailed, hnames, hremarks⟩ :=
      (d.accounts_declarations files).exists_parts
    refine ⟨read, failed, hperm, hnames, hremarks, fun hreached => ?_⟩
    -- the declarations are in the order of their names, and a part of them keeps the order
    have hordered : d.declarations.Pairwise fun s t => le s.name t.name = true :=
      hreached.pairwise_le.sublist List.filter_sublist
    exact ⟨List.pairwise_map.mpr (hordered.sublist hread),
      List.pairwise_map.mpr (hordered.sublist hfailed)⟩
  · intro files other hsame
    have hresults : (d.declarations.map fun s => sourceFrom s (files s.location)) =
        d.declarations.map fun s => sourceFrom s (other s.location) := by
      apply List.map_congr_left
      intro s hs
      rw [hsame s hs]
    exact ⟨congrArg sourcesOf hresults, congrArg faultsOf hresults⟩
  · intro hreached s hs t ht hlocation
    have hst := hreached.eq_of_location_eq (List.mem_of_mem_filter hs) (List.mem_of_mem_filter ht)
      hlocation
    rw [hst] at hs
    exact d.disjoint_declarations_excluded ht hs

/-- Five scripts that declare packages and one that is excluded by its name. -/
def sampleScripts : Folder :=
  .file "_a.ps1".toList [] <| .file "b.ps1".toList [] <| .file "c.ps1".toList [] <|
    .file "d.ps1".toList [] <| .file "e.ps1".toList [] <| .file "f.ps1".toList [] .empty

/-- One of the scripts can be read, one has become a folder, one is no text, one may not be read,
and the others are gone. -/
def sampleFiles : Files := fun l =>
  if l = ["b.ps1".toList] then .ok [0x78, 0x0D]
  else if l = ["c.ps1".toList] then .error (.disk .isFolder)
  else if l = ["d.ps1".toList] then .ok [0xFF]
  else if l = ["e.ps1".toList] then .error .notPermitted
  else .error (.disk .notFound)

/-- The five declarations of the sample, whatever its links lead to. -/
theorem declarations_sampleScripts (leadsToFolder : List Text → Bool) :
    (ofFolder [] sampleScripts leadsToFolder [] 500).declarations =
      ["b.ps1", "c.ps1", "d.ps1", "e.ps1", "f.ps1"].map fun name =>
        declarationAt [] [name.toList] := by
  have hordered : orderedPaths sampleScripts = scriptPaths [] sampleScripts := by
    apply List.mergeSort_of_pairwise
    decide
  rw [declarations_ofFolder, hordered]
  rfl

/-- Two loads of the sample with all four ways for a file to fail between them. -/
theorem loads_accounted_sample :
    let pairs : List Source := [⟨"b.ps1".toList, "x\n".toList⟩]
    let remarks := ["Could not read file /c.ps1: [Errno 21] Is a directory: '/c.ps1'".toList,
      "Could not decode file (not utf-8-sig): /d.ps1".toList,
      "Permission denied: /e.ps1".toList, "File not found: /f.ps1".toList]
    ∃ d, ofDisk ⟨sampleScripts, []⟩ (.ofText "/".toList) [] 500 = .ok d ∧
      d.loads [sampleFiles, sampleFiles] =
        ([pairs, pairs], { d with remarks := d.remarks ++ (remarks ++ remarks) }) ∧
      ∀ s ∈ d.excluded, ∀ t ∈ d.declarations, s.location ≠ t.location := by
  intro pairs remarks
  have hfound := ofDisk_top ⟨sampleScripts, []⟩ [] 500
  generalize hd : ofFolder [] sampleScripts _ [] 500 = d at hfound
  have hdeclarations := declarations_sampleScripts fun path =>
    Disk.isFolder ⟨sampleScripts, []⟩ (.ofLocation path)
  rw [hd] at hdeclarations
  obtain ⟨sources, new, hload, hloads, -, -, hexcluded⟩ := loads_accounted d
  have hcomputed : d.loadFrom sampleFiles =
      (pairs, { d with remarks := d.remarks ++ remarks }) := by
    rw [loadFrom, hdeclarations]
    rfl
  -- one load is computed; what two loads give follows from the theorem
  rw [hload, Prod.mk.injEq] at hcomputed
  obtain ⟨hsources, hremarks⟩ := hcomputed
  have hnew : new sampleFiles = remarks :=
    List.append_cancel_left (congrArg Discovery.remarks hremarks)
  refine ⟨d, hfound, ?_, hexcluded (.found hfound)⟩
  rw [hloads, List.map_cons, List.map_cons, List.map_nil, hsources, List.flatMap_cons,
    List.flatMap_cons, List.flatMap_nil, List.append_nil, hnew]

end SetupCatalog.Discovery
