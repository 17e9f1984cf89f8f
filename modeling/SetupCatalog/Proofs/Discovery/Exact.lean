import SetupCatalog.Proofs.Discovery.Walk
import SetupCatalog.Proofs.Disk.Store

/-!
# Discovery finds exactly the scripts

Whatever the order is in which the entries of folders are listed, a discovery lists each script
below its root once and nothing else, in strictly increasing order of the names. `ofDisk_exact` is
the main statement. It speaks of paths and of what they lead to, not of the walk: a path through a
link leads nowhere, and folders that are left out are excluded by name.

The order of the listing goes out of the result because the names of the scripts are different, so
that there is only one way to sort them.
-/

namespace SetupCatalog.Discovery

open Text

/-! ## Scripts and what is left out, by their paths -/

/-- A path leads to a script: to a file whose name ends in `.ps1`, through folders none of which is
left out. -/
def LeadsToScript (inside : Folder) (folders : List Text) (name : Text) : Prop :=
  (∃ content, inside.at? (folders ++ [name]) = some (.file content)) ∧
    (∀ folder ∈ folders, folder ∉ ignoredFolders) ∧ ".ps1".toList <:+ lower name

/-- A path leads to an entry that is left out: to a folder with an ignored name, or a link with one
that leads to a folder, through folders none of which is left out itself. -/
def LeadsToSkipped (inside : Folder) (leadsToFolder : List Text → Bool) (folders : List Text)
    (name : Text) : Prop :=
  ((∃ inner, inside.at? (folders ++ [name]) = some (.folder inner)) ∨
    (∃ target, inside.at? (folders ++ [name]) = some (.link target)) ∧
      leadsToFolder (folders ++ [name]) = true) ∧
    (∀ folder ∈ folders, folder ∉ ignoredFolders) ∧ name ∈ ignoredFolders

/-- The names of the folders that are passed over are listed. -/
theorem isIgnored_iff {name : Text} : isIgnored name = true ↔ name ∈ ignoredFolders :=
  List.contains_iff_mem

/-- A folder is entered exactly when its name is not in the table. -/
theorem isIgnored_eq_false_iff {name : Text} : isIgnored name = false ↔ name ∉ ignoredFolders := by
  rw [← isIgnored_iff, Bool.not_eq_true]

/-- A script is named so by how its name ends, in any case. -/
theorem isScriptName_iff {name : Text} : isScriptName name = true ↔ ".ps1".toList <:+ lower name :=
  List.isSuffixOf_iff_suffix

/-- The walk finds the paths to scripts and no others. -/
theorem mem_scriptPaths_iff {f : Folder} (hf : f.Sound) {path : List Text} :
    path ∈ scriptPaths [] f ↔
      ∃ folders name, path = folders ++ [name] ∧ LeadsToScript f folders name := by
  rw [scriptPaths_eq, List.mem_filterMap]
  constructor
  · rintro ⟨⟨met, node⟩, hmet, hpath⟩
    obtain ⟨folders, name, rfl, hfound, hfolders⟩ := (mem_walked_iff hf).mp hmet
    -- only a file is a script; links and folders give no path
    cases node with
    | link target | folder inner => cases hpath
    | file content =>
      rw [scriptPath?, List.nil_append, getLast?_append_name, Option.ite_none_right_eq_some]
        at hpath
      obtain ⟨hname, hpath⟩ := hpath
      refine ⟨folders, name, (Option.some.inj hpath).symm, ⟨content, hfound⟩, ?_,
        isScriptName_iff.mp hname⟩
      exact fun folder hfolder => isIgnored_eq_false_iff.mp (hfolders folder hfolder)
  · rintro ⟨folders, name, rfl, ⟨content, hfound⟩, hfolders, hname⟩
    refine ⟨(folders ++ [name], .file content),
      (mem_walked_iff hf).mpr ⟨folders, name, rfl, hfound, ?_⟩, ?_⟩
    · exact fun folder hfolder => isIgnored_eq_false_iff.mpr (hfolders folder hfolder)
    · rw [scriptPath?, getLast?_append_name, if_pos (isScriptName_iff.mpr hname)]

/-- The walk leaves out what is left out by a link or by its name, and nothing else. -/
theorem mem_skippedPaths_iff {leadsToFolder : List Text → Bool} {f : Folder} (hf : f.Sound)
    {entry : List Text × Text} :
    entry ∈ skippedPaths leadsToFolder [] f ↔
      ∃ folders name, entry = (folders ++ [name], name) ∧
        LeadsToSkipped f leadsToFolder folders name := by
  rw [skippedPaths_eq, List.mem_filterMap]
  constructor
  · rintro ⟨⟨met, node⟩, hmet, hentry⟩
    obtain ⟨folders, name, rfl, hfound, hfolders⟩ := (mem_walked_iff hf).mp hmet
    have hnone : ∀ folder ∈ folders, folder ∉ ignoredFolders :=
      fun folder hfolder => isIgnored_eq_false_iff.mp (hfolders folder hfolder)
    -- a folder is skipped for its name, a link for its name and where it leads
    cases node with
    | file content => cases hentry
    | folder inner =>
      rw [skippedPath?, List.nil_append, getLast?_append_name, Option.ite_none_right_eq_some]
        at hentry
      obtain ⟨hname, hentry⟩ := hentry
      refine ⟨folders, name, (Option.some.inj hentry).symm, Or.inl ⟨inner, hfound⟩, hnone, ?_⟩
      exact isIgnored_iff.mp hname
    | link target =>
      rw [skippedPath?, List.nil_append, getLast?_append_name, Option.ite_none_right_eq_some,
        Bool.and_eq_true] at hentry
      obtain ⟨⟨hname, hleads⟩, hentry⟩ := hentry
      refine ⟨folders, name, (Option.some.inj hentry).symm,
        Or.inr ⟨⟨target, hfound⟩, hleads⟩, hnone, ?_⟩
      exact isIgnored_iff.mp hname
  · rintro ⟨folders, name, rfl, hfound, hfolders, hname⟩
    have hnone : ∀ folder ∈ folders, isIgnored folder = false :=
      fun folder hfolder => isIgnored_eq_false_iff.mpr (hfolders folder hfolder)
    have hignored := isIgnored_iff.mpr hname
    rcases hfound with ⟨inner, hfound⟩ | ⟨⟨target, hfound⟩, hleads⟩
    · refine ⟨(folders ++ [name], .folder inner),
        (mem_walked_iff hf).mpr ⟨folders, name, rfl, hfound, hnone⟩, ?_⟩
      rw [skippedPath?, getLast?_append_name, if_pos hignored]
    · refine ⟨(folders ++ [name], .link target),
        (mem_walked_iff hf).mpr ⟨folders, name, rfl, hfound, hnone⟩, ?_⟩
      rw [skippedPath?, getLast?_append_name, hleads, hignored, Bool.and_true, if_pos rfl]

/-! ## Spellings tell entries apart -/

/-- The walk meets no two entries that are spelt alike. -/
theorem pairwise_relativeText_walked {f : Folder} (hf : f.Sound) :
    (walked [] f).Pairwise fun entry other => relativeText entry.1 ≠ relativeText other.1 := by
  have hproper : ∀ entry ∈ walked [] f, entry.1 ≠ [] ∧ ∀ name ∈ entry.1, Folder.IsName name := by
    intro entry hentry
    obtain ⟨folders, name, hpath, hfound, -⟩ := (mem_walked_iff hf).mp hentry
    rw [hpath, List.nil_append]
    exact ⟨by simp, hf.isName_of_at? hfound⟩
  have hpaths := List.pairwise_map.mp (nodup_walked hf [])
  refine (List.Pairwise.and_mem.mp hpaths).imp ?_
  rintro entry other ⟨hentry, hother, hne⟩ hspelt
  apply hne
  exact relativeText_injective (hproper entry hentry).1 (hproper other hother).1
    (hproper entry hentry).2 (hproper other hother).2 hspelt

/-- No two scripts that are found have the same name, since names in a sound tree have no slash. -/
theorem pairwise_relativeText_scriptPaths {f : Folder} (hf : f.Sound) :
    (scriptPaths [] f).Pairwise fun path other => relativeText path ≠ relativeText other := by
  have hpath : ∀ entry path, scriptPath? entry = some path → entry.1 = path := by
    rintro ⟨met, node⟩ path h
    cases node with
    | link target | folder inner => cases h
    | file content =>
      rw [scriptPath?, Option.ite_none_right_eq_some] at h
      exact Option.some.inj h.2
  rw [scriptPaths_eq]
  refine List.Pairwise.filterMap scriptPath? ?_ (pairwise_relativeText_walked hf)
  intro entry other hne path h path' h'
  rw [← hpath entry path h, ← hpath other path' h']
  exact hne

/-- Nor have two folders that are left out. -/
theorem pairwise_relativeText_skippedPaths (leadsToFolder : List Text → Bool) {f : Folder}
    (hf : f.Sound) :
    (skippedPaths leadsToFolder [] f).Pairwise fun entry other =>
      relativeText entry.1 ≠ relativeText other.1 := by
  have hpath : ∀ entry found, skippedPath? leadsToFolder entry = some found →
      entry.1 = found.1 := by
    rintro ⟨met, node⟩ found h
    cases node with
    | file content => cases h
    | link target | folder inner =>
      rw [skippedPath?, Option.ite_none_right_eq_some] at h
      rw [← Option.some.inj h.2]
  rw [skippedPaths_eq]
  refine List.Pairwise.filterMap _ ?_ (pairwise_relativeText_walked hf)
  intro entry other hne found h found' h'
  rw [← hpath entry found h, ← hpath other found' h']
  exact hne

/-! ## The scripts in order -/

/-- The paths of the scripts of a folder in the order of their spellings. -/
def orderedPaths (inside : Folder) : List (List Text) :=
  (scriptPaths [] inside).mergeSort fun path other => le (relativeText path) (relativeText other)

/-- Sorting loses no script and makes up none. -/
theorem mem_orderedPaths_iff {inside : Folder} {path : List Text} :
    path ∈ orderedPaths inside ↔ path ∈ scriptPaths [] inside :=
  List.mem_mergeSort

/-- The order depends on the names alone, so the categories do not show in it. -/
theorem scripts_ofFolder (root : Location) (inside : Folder) (leadsToFolder : List Text → Bool)
    (excludes : List Text) (limit : Int) :
    (ofFolder root inside leadsToFolder excludes limit).scripts =
      (orderedPaths inside).map (scriptAt root excludes) := by
  rw [orderedPaths, List.map_mergeSort]
  · rfl
  · intro path _ other _
    rfl

/-- Scripts are sorted by their names. -/
theorem pairwise_le_orderedPaths (inside : Folder) :
    (orderedPaths inside).Pairwise fun path other =>
      le (relativeText path) (relativeText other) = true := by
  rw [orderedPaths]
  apply List.pairwise_mergeSort
  · intro path other further
    exact le_trans
  · intro path other
    exact le_total _ _

/-- Of two scripts in order, the name of the first comes before that of the second. -/
theorem pairwise_precedes_orderedPaths {inside : Folder} (hinside : inside.Sound) :
    (orderedPaths inside).Pairwise fun path other =>
      Precedes (relativeText path) (relativeText other) := by
  have hne : (orderedPaths inside).Pairwise fun path other =>
      relativeText path ≠ relativeText other :=
    (pairwise_relativeText_scriptPaths hinside).perm (List.mergeSort_perm _ _).symm
      fun h => Ne.symm h
  apply ((pairwise_le_orderedPaths inside).and hne).imp
  intro path other h
  exact precedes_of_le h.1 h.2

/-- What has different names is different. -/
theorem nodup_of_pairwise_relativeText {paths : List (List Text)}
    (h : paths.Pairwise fun path other => relativeText path ≠ relativeText other) :
    paths.Nodup := by
  apply h.imp
  intro path other hne heq
  exact hne (congrArg relativeText heq)

/-- Where the scripts are does not depend on how the entries are listed. -/
theorem mem_scriptPaths_sameTree {listed inside : Folder} (hlisted : listed.Sound)
    (hinside : inside.Sound) (h : listed.SameTree inside) {path : List Text} :
    path ∈ scriptPaths [] listed ↔ path ∈ scriptPaths [] inside := by
  rw [mem_scriptPaths_iff hlisted, mem_scriptPaths_iff hinside]
  refine exists_congr fun folders => exists_congr fun name => and_congr_right fun _ => ?_
  refine and_congr_left fun _ => exists_congr fun content => ?_
  exact h.at?_eq_some_iff (by simp)

/-- The order in which the entries are listed does not show in the order of the scripts. -/
theorem orderedPaths_sameTree {listed inside : Folder} (hlisted : listed.Sound)
    (hinside : inside.Sound) (h : listed.SameTree inside) :
    orderedPaths listed = orderedPaths inside := by
  have hperm : (orderedPaths listed).Perm (orderedPaths inside) := by
    refine ((List.mergeSort_perm _ _).trans ?_).trans (List.mergeSort_perm _ _).symm
    rw [List.perm_ext_iff_of_nodup
      (nodup_of_pairwise_relativeText (pairwise_relativeText_scriptPaths hlisted))
      (nodup_of_pairwise_relativeText (pairwise_relativeText_scriptPaths hinside))]
    exact fun path => mem_scriptPaths_sameTree hlisted hinside h
  -- of two scripts only one can come before the other, so there is one way to put them in order
  apply hperm.eq_of_pairwise ?_ (pairwise_precedes_orderedPaths hlisted)
    (pairwise_precedes_orderedPaths hinside)
  intro path other _ _ hbefore hafter
  exact absurd hafter hbefore.asymm

/-! ## What is left out -/

/-- Nothing is left out twice. -/
theorem nodup_skippedPaths (leadsToFolder : List Text → Bool) {inside : Folder}
    (hinside : inside.Sound) : (skippedPaths leadsToFolder [] inside).Nodup := by
  apply (pairwise_relativeText_skippedPaths leadsToFolder hinside).imp
  rintro entry other hne rfl
  exact hne rfl

/-- What is left out does not depend on how the entries are listed, but for its order. -/
theorem skippedPaths_sameTree (leadsToFolder : List Text → Bool) {listed inside : Folder}
    (hlisted : listed.Sound) (hinside : inside.Sound) (h : listed.SameTree inside) :
    (skippedPaths leadsToFolder [] listed).Perm (skippedPaths leadsToFolder [] inside) := by
  rw [List.perm_ext_iff_of_nodup (nodup_skippedPaths leadsToFolder hlisted)
    (nodup_skippedPaths leadsToFolder hinside)]
  intro entry
  rw [mem_skippedPaths_iff hlisted, mem_skippedPaths_iff hinside]
  refine exists_congr fun folders => exists_congr fun name => and_congr_right fun _ => ?_
  refine and_congr_left fun _ => or_congr h.isSome_folder (and_congr_left fun _ => ?_)
  exact exists_congr fun target => h.at?_eq_some_iff (by simp)

/-! ## The discovery -/

/-- How an entry is listed that is left out. -/
def skippedListing (folders : List Text) (name : Text) : Text × Text :=
  (relativeText (folders ++ [name]), "Default ignore: ".toList ++ name)

/-- A discovery lists exactly the scripts of a tree, each once and in the order of their names, and
exactly the entries that are left out, each once. The scripts that declare packages and the excluded
ones share the list among them. -/
structure IsExact (inside : Folder) (leadsToFolder : List Text → Bool) (excludes : List Text)
    (d : Discovery) : Prop where
  mem_scripts_iff : ∀ s, s ∈ d.scripts ↔ ∃ folders name, LeadsToScript inside folders name ∧
    s.name = relativeText (folders ++ [name]) ∧ s.location = d.root ++ (folders ++ [name]) ∧
    (s.category, s.note) = classify excludes name
  increasing : d.scripts.Pairwise fun s t => Precedes s.name t.name
  mem_skippedFolders_iff : ∀ entry, entry ∈ d.skippedFolders ↔ ∃ folders name,
    LeadsToSkipped inside leadsToFolder folders name ∧ entry = skippedListing folders name
  nodup_skippedFolders : d.skippedFolders.Nodup
  perm_scripts : (d.declarations ++ d.excluded).Perm d.scripts
  disjoint : d.declarations.Disjoint d.excluded

/-- Every script is declared to be of one of the two categories. -/
theorem declarations_append_excluded_perm (d : Discovery) :
    (d.declarations ++ d.excluded).Perm d.scripts := by
  have hexcluded : d.excluded = d.scripts.filter fun s => !decide (s.category = .declaration) := by
    apply List.filter_congr
    intro s _
    cases s.category <;> rfl
  rw [hexcluded]
  exact List.filter_append_perm _ _

/-- No script both declares packages and is excluded. -/
theorem disjoint_declarations_excluded (d : Discovery) : d.declarations.Disjoint d.excluded := by
  intro s hdeclaration hexcluded
  have hcategory := of_decide_eq_true (List.mem_filter.mp hdeclaration).2
  rw [of_decide_eq_true (List.mem_filter.mp hexcluded).2] at hcategory
  cases hcategory

/-- The scripts of a discovery are those that are found, each classified by its name. -/
theorem mem_scripts_ofFolder_iff {root : Location} {inside : Folder} (hinside : inside.Sound)
    {leadsToFolder : List Text → Bool} {excludes : List Text} {limit : Int} {s : FoundScript} :
    s ∈ (ofFolder root inside leadsToFolder excludes limit).scripts ↔
      ∃ folders name, LeadsToScript inside folders name ∧
        s.name = relativeText (folders ++ [name]) ∧ s.location = root ++ (folders ++ [name]) ∧
        (s.category, s.note) = classify excludes name := by
  rw [scripts_ofFolder, List.mem_map]
  constructor
  · rintro ⟨path, hpath, rfl⟩
    obtain ⟨folders, name, rfl, h⟩ :=
      (mem_scriptPaths_iff hinside).mp (mem_orderedPaths_iff.mp hpath)
    refine ⟨folders, name, h, rfl, rfl, ?_⟩
    rw [scriptAt, getLast?_append_name]
  · rintro ⟨folders, name, h, hname, hlocation, hclass⟩
    refine ⟨folders ++ [name], ?_, ?_⟩
    · exact mem_orderedPaths_iff.mpr ((mem_scriptPaths_iff hinside).mpr ⟨folders, name, rfl, h⟩)
    · rw [scriptAt, getLast?_append_name, ← hname, ← hlocation, ← hclass]

/-- A discovery in a sound folder is exact. -/
theorem isExact_ofFolder (root : Location) {inside : Folder} (hinside : inside.Sound)
    (leadsToFolder : List Text → Bool) (excludes : List Text) (limit : Int) :
    IsExact inside leadsToFolder excludes (ofFolder root inside leadsToFolder excludes limit) where
  mem_scripts_iff _ := mem_scripts_ofFolder_iff hinside
  increasing := by
    rw [scripts_ofFolder, List.pairwise_map]
    exact pairwise_precedes_orderedPaths hinside
  mem_skippedFolders_iff entry := by
    rw [ofFolder, List.mem_map]
    constructor
    · rintro ⟨found, hfound, rfl⟩
      obtain ⟨folders, name, rfl, h⟩ := (mem_skippedPaths_iff hinside).mp hfound
      exact ⟨folders, name, h, rfl⟩
    · rintro ⟨folders, name, h, rfl⟩
      exact ⟨_, (mem_skippedPaths_iff hinside).mpr ⟨folders, name, rfl, h⟩, rfl⟩
  nodup_skippedFolders := by
    apply List.pairwise_map.mpr
    apply (pairwise_relativeText_skippedPaths leadsToFolder hinside).imp
    intro entry other hne heq
    exact hne (congrArg Prod.fst heq)
  perm_scripts := declarations_append_excluded_perm _
  disjoint := disjoint_declarations_excluded _

/-- Where a path leads to a folder, its discovery is the walk through that folder. -/
theorem ofDisk_eq_ofFolder {disk : Disk} {p : WrittenPath} {inside : Folder}
    (hzero : p.hasZero = false)
    (hinside : disk.folder? (.ofLocation (disk.resolve p)) = some inside)
    (excludes : List Text) (limit : Int) :
    ofDisk disk p excludes limit = .ok (ofFolder (disk.resolve p) inside
      (fun path => disk.isFolder (.ofLocation (disk.resolve p ++ path))) excludes limit) := by
  obtain ⟨l, hl, hat⟩ := Disk.exists_location_of_folder? hinside
  have hthere : disk.isThere (.ofLocation (disk.resolve p)) = true := by
    simp only [Disk.isThere, Disk.node?, hl, hat, Option.isSome_some]
  rw [ofDisk, hzero]
  simp only [hl, hthere, hinside]
  rfl

/-- A discovery from the top of a disk is the walk through everything on it. -/
theorem ofDisk_top (disk : Disk) (excludes : List Text) (limit : Int) :
    ofDisk disk (.ofText "/".toList) excludes limit = .ok (ofFolder [] disk.top
      (fun path => disk.isFolder (.ofLocation path)) excludes limit) := by
  have hroot : disk.resolve (.ofText "/".toList) = [] := rfl
  have hlocate : disk.locate (.ofLocation []) = .ok [] := by
    rw [Disk.locate, if_neg (by decide)]
    exact Disk.locateFrom.eq_1 _ _ _
  have hfolder : disk.folder? (.ofLocation (disk.resolve (.ofText "/".toList))) =
      some disk.top := by
    rw [hroot, Disk.folder?, Disk.node?, hlocate]
    rfl
  exact ofDisk_eq_ofFolder (by decide) hfolder excludes limit

/-- Discovery finds exactly the scripts below a root, in one order. A walk on which the entries of
the folders are listed in other orders finds the same scripts, and leaves the same entries out. -/
theorem ofDisk_exact {disk : Disk} {p : WrittenPath} {inside : Folder} (hzero : p.hasZero = false)
    (hfolder : disk.folder? (.ofLocation (disk.resolve p)) = some inside) (hinside : inside.Sound)
    (excludes : List Text) (limit : Int) :
    let root := disk.resolve p
    let leadsToFolder := fun path => disk.isFolder (.ofLocation (root ++ path))
    ∃ d, ofDisk disk p excludes limit = .ok d ∧ d.root = root ∧
      IsExact inside leadsToFolder excludes d ∧
      ∀ listed : Folder, listed.Sound → listed.SameTree inside →
        let other := ofFolder root listed leadsToFolder excludes limit
        other.scripts = d.scripts ∧ other.declarations = d.declarations ∧
          other.excluded = d.excluded ∧ other.skippedFolders.Perm d.skippedFolders := by
  intro root leadsToFolder
  refine ⟨_, ofDisk_eq_ofFolder hzero hfolder excludes limit, rfl,
    isExact_ofFolder root hinside leadsToFolder excludes limit, ?_⟩
  intro listed hlisted hsame
  -- the scripts are sorted by name, so the order in which a folder is listed does not show
  have hscripts : (ofFolder root listed leadsToFolder excludes limit).scripts =
      (ofFolder root inside leadsToFolder excludes limit).scripts := by
    rw [scripts_ofFolder, scripts_ofFolder, orderedPaths_sameTree hlisted hinside hsame]
  refine ⟨hscripts, ?_, ?_, ?_⟩
  · rw [declarations, hscripts]
    rfl
  · rw [excluded, hscripts]
    rfl
  · exact (skippedPaths_sameTree leadsToFolder hlisted hinside hsame).map _

/-- A repository with a script at its root, one in a folder and one in a folder that is left out. A
link to a folder is left out for its name. -/
def sampleRepository : Folder :=
  .file "b.ps1".toList [] <| .folder "docs".toList (.file "A.PS1".toList [] .empty) <|
    .folder ".git".toList (.file "hook.ps1".toList [] .empty) <|
    .link "build".toList "docs".toList .empty

/-- The repository with its first two entries listed the other way round. -/
def sampleRelisted : Folder :=
  .folder "docs".toList (.file "A.PS1".toList [] .empty) <| .file "b.ps1".toList [] <|
    .folder ".git".toList (.file "hook.ps1".toList [] .empty) <|
    .link "build".toList "docs".toList .empty

/-- A disk with the repository in a folder. -/
def sampleDisk : Disk :=
  ⟨.folder "repo".toList sampleRepository .empty, []⟩

/-- No link stands between the root and where it is. -/
theorem resolve_sampleDisk : sampleDisk.resolve (.ofText "/repo".toList) = ["repo".toList] := by
  decide

/-- The sample's repository is where its path leads, over the link. -/
theorem folder?_sampleDisk :
    sampleDisk.folder? (.ofLocation ["repo".toList]) = some sampleRepository := by
  have hlink : ∀ target, sampleDisk.top.get? "repo".toList ≠ some (.link target) := by
    simp [sampleDisk, Folder.get?]
  have hlocate : sampleDisk.locate (.ofLocation ["repo".toList]) = .ok ["repo".toList] :=
    Disk.locate_name rfl (by decide) (by decide) (by decide) (by decide) hlink
  rw [Disk.folder?, Disk.node?, hlocate]
  rfl

/-- A repository with a link, an ignored folder and an excluded script, listed in two orders. -/
theorem ofDisk_sample :
    ∃ d, ofDisk sampleDisk (.ofText "/repo".toList) [] 500 = .ok d ∧
      IsExact sampleRepository
        (fun path => sampleDisk.isFolder (.ofLocation ("repo".toList :: path))) [] d ∧
      (ofFolder ["repo".toList] sampleRelisted
        (fun path => sampleDisk.isFolder (.ofLocation ("repo".toList :: path))) [] 500).scripts =
        d.scripts := by
  have hfolder : sampleDisk.folder? (.ofLocation (sampleDisk.resolve (.ofText "/repo".toList))) =
      some sampleRepository := by
    rw [resolve_sampleDisk]
    exact folder?_sampleDisk
  obtain ⟨d, hd, -, hexact, hlisted⟩ := ofDisk_exact (by decide) hfolder (by decide) [] 500
  rw [resolve_sampleDisk] at hexact hlisted
  have hsame : sampleRelisted.SameTree sampleRepository :=
    Folder.sameTree_swap (by decide) (.folder _) (.file _) _
  exact ⟨d, hd, hexact, (hlisted sampleRelisted (by decide) hsame).1⟩

end SetupCatalog.Discovery
