import SetupCatalog.Proofs.Catalog.Independence
import SetupCatalog.Proofs.Discovery.Exact

/-!
# Excluding scripts

Patterns that exclude scripts change nothing but the categories. A script declares packages exactly
if no pattern fits its name, one of the usual ones or one of those asked for
(`classify_eq_declaration_iff`). So further patterns take scripts out of the declarations and
nothing else, and their order does not matter.

`scanFolder_excludes` is the main statement, on whole runs: the scripts stay listed, the scripts
that are still searched are those that both lists of patterns leave in, and the packages that go are
those of the other scripts. Every package names the script that it was found in, and no two scripts
have the same name.
-/

namespace SetupCatalog

open Text

namespace Discovery

/-! ## Categories -/

/-- A script declares packages exactly if no pattern fits its name. -/
theorem classify_eq_declaration_iff {excludes : List Text} {name : Text} :
    (classify excludes name).1 = .declaration ↔
      (∀ usual ∈ usualExclusions, fits name usual.1 = false) ∧
        ∀ pattern ∈ excludes, fits name pattern = false := by
  have hnone : (classify excludes name).1 = .declaration ↔
      (usualExclusions ++ excludes.map requestedExclusion).find? (fun e => fits name e.1) =
        none := by
    rw [classify]
    split
    · next hfound =>
      rw [hfound]
      exact iff_of_false (by simp) (by simp)
    · next hfound =>
      rw [hfound]
      exact iff_of_true rfl rfl
  rw [hnone, List.find?_eq_none, List.forall_mem_append, List.forall_mem_map]
  simp only [Bool.not_eq_true]
  rfl

/-- Patterns exclude what either part of their list excludes. -/
theorem classify_append_eq_declaration_iff {excludes more : List Text} {name : Text} :
    (classify (excludes ++ more) name).1 = .declaration ↔
      (classify excludes name).1 = .declaration ∧ (classify more name).1 = .declaration := by
  rw [classify_eq_declaration_iff, classify_eq_declaration_iff, classify_eq_declaration_iff,
    List.forall_mem_append]
  exact ⟨fun h => ⟨⟨h.1, h.2.1⟩, h.1, h.2.2⟩, fun h => ⟨h.1.1, h.1.2, h.2.2⟩⟩

/-- There are two categories, so one of them tells the category. -/
theorem eq_of_declaration_iff {a b : ScriptCategory}
    (h : a = .declaration ↔ b = .declaration) : a = b := by
  cases a <;> cases b <;> simp_all

/-- The order of the patterns does not matter for a category. -/
theorem classify_fst_of_perm {excludes other : List Text} (h : excludes.Perm other) (name : Text) :
    (classify excludes name).1 = (classify other name).1 := by
  apply eq_of_declaration_iff
  rw [classify_eq_declaration_iff, classify_eq_declaration_iff]
  exact and_congr_right fun _ => forall_congr' fun pattern => imp_congr_left h.mem_iff

/-! ## Scripts that are searched -/

/-- Whether the script at a path is searched for packages. -/
def declaresAt (excludes : List Text) (path : List Text) : Bool :=
  (classify excludes (path.getLast?.getD [])).1 = .declaration

/-- More patterns exclude more: a path is declared under both lists when it is under each. -/
theorem declaresAt_append (excludes more path : List Text) :
    declaresAt (excludes ++ more) path = (declaresAt excludes path && declaresAt more path) := by
  rw [Bool.eq_iff_iff, Bool.and_eq_true, declaresAt, declaresAt, declaresAt, decide_eq_true_eq,
    decide_eq_true_eq, decide_eq_true_eq]
  exact classify_append_eq_declaration_iff

/-- A script that is searched for packages, by its path. The patterns do not show in it. -/
def declarationAt (root : Location) (path : List Text) : FoundScript :=
  { name := relativeText path
    location := root ++ path
    category := .declaration
    note := "Package declaration script".toList }

/-- A path that is not excluded is a script through its declaration. -/
theorem scriptAt_of_declaresAt {root : Location} {excludes path : List Text}
    (h : declaresAt excludes path = true) :
    scriptAt root excludes path = declarationAt root path := by
  rw [declaresAt, decide_eq_true_eq] at h
  have hclass : classify excludes (path.getLast?.getD []) =
      (.declaration, "Package declaration script".toList) := by
    unfold classify at h ⊢
    split
    · next hfound =>
      rw [hfound] at h
      cases h
    · rfl
  rw [scriptAt, hclass]
  rfl

/-- A declaration tells its path. -/
theorem declarationAt_injective {root : Location} {path other : List Text}
    (h : declarationAt root path = declarationAt root other) : path = other :=
  List.append_cancel_left (FoundScript.mk.inj h).2.1

/-- The declarations of a folder are those of its ordered paths that no pattern excludes. -/
theorem declarations_ofFolder (root : Location) (inside : Folder)
    (leadsToFolder : List Text → Bool) (excludes : List Text) (limit : Int) :
    (ofFolder root inside leadsToFolder excludes limit).declarations =
      ((orderedPaths inside).filter (declaresAt excludes)).map (declarationAt root) := by
  rw [declarations, scripts_ofFolder, List.filter_map]
  apply List.map_congr_left
  intro path hpath
  exact scriptAt_of_declaresAt (List.mem_filter.mp hpath).2

/-- Scripts are still searched with further patterns exactly if those leave them in as well. -/
theorem declarations_ofFolder_append (root : Location) (inside : Folder)
    (leadsToFolder : List Text → Bool) (excludes more : List Text) (limit : Int) :
    (ofFolder root inside leadsToFolder (excludes ++ more) limit).declarations =
      (ofFolder root inside leadsToFolder excludes limit).declarations.filter
        (· ∈ (ofFolder root inside leadsToFolder more limit).declarations) := by
  rw [declarations_ofFolder, declarations_ofFolder, declarations_ofFolder, List.filter_map,
    List.filter_filter]
  congr 1
  apply List.filter_congr
  intro path hpath
  rw [declaresAt_append, Bool.and_comm, Function.comp_apply]
  congr 1
  rw [Bool.eq_iff_iff, decide_eq_true_eq, List.mem_map]
  constructor
  · intro h
    exact ⟨path, List.mem_filter.mpr ⟨hpath, h⟩, rfl⟩
  · rintro ⟨other, hother, heq⟩
    rw [← declarationAt_injective heq]
    exact (List.mem_filter.mp hother).2

/-! ## Packages -/

/-- The packages that a script contributes; none if it cannot be read. -/
def contribution (disk : Disk) (options : ScanOptions) (s : FoundScript) : List Package :=
  match readScript disk s with
  | .ok source => packagesOf source.name source.text options
  | .error _ => []

/-- Every package names the script that contributes it. -/
theorem script_of_mem_contribution {disk : Disk} {options : ScanOptions} {s : FoundScript}
    {p : Package} (h : p ∈ contribution disk options s) : p.script = s.name := by
  rw [contribution] at h
  split at h
  · next source hsource =>
    rw [script_of_mem_packagesOf h]
    rw [readScript, sourceFrom] at hsource
    split at hsource
    · rw [← Except.ok.inj hsource]
    · cases hsource
  · cases h

/-- The packages of a discovery are what its declarations contribute, one after the other. -/
theorem packages_build_load (disk : Disk) (d : Discovery) (options : ScanOptions) :
    (Catalog.build (d.load disk).1 options).packages =
      d.declarations.flatMap (contribution disk options) := by
  rw [Catalog.build_eq, load, loadFrom]
  induction d.declarations with
  | nil => rfl
  | cons s declarations ih =>
    rw [List.map_cons, List.flatMap_cons, ← ih, contribution, readScript, sourcesOf,
      List.filterMap_cons]
    cases sourceFrom s (disk.files s.location) with
    | ok source => rfl
    | error remark => rfl

/-- What some of the scripts contribute are the packages that name one of them. -/
theorem flatMap_contribution_filter (disk : Disk) (options : ScanOptions)
    {declarations kept : List FoundScript} (hsub : ∀ s ∈ kept, s ∈ declarations)
    (hnames : ∀ s ∈ declarations, ∀ t ∈ declarations, s.name = t.name → s = t) :
    (declarations.filter (· ∈ kept)).flatMap (contribution disk options) =
      (declarations.flatMap (contribution disk options)).filter
        fun p => p.script ∈ kept.map FoundScript.name := by
  -- a package names its script, and a name belongs to one script alone; so the filter on names
  -- keeps the whole contribution of a script or drops it
  have hone : ∀ s ∈ declarations, (contribution disk options s).filter
      (fun p => p.script ∈ kept.map FoundScript.name) =
        if s ∈ kept then contribution disk options s else [] := by
    intro s hs
    by_cases hkept : s ∈ kept
    · rw [if_pos hkept, List.filter_eq_self]
      intro p hp
      rw [decide_eq_true_eq, script_of_mem_contribution hp]
      exact List.mem_map_of_mem hkept
    · rw [if_neg hkept, List.filter_eq_nil_iff]
      intro p hp
      rw [decide_eq_true_eq, script_of_mem_contribution hp, List.mem_map]
      rintro ⟨t, ht, hname⟩
      rw [hnames t (hsub t ht) s hs hname] at ht
      exact hkept ht
  rw [List.filter_flatMap, List.flatMap_congr hone]
  clear hone hnames hsub
  induction declarations with
  | nil => rfl
  | cons s declarations ih =>
    by_cases hkept : s ∈ kept
    · rw [List.filter_cons_of_pos (by simpa using hkept), List.flatMap_cons, List.flatMap_cons,
        if_pos hkept, ih]
    · rw [List.filter_cons_of_neg (by simpa using hkept), List.flatMap_cons, if_neg hkept, ih]
      rfl

/-- No two scripts have the same name. -/
theorem eq_of_name_eq {root : Location} {inside : Folder} (hinside : inside.Sound)
    {leadsToFolder : List Text → Bool} {excludes : List Text} {limit : Int} {s t : FoundScript}
    (hs : s ∈ (ofFolder root inside leadsToFolder excludes limit).scripts)
    (ht : t ∈ (ofFolder root inside leadsToFolder excludes limit).scripts)
    (hname : s.name = t.name) : s = t := by
  have hnodup : ((ofFolder root inside leadsToFolder excludes limit).scripts.map
      FoundScript.name).Nodup := by
    apply List.pairwise_map.mpr
    apply (isExact_ofFolder root hinside leadsToFolder excludes limit).increasing.imp
    intro s t hbefore heq
    rw [heq] at hbefore
    exact hbefore.asymm hbefore
  exact List.inj_on_of_nodup_map hnodup hs ht hname

/-- With further patterns, what goes are the packages of the scripts that are no longer searched. -/
theorem packages_ofFolder_append (disk : Disk) (options : ScanOptions) (root : Location)
    {inside : Folder} (hinside : inside.Sound) (leadsToFolder : List Text → Bool)
    (excludes more : List Text) (limit : Int) :
    let found := fun patterns => ofFolder root inside leadsToFolder patterns limit
    (Catalog.build ((found (excludes ++ more)).load disk).1 options).packages =
      (Catalog.build ((found excludes).load disk).1 options).packages.filter fun p =>
        p.script ∈ (found (excludes ++ more)).declarations.map FoundScript.name := by
  intro found
  have hkept : (found (excludes ++ more)).declarations =
      (found excludes).declarations.filter (· ∈ (found more).declarations) :=
    declarations_ofFolder_append root inside leadsToFolder excludes more limit
  have hsub : ∀ s ∈ (found (excludes ++ more)).declarations,
      s ∈ (found excludes).declarations := by
    intro s hs
    rw [hkept] at hs
    exact (List.mem_filter.mp hs).1
  -- filtering by what is left in is filtering by what the further patterns leave in
  have hself : (found (excludes ++ more)).declarations =
      (found excludes).declarations.filter (· ∈ (found (excludes ++ more)).declarations) := by
    nth_rewrite 1 [hkept]
    apply List.filter_congr
    intro s hs
    rw [hkept, decide_eq_decide, List.mem_filter, decide_eq_true_eq]
    exact ⟨fun h => ⟨hs, h⟩, fun h => h.2⟩
  rw [packages_build_load, packages_build_load]
  nth_rewrite 1 [hself]
  apply flatMap_contribution_filter disk options hsub
  intro s hs t ht hname
  exact eq_of_name_eq hinside (List.mem_filter.mp hs).1 (List.mem_filter.mp ht).1 hname

/-! ## Whole runs -/

/-- Whether there is something to discover does not depend on the patterns. -/
theorem ofDisk_error_or_folder (disk : Disk) (p : WrittenPath) :
    (∃ fault, ∀ excludes limit, ofDisk disk p excludes limit = .error fault) ∨
      p.hasZero = false ∧
        ∃ inside, disk.folder? (.ofLocation (disk.resolve p)) = some inside := by
  by_cases hzero : p.hasZero = true
  · refine Or.inl ⟨.zeroCharacter, fun excludes limit => ?_⟩
    rw [ofDisk, if_pos hzero]
  · cases hfolder : disk.folder? (.ofLocation (disk.resolve p)) with
    | some inside => exact Or.inr ⟨Bool.eq_false_iff.mpr hzero, inside, rfl⟩
    | none =>
      left
      simp only [ofDisk, if_neg hzero, hfolder]
      -- without a folder nothing is left in which the patterns occur
      generalize disk.locate (.ofLocation (disk.resolve p)) = located
      generalize disk.isThere (.ofLocation (disk.resolve p)) = there
      cases there <;> rcases located with (_ | _) | _ <;> exact ⟨_, fun _ _ => rfl⟩

/-- A folder of a sound disk is sound, through links too. -/
theorem sound_of_folder? {disk : Disk} (hdisk : disk.top.Sound) {p : WrittenPath}
    {inside : Folder} (h : disk.folder? p = some inside) : inside.Sound := by
  obtain ⟨l, -, hat⟩ := Disk.exists_location_of_folder? h
  exact hdisk.at? hat

/-- A scan is a discovery and the catalog of what it reads. -/
theorem scanFolder_eq_of_ofDisk {disk : Disk} {p : WrittenPath} {excludes : List Text}
    {d : Discovery} (h : ofDisk disk p excludes recommendedLimit = .ok d) (options : ScanOptions) :
    scanFolder disk p excludes options =
      .ok ((d.load disk).2, Catalog.build (d.load disk).1 options) := by
  rw [scanFolder, h]
  rfl

end Discovery

open Discovery in
/-- Excluding scripts removes only their records. Either there is nothing to discover, whatever the
patterns are, or every list of patterns gives a discovery. Then further patterns leave the list of
scripts as it is; a script is still searched exactly if either part of the patterns leaves it in;
the order of patterns changes no category; and the packages that are still found are those of the
scripts that are still searched, unchanged and in the same order. -/
theorem scanFolder_excludes {disk : Disk} (hdisk : disk.top.Sound) (p : WrittenPath)
    (options : ScanOptions) :
    (∃ fault, ∀ excludes, scanFolder disk p excludes options = .error fault ∧
      ∀ limit, ofDisk disk p excludes limit = .error fault) ∨
    ∃ (found : List Text → Int → Discovery) (scanned : List Text → Discovery × Catalog),
      (∀ excludes limit, ofDisk disk p excludes limit = .ok (found excludes limit)) ∧
      (∀ excludes, scanFolder disk p excludes options = .ok (scanned excludes)) ∧
      ∀ excludes more,
        (∀ limit,
          ((found (excludes ++ more) limit).scripts.map fun s => (s.name, s.location)) =
            ((found excludes limit).scripts.map fun s => (s.name, s.location)) ∧
          (found (excludes ++ more) limit).declarations =
            (found excludes limit).declarations.filter
              (· ∈ (found more limit).declarations) ∧
          ∀ other, excludes.Perm other →
            ((found other limit).scripts.map fun s => (s.name, s.location, s.category)) =
              (found excludes limit).scripts.map fun s => (s.name, s.location, s.category)) ∧
        (scanned (excludes ++ more)).2.packages = (scanned excludes).2.packages.filter fun p =>
          p.script ∈ (scanned (excludes ++ more)).1.declarations.map FoundScript.name := by
  rcases ofDisk_error_or_folder disk p with ⟨fault, hfault⟩ | ⟨hzero, inside, hfolder⟩
  · refine Or.inl ⟨fault, fun excludes => ⟨?_, hfault excludes⟩⟩
    rw [scanFolder, hfault]
    rfl
  · have hinside := sound_of_folder? hdisk hfolder
    have hofDisk := ofDisk_eq_ofFolder hzero hfolder
    have hscanFolder := fun excludes => scanFolder_eq_of_ofDisk (hofDisk excludes _) options
    refine Or.inr ⟨_, _, hofDisk, hscanFolder, fun excludes more => ⟨fun limit => ⟨?_, ?_, ?_⟩, ?_⟩⟩
    · rw [scripts_ofFolder, scripts_ofFolder, List.map_map, List.map_map]
      rfl
    · exact declarations_ofFolder_append _ _ _ _ _ _
    · intro other hperm
      rw [scripts_ofFolder, scripts_ofFolder, List.map_map, List.map_map]
      apply List.map_congr_left
      intro path _
      simp only [Function.comp_apply, scriptAt, classify_fst_of_perm hperm]
    · exact packages_ofFolder_append disk options _ hinside _ excludes more recommendedLimit

open Discovery in
/-- One more pattern on the sample disk: same scripts, and no declaration that was not there before.
-/
theorem scanFolder_excludes_sample :
    ∃ d d' : Discovery, ofDisk sampleDisk (.ofText "/repo".toList) [] 500 = .ok d ∧
      ofDisk sampleDisk (.ofText "/repo".toList) ["[A-B].ps1".toList] 500 = .ok d' ∧
      (d'.scripts.map fun s => (s.name, s.location)) =
        (d.scripts.map fun s => (s.name, s.location)) ∧
      ∀ s ∈ d'.declarations, s ∈ d.declarations := by
  have hfolder : sampleDisk.folder? (.ofLocation (sampleDisk.resolve (.ofText "/repo".toList))) =
      some sampleRepository := by
    rw [resolve_sampleDisk]
    exact folder?_sampleDisk
  -- the repository is found, so the first case is none
  rcases scanFolder_excludes (show sampleDisk.top.Sound by decide) (.ofText "/repo".toList) {} with
    ⟨fault, hfault⟩ | ⟨found, scanned, hfound, -, hmore⟩
  · have := (hfault []).2 500
    rw [ofDisk_eq_ofFolder (by decide) hfolder] at this
    cases this
  · obtain ⟨hscripts, hdeclarations, -⟩ := (hmore [] ["[A-B].ps1".toList]).1 500
    refine ⟨_, _, hfound [] 500, hfound ["[A-B].ps1".toList] 500, hscripts, fun s hs => ?_⟩
    rw [List.nil_append] at hdeclarations
    rw [hdeclarations] at hs
    exact (List.mem_filter.mp hs).1

end SetupCatalog
