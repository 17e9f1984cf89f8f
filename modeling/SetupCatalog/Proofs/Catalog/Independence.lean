import SetupCatalog.Catalog
import SetupCatalog.Proofs.Rule.Declaration

/-!
# Scripts do not influence each other

One line-up scans all the scripts of a catalog, and its detectors carry their remarks from one
script to the next. Two line-ups are `Alike` if they differ in remarks only. A scan cannot tell such
line-ups apart (`scan_of_alike`) and leaves a line-up alike (`alike_scan`), which makes this an
invariant of every sequence of scans: each scan reports what a line-up put together anew would
report (`reports_eq`), and a catalog is the concatenation of what its scripts contribute
(`build_eq`).

`build_independent` is the main statement.
-/

namespace SetupCatalog

namespace LineUp

/-- Two line-ups have the same rules and options in the same order, whatever they have remarked. -/
def Alike (l m : LineUp) : Prop :=
  l.detectors.map Detector.cleared = m.detectors.map Detector.cleared

/-- A line-up put together anew from the rules and the options of another. -/
def rebuilt (l : LineUp) : LineUp :=
  l.detectors.foldl (fun m d => m.add { rule := d.rule, options := d.options }) {}

/-- What a line-up reports on a script: the packages found, and the remarks that it has afterwards.
-/
def report (l : LineUp) (s : Source) : List Package × List Text :=
  ((l.scan s.name s.text).1, (l.scan s.name s.text).2.remarks)

/-- What a line-up reports on scripts that it scans one after the other. -/
def reports (l : LineUp) : List Source → List (List Package × List Text)
  | [] => []
  | s :: sources => l.report s :: (l.scan s.name s.text).2.reports sources

/-! ## Remarks change nothing -/

/-- A scan cannot tell line-ups apart that differ in remarks only. -/
theorem scan_of_alike {l m : LineUp} (h : l.Alike m) (script text : Text) :
    (l.scan script text).1 = (m.scan script text).1 ∧
      (l.scan script text).2.remarks = (m.scan script text).2.remarks := by
  -- neither half of a scan depends on more than the cleared detectors
  have packages_eq : ∀ l : LineUp, (l.scan script text).1 =
      newPackages [] ((l.detectors.map Detector.cleared).flatMap fun d =>
        d.recognised script text) := by
    intro l
    rw [scan_packages, List.flatMap_map]
    rfl
  have remarks_eq : ∀ l : LineUp, (l.scan script text).2.remarks =
      (l.detectors.map Detector.cleared).flatMap fun d =>
        (d.remarked text).map (attributed script) := by
    intro l
    rw [scan_remarks, List.flatMap_map]
    rfl
  rw [packages_eq, packages_eq, remarks_eq, remarks_eq, h]
  exact ⟨rfl, rfl⟩

/-- A scan leaves a line-up alike. -/
theorem alike_scan (l : LineUp) (script text : Text) : (l.scan script text).2.Alike l := by
  rw [Alike, scan_detectors, List.map_map]
  rfl

/-- Rebuilding a line-up clears the remarks of its detectors and nothing else. -/
theorem detectors_rebuilt (l : LineUp) :
    l.rebuilt.detectors = l.detectors.map Detector.cleared := by
  have foldl_add : ∀ (ds : List Detector) (m : LineUp),
      (ds.foldl (fun m d => m.add { rule := d.rule, options := d.options }) m).detectors =
        m.detectors ++ ds.map Detector.cleared := by
    intro ds
    induction ds with
    | nil =>
      intro m
      exact (List.append_nil m.detectors).symm
    | cons d ds ih =>
      intro m
      rw [List.foldl_cons, ih, List.map_cons, add, List.append_assoc]
      rfl
  exact foldl_add l.detectors {}

/-- A line-up and its rebuilt one differ in their remarks only. -/
theorem alike_rebuilt (l : LineUp) : l.Alike l.rebuilt := by
  rw [Alike, detectors_rebuilt, List.map_map]
  rfl

/-! ## Every sequence of scans -/

/-- Whatever was scanned before, each scan reports what a line-up alike reports at once. -/
theorem reports_of_alike {l m : LineUp} (h : l.Alike m) (sources : List Source) :
    l.reports sources = sources.map m.report := by
  induction sources generalizing l with
  | nil => rfl
  | cons s sources ih =>
    have hreport : l.report s = m.report s := Prod.ext_iff.mpr (scan_of_alike h s.name s.text)
    have halike : (l.scan s.name s.text).2.Alike m := (l.alike_scan s.name s.text).trans h
    rw [reports, List.map_cons, hreport, ih halike]

/-- Each scan reports what a line-up put together anew would report. -/
theorem reports_eq (l : LineUp) (sources : List Source) :
    l.reports sources = sources.map l.rebuilt.report :=
  reports_of_alike l.alike_rebuilt sources

/-- Every remark of a scan is one of a rule, with the names of the script and of the rule. -/
theorem exists_of_mem_remarks {l : LineUp} {script text remark : Text}
    (h : remark ∈ (l.scan script text).2.remarks) :
    ∃ d ∈ l.detectors, ∃ r ∈ d.rule.remarks d.options text,
      remark = script ++ ": ".toList ++ d.labelled r := by
  rw [scan_remarks] at h
  obtain ⟨d, hd, hremark⟩ := List.mem_flatMap.mp h
  obtain ⟨labelled, hlabelled, rfl⟩ := List.mem_map.mp hremark
  obtain ⟨r, hr, rfl⟩ := List.mem_map.mp hlabelled
  exact ⟨d, hd, r, hr, rfl⟩

end LineUp

/-- The remarks of a line-up of every rule on one script. -/
def remarksOf (script text : Text) (options : ScanOptions) : List Text :=
  ((LineUp.standard options).scan script text).2.remarks

/-- Everything that a line-up of every rule finds is attributed to the script. -/
theorem script_of_mem_packagesOf {script text : Text} {options : ScanOptions} {p : Package}
    (h : p ∈ packagesOf script text options) : p.script = script := by
  rw [packagesOf_eq] at h
  obtain ⟨rule, -, hp⟩ := List.mem_flatMap.mp (mem_newPackages h).1
  exact Rule.script_of_mem_candidates hp

namespace Catalog

/-- Scanning on adds what each of the scripts contributes by itself, whatever the line-up has
remarked before. -/
theorem foldl_extend {l : LineUp} {options : ScanOptions} (h : l.Alike (LineUp.standard options))
    (c : Catalog) (sources : List Source) :
    (sources.foldl extend (c, l)).1 =
      { packages := c.packages ++ sources.flatMap fun s => packagesOf s.name s.text options
        remarks := c.remarks ++ sources.flatMap fun s => remarksOf s.name s.text options
        scriptCount := c.scriptCount + sources.length } := by
  induction sources generalizing c l with
  | nil => simp
  | cons s sources ih =>
    obtain ⟨hfound, hremarks⟩ := LineUp.scan_of_alike h s.name s.text
    have halike : (l.scan s.name s.text).2.Alike (LineUp.standard options) :=
      (l.alike_scan s.name s.text).trans h
    rw [List.foldl_cons, extend, ih halike, hfound, hremarks]
    simp only [List.flatMap_cons, List.append_assoc, List.length_cons, Nat.add_assoc,
      Nat.add_comm 1, packagesOf, remarksOf]

/-- A catalog is the concatenation of what its scripts contribute. -/
theorem build_eq (sources : List Source) (options : ScanOptions) :
    build sources options =
      { packages := sources.flatMap fun s => packagesOf s.name s.text options
        remarks := sources.flatMap fun s => remarksOf s.name s.text options
        scriptCount := sources.length } := by
  rw [build, foldl_extend rfl]
  simp

/-- The packages of a script are those of the sources with its name, in their order. -/
theorem ofScript_build (sources : List Source) (options : ScanOptions) (name : Text) :
    (build sources options).ofScript name =
      (sources.filter fun s => s.name == name).flatMap fun s =>
        packagesOf s.name s.text options := by
  rw [ofScript, build_eq]
  induction sources with
  | nil => rfl
  | cons s sources ih =>
    rw [List.flatMap_cons, List.filter_append, ih]
    -- every package of a script names it, so the filter keeps all of them or none
    by_cases hname : s.name = name
    · have hall : (packagesOf s.name s.text options).filter (fun p => p.script == name) =
          packagesOf s.name s.text options := by
        rw [List.filter_eq_self]
        intro p hp
        rw [script_of_mem_packagesOf hp, hname, beq_self_eq_true]
      rw [hall, List.filter_cons_of_pos (by simpa using hname), List.flatMap_cons]
    · have hnone : (packagesOf s.name s.text options).filter (fun p => p.script == name) = [] := by
        rw [List.filter_eq_nil_iff]
        intro p hp
        rw [script_of_mem_packagesOf hp]
        simpa using hname
      rw [hnone, List.filter_cons_of_neg (by simpa using hname), List.nil_append]

end Catalog

/-- **Scripts do not influence each other.** A catalog of two lists of scripts is the two catalogs
one after the other. Whatever a line-up has scanned before, each scan reports the packages and the
remarks of a line-up put together anew, and every remark starts with the name of the script. The
packages of a name are those of all the scripts with this name, each scanned by itself, in their
order. -/
theorem build_independent (options : ScanOptions) :
    (∀ xs ys : List Source,
      (Catalog.build (xs ++ ys) options).packages =
        (Catalog.build xs options).packages ++ (Catalog.build ys options).packages ∧
      (Catalog.build (xs ++ ys) options).remarks =
        (Catalog.build xs options).remarks ++ (Catalog.build ys options).remarks ∧
      (Catalog.build (xs ++ ys) options).scriptCount =
        (Catalog.build xs options).scriptCount + (Catalog.build ys options).scriptCount) ∧
    (∀ l : LineUp,
      (∀ sources : List Source, l.reports sources = sources.map l.rebuilt.report) ∧
      ∀ s : Source, ∀ remark ∈ (l.report s).2, (s.name ++ ": ".toList) <+: remark) ∧
    ∀ (sources : List Source) (name : Text),
      (Catalog.build sources options).ofScript name =
        (sources.filter fun s => s.name == name).flatMap fun s =>
          packagesOf s.name s.text options := by
  refine ⟨fun xs ys => ?_, fun l => ⟨l.reports_eq, ?_⟩, fun sources name => ?_⟩
  · simp only [Catalog.build_eq, List.flatMap_append, List.length_append, and_self]
  · intro s remark hremark
    obtain ⟨d, -, r, -, rfl⟩ := LineUp.exists_of_mem_remarks hremark
    exact List.prefix_append _ _
  · exact Catalog.ofScript_build sources options name

end SetupCatalog
