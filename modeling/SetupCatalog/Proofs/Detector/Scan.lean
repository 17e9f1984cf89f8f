import SetupCatalog.Detector
import SetupCatalog.Proofs.Package.Novelty

/-!
# What a scan amounts to

A line-up hands the keys that one detector has seen to the next, and every detector forgets its
remarks before it scans. So a scan has two independent halves:

* the packages are one walk over everything that the detectors recognise, in their order
  (`LineUp.scan_packages`);
* the detectors are left with the remarks of this scan alone (`LineUp.scan_detectors`), and these
  are the remarks of the line-up (`LineUp.scan_remarks`).

Nothing on the right-hand sides mentions a remark made earlier.
-/

namespace SetupCatalog

namespace Detector

/-- What a detector recognises in a script, repeated packages included. -/
def recognised (d : Detector) (script text : Text) : List Package :=
  d.rule.candidates d.options script text

/-- What a detector remarks on a script. -/
def remarked (d : Detector) (text : Text) : List Text :=
  (d.rule.remarks d.options text).map d.labelled

/-- A detector gives what it recognises and has not been seen. -/
theorem scan_packages (d : Detector) (script text : Text) (seen : Seen) :
    (d.scan script text seen).1 = newPackages seen (d.recognised script text) := rfl

/-- A scan adds the keys of what it recognises to those seen. -/
theorem scan_seen (d : Detector) (script text : Text) (seen : Seen) :
    (d.scan script text seen).2.1 = seenAfter seen (d.recognised script text) := rfl

/-- A detector's remarks only grow. -/
theorem scan_remarks (d : Detector) (script text : Text) (seen : Seen) :
    (d.scan script text seen).2.2.remarks = d.remarks ++ d.remarked text := rfl

end Detector

namespace LineUp

/-- The first detector starts without remarks, and the others with the keys that it has seen. -/
theorem scanWith_cons (script text : Text) (seen : Seen) (d : Detector) (ds : List Detector) :
    scanWith script text seen (d :: ds) =
      (newPackages seen (d.recognised script text) ++
          (scanWith script text (seenAfter seen (d.recognised script text)) ds).1,
        { d with remarks := d.remarked text } ::
          (scanWith script text (seenAfter seen (d.recognised script text)) ds).2) := rfl

/-- The detectors make one walk over all that they recognise. -/
theorem scanWith_packages (script text : Text) (seen : Seen) (ds : List Detector) :
    (scanWith script text seen ds).1 =
      newPackages seen (ds.flatMap fun d => d.recognised script text) := by
  induction ds generalizing seen with
  | nil => rfl
  | cons d ds ih => rw [scanWith_cons, List.flatMap_cons, newPackages_append, ih]

/-- Each detector is left with the remarks of this scan. -/
theorem scanWith_detectors (script text : Text) (seen : Seen) (ds : List Detector) :
    (scanWith script text seen ds).2 = ds.map fun d => { d with remarks := d.remarked text } := by
  induction ds generalizing seen with
  | nil => rfl
  | cons d ds ih => rw [scanWith_cons, List.map_cons, ih]

/-- A line-up gives what its detectors recognise, in their order, each key once. -/
theorem scan_packages (l : LineUp) (script text : Text) :
    (l.scan script text).1 =
      newPackages [] (l.detectors.flatMap fun d => d.recognised script text) :=
  scanWith_packages script text [] l.detectors

/-- After a scan each detector holds the remarks of that text alone. -/
theorem scan_detectors (l : LineUp) (script text : Text) :
    (l.scan script text).2.detectors =
      l.detectors.map fun d => { d with remarks := d.remarked text } :=
  scanWith_detectors script text [] l.detectors

/-- The remarks of a scan are those of its detectors, each with the name of the script. -/
theorem scan_remarks (l : LineUp) (script text : Text) :
    (l.scan script text).2.remarks =
      l.detectors.flatMap fun d => (d.remarked text).map (attributed script) := by
  show (scanWith script text [] l.detectors).2.flatMap _ = _
  rw [scanWith_detectors, List.flatMap_map]

end LineUp

/-- The packages that every rule together finds are those that are new among what the rules
recognise, one rule after the other. -/
theorem packagesOf_eq (script text : Text) (options : ScanOptions) :
    packagesOf script text options =
      newPackages [] (Rule.all.flatMap fun rule => rule.candidates options script text) := by
  rw [packagesOf, LineUp.scan_packages, LineUp.standard, List.flatMap_map]
  rfl

end SetupCatalog
