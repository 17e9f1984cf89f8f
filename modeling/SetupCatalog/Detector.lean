import SetupCatalog.Rule.Basic

/-!
# Detectors and line-ups

A detector applies one rule with its own options and collects remarks. A line-up applies several
detectors to one script, in order: a package that an earlier detector has declared is not declared
again by a later one. The remarks of a line-up are those of its latest scan.
-/

namespace SetupCatalog

/-- A rule with its options and the remarks collected so far. -/
structure Detector where
  /-- What the detector recognises. -/
  rule : Rule
  /-- The options that the rule is applied with. -/
  options : ScanOptions := {}
  /-- The remarks collected so far, the oldest first. -/
  remarks : List Text := []

namespace Detector

/-- A remark with the name of the rule that makes it. -/
def labelled (d : Detector) (remark : Text) : Text :=
  '[' :: d.rule.name ++ "] ".toList ++ remark

/-- The detector with a further remark. -/
def remark (d : Detector) (text : Text) : Detector :=
  { d with remarks := d.remarks ++ [d.labelled text] }

/-- The detector without its remarks. -/
def cleared (d : Detector) : Detector :=
  { d with remarks := [] }

/-- What a detector finds in a script, given the keys seen before: the new packages, the keys seen
then, and the detector with the remarks that it has made. -/
def scan (d : Detector) (script text : Text) (seen : Seen) : List Package × Seen × Detector :=
  let found := d.rule.candidates d.options script text
  (newPackages seen found, seenAfter seen found,
    { d with remarks := d.remarks ++ (d.rule.remarks d.options text).map d.labelled })

end Detector

/-- Detectors in the order in which they are applied, and the remarks of the latest scan. -/
structure LineUp where
  /-- The detectors. -/
  detectors : List Detector := []
  /-- The remarks of the latest scan, each with the name of the script. -/
  remarks : List Text := []

namespace LineUp

/-- The line-up with a further detector at its end. -/
def add (l : LineUp) (d : Detector) : LineUp :=
  { l with detectors := l.detectors ++ [d] }

/-- A line-up of every rule, all with the same options. -/
def standard (options : ScanOptions) : LineUp :=
  ⟨Rule.all.map fun rule => { rule, options }, []⟩

/-- Applies detectors in order. Each starts without remarks and with the keys that the ones before
it have seen. -/
def scanWith (script text : Text) (seen : Seen) : List Detector → List Package × List Detector
  | [] => ([], [])
  | d :: ds =>
    let (found, seen, d) := d.cleared.scan script text seen
    let (others, ds) := scanWith script text seen ds
    (found ++ others, d :: ds)

/-- A remark with the name of the script that it is about. -/
def attributed (script remark : Text) : Text :=
  script ++ ": ".toList ++ remark

/-- The packages that a line-up finds in a script, each key once, and the line-up after that. -/
def scan (l : LineUp) (script text : Text) : List Package × LineUp :=
  let (found, detectors) := scanWith script text [] l.detectors
  (found, ⟨detectors, detectors.flatMap fun d => d.remarks.map (attributed script)⟩)

end LineUp

/-- The packages that every rule together finds in a script. -/
def packagesOf (script text : Text) (options : ScanOptions) : List Package :=
  ((LineUp.standard options).scan script text).1

end SetupCatalog
