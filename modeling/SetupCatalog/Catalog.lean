import SetupCatalog.Detector

/-!
# Catalogs

A catalog holds the packages of several scripts in the order of the scripts. A package that two
scripts declare is listed for both.
-/

namespace SetupCatalog

/-- A script: its name and its text. -/
structure Source where
  /-- The name that packages are attributed to. -/
  name : Text
  /-- The text of the script. -/
  text : Text
  deriving DecidableEq, Repr

/-- The packages found in a number of scripts, and what was remarked on the way. -/
structure Catalog where
  /-- The packages, in the order of the scripts and of their discovery. -/
  packages : List Package := []
  /-- The remarks, each with the name of its script. -/
  remarks : List Text := []
  /-- The number of scripts that were scanned. -/
  scriptCount : Nat := 0

namespace Catalog

/-- The packages that the given script declares. -/
def ofScript (c : Catalog) (name : Text) : List Package :=
  c.packages.filter fun p => p.script == name

/-- The catalog and the line-up after a further script has been scanned. -/
def extend (state : Catalog × LineUp) (source : Source) : Catalog × LineUp :=
  let (found, lineUp) := state.2.scan source.name source.text
  ({ packages := state.1.packages ++ found
     remarks := state.1.remarks ++ lineUp.remarks
     scriptCount := state.1.scriptCount + 1 }, lineUp)

/-- The catalog of scripts that are scanned one after the other by one line-up of every rule. -/
def build (sources : List Source) (options : ScanOptions) : Catalog :=
  (sources.foldl extend ({}, LineUp.standard options)).1

end Catalog

end SetupCatalog
