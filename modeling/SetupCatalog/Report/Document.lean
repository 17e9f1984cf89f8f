import SetupCatalog.Json.Writer
import SetupCatalog.Report.Summary

/-!
# Reports as JSON documents

A report holds the summary, the packages in the order of the catalog, and the remarks.
-/

namespace SetupCatalog

/-- The fields of a package in a document. -/
def Package.fields (p : Package) : List (Text × Json) :=
  [("name".toList, .text p.name), ("package_id".toList, .text p.id),
    ("installer_type".toList, .text p.installer.name), ("source_script".toList, .text p.script),
    ("scope".toList, .text p.scope), ("additional_args".toList, .text p.extraArgs)]

/-- A package as a JSON object. -/
def Package.toJson (p : Package) : Json :=
  .object p.fields

/-- A package and how it stands as a JSON object. -/
def Outcome.toJson (o : Outcome) : Json :=
  .object (o.package.fields ++ [("status".toList, .text o.status.name),
    ("message".toList, .text o.note)])

namespace Report

/-- The report as a JSON value. -/
def toJson (outcomes : List Outcome) (remarks : List Text) : Json :=
  .object
    [("summary".toList, (Summary.ofOutcomes outcomes).toJson),
      ("packages".toList, .array (outcomes.map Outcome.toJson)),
      ("warnings".toList, .array (remarks.map Json.text))]

/-- The report as the text of a JSON document. -/
def document (outcomes : List Outcome) (remarks : List Text) (indent : Option Int) : Text :=
  Json.write indent (toJson outcomes remarks)

end Report

end SetupCatalog
