import SetupCatalog.Json.Basic
import SetupCatalog.Package.Basic

/-!
# Summaries

A summary counts packages by status and by installer. Every status and every installer is listed,
whether it occurs or not.
-/

namespace SetupCatalog

/-- How many packages there are, in all, by status and by installer. -/
structure Summary where
  /-- The number of packages. -/
  total : Nat
  /-- The number of packages of each status. -/
  byStatus : List (Status × Nat)
  /-- The number of packages of each installer. -/
  byInstaller : List (Installer × Nat)
  deriving DecidableEq, Repr

namespace Summary

/-- The summary of packages. -/
def ofOutcomes (outcomes : List Outcome) : Summary where
  total := outcomes.length
  byStatus := Status.all.map fun s => (s, outcomes.countP fun o => o.status = s)
  byInstaller := Installer.all.map fun i => (i, outcomes.countP fun o => o.package.installer = i)

/-- A summary as a JSON object. -/
def toJson (s : Summary) : Json :=
  .object
    [("total".toList, .int s.total),
      ("by_status".toList, .object (s.byStatus.map fun (status, n) => (status.name, .int n))),
      ("by_installer".toList,
        .object (s.byInstaller.map fun (installer, n) => (installer.name, .int n)))]

end Summary

end SetupCatalog
