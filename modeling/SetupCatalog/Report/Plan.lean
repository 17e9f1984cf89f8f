import SetupCatalog.Command.Install
import SetupCatalog.Command.Shell

/-!
# Install plans

A plan lists the install commands of packages, one on each line, under a header for every run of
packages of one script. A package without an installer is listed as a comment.
-/

namespace SetupCatalog.Plan

open Text

/-- The line of a package in a plan. -/
def commandLine (p : Package) : Text :=
  match p.installCommand with
  | .ok words => Shell.line words
  | .error e => "# skipped: ".toList ++ e.message

/-- The lines before a package that is the first of its script in a row, `current` being the script
of the package before, if there is one. -/
def header (current : Option Text) (script : Text) : List Text :=
  if current = some script then []
  else (if current.isSome then [[]] else []) ++ ["# ".toList ++ script]

/-- The lines of a plan after a package of the script `current`, if there is one. -/
def linesAfter (current : Option Text) : List Package → List Text
  | [] => []
  | p :: ps => header current p.script ++ commandLine p :: linesAfter (some p.script) ps

/-- The install plan of packages. -/
def render (packages : List Package) : Text :=
  (linesAfter none packages).flatMap fun line => line ++ ['\n']

end SetupCatalog.Plan
