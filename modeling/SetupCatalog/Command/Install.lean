import SetupCatalog.Command.PowerShell
import SetupCatalog.Package.Basic

/-!
# Install commands

The words of the command that installs a package. Modules and sideloaded packages are installed by a
PowerShell script, in which the identity of the package is a quoted literal.
-/

namespace SetupCatalog

/-- No installer is known for the package with this name. -/
structure NoInstaller where
  /-- The name of the package. -/
  name : Text

/-- The wording of a missing installer. -/
def NoInstaller.message (e : NoInstaller) : Text :=
  "Cannot build an install command for ".toList ++ Text.display e.name ++
    ": installer type is ".toList ++ Installer.unknown.name

namespace Package

/-- The command that runs a PowerShell script. -/
def scriptCommand (script : Text) : List Text :=
  ["pwsh".toList, "-NoProfile".toList, "-NonInteractive".toList, "-Command".toList, script]

/-- The arguments by which winget agrees to every licence. -/
def agreements : List Text :=
  ["--accept-package-agreements".toList, "--accept-source-agreements".toList]

/-- The script that installs a module. -/
def moduleScript (p : Package) : Text :=
  "Install-Module -Name ".toList ++ PowerShell.literal p.id ++
    " -Force -AllowClobber -Scope AllUsers".toList ++
    if p.extraArgs.isEmpty then [] else ' ' :: p.extraArgs

/-- The script that loads a package from its address and installs it. -/
def sideloadScript (p : Package) : Text :=
  "$bundle = Join-Path $env:TEMP 'sideload.msixbundle'; Invoke-WebRequest -Uri ".toList ++
    PowerShell.literal p.id ++ " -OutFile $bundle; Add-AppxPackage -Path $bundle".toList

/-- The words of the command that installs a package. -/
def installCommand (p : Package) : Except NoInstaller (List Text) :=
  match p.installer with
  -- only here an empty scope makes a difference to the words
  | .winget => .ok <|
    ["winget".toList, "install".toList, "--id".toList, p.id, "--exact".toList, "--silent".toList] ++
      agreements ++ if p.scope.isEmpty then [] else ["--scope".toList, p.scope]
  | .wingetStore => .ok <|
    ["winget".toList, "install".toList, "--id".toList, p.id, "--source".toList,
      "msstore".toList] ++ agreements
  | .choco => .ok ["choco".toList, "install".toList, p.id, "-y".toList, "--no-progress".toList]
  | .scoop => .ok ["scoop".toList, "install".toList, p.id]
  | .psModule => .ok (scriptCommand p.moduleScript)
  | .sideload => .ok (scriptCommand p.sideloadScript)
  | .unknown => .error ⟨p.name⟩

end Package

end SetupCatalog
