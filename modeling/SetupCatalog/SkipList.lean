import SetupCatalog.Package.Basic

/-!
# The skip list

Some packages cannot be installed on a build machine. A skip list gives the reason for each of them;
a package that it lists is reported as untested instead of pending. Chocolatey packages are listed
by name and all others by identity.
-/

namespace SetupCatalog

/-- Names and identities of packages with the reason why each is not installed. -/
abbrev SkipList := List (Text × Text)

namespace SkipList

/-- The packages that are known not to install on a build machine. -/
def standard : SkipList :=
  [("Docker.DockerDesktop", "Requires Hyper-V/WSL2 virtualization"),
    ("Microsoft.WSL", "Requires a reboot to enable Windows features"),
    ("Canonical.Ubuntu.2204", "Requires WSL to be enabled"),
    ("docker-desktop", "Requires Hyper-V/WSL2 virtualization"),
    ("wsl2", "Requires a reboot to enable Windows features"),
    ("Nvidia.GeForceExperience", "Requires NVIDIA hardware"),
    ("nvidia-display-driver", "Requires NVIDIA hardware"),
    ("Logitech.GHUB", "Requires attached Logitech devices"),
    ("Microsoft.VisualStudio.2022.Enterprise", "Licensed; installer exceeds CI timeout"),
    ("Microsoft.Office", "Requires an activated license"),
    ("9NBLGGH4NNS1", "Microsoft Store requires a signed-in account")].map
    fun (key, reason) => (key.toList, reason.toList)

/-- What a package is listed under. -/
def keyOf (p : Package) : Text :=
  if p.installer = .choco then p.name else p.id

/-- Why a package is not installed, if it is listed. -/
def reason? (list : SkipList) (p : Package) : Option Text :=
  list.lookup (keyOf p)

/-- How a package stands before anything is installed. -/
def outcome (list : SkipList) (p : Package) : Outcome :=
  match list.reason? p with
  | some reason => { package := p, status := .untested, note := reason }
  | none => { package := p }

/-- How packages stand before anything is installed, in their order. -/
def outcomes (list : SkipList) (packages : List Package) : List Outcome :=
  packages.map list.outcome

end SkipList

end SetupCatalog
