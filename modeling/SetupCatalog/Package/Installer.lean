import SetupCatalog.Text.Display

/-!
# Installers and statuses

The closed lists of what can install a package and of how an installation can stand. Both have a
name in reports, and both are read back from it.
-/

namespace SetupCatalog

/-- What installs a package. -/
inductive Installer where
  | winget
  | wingetStore
  | choco
  | scoop
  | psModule
  | sideload
  | unknown
  deriving DecidableEq, Repr

namespace Installer

/-- Every installer, in the order of reports. -/
def all : List Installer :=
  [winget, wingetStore, choco, scoop, psModule, sideload, unknown]

/-- The name of an installer in reports. -/
def name : Installer → Text
  | winget => "winget".toList
  | wingetStore => "winget-store".toList
  | choco => "choco".toList
  | scoop => "scoop".toList
  | psModule => "ps-module".toList
  | sideload => "sideload".toList
  | unknown => "unknown".toList

theorem mem_all (i : Installer) : i ∈ all := by
  cases i <;> decide

/-- Different installers have different names. -/
theorem name_injective {i j : Installer} (h : i.name = j.name) : i = j := by
  cases i <;> cases j <;> first | rfl | exact absurd h (by decide)

end Installer

/-- How the installation of a package stands. -/
inductive Status where
  | pending
  | passed
  | failed
  | untested
  deriving DecidableEq, Repr

namespace Status

/-- Every status, in the order of reports. -/
def all : List Status :=
  [pending, passed, failed, untested]

/-- The name of a status in reports. -/
def name : Status → Text
  | pending => "pending".toList
  | passed => "passed".toList
  | failed => "failed".toList
  | untested => "untested".toList

theorem mem_all (s : Status) : s ∈ all := by
  cases s <;> decide

end Status

/-- The two closed lists that a name can be looked up in. -/
inductive NameKind where
  | installer
  | status
  deriving DecidableEq, Repr

/-- The name `value` is on no list of the given kind. -/
structure UnknownName where
  /-- The list that was looked in. -/
  kind : NameKind
  /-- The name that it does not have. -/
  value : Text

/-- The wording of an unknown name. -/
def UnknownName.message (e : UnknownName) : Text :=
  Text.display e.value ++ " is not a valid ".toList ++
    match e.kind with
    | .installer => "InstallerType".toList
    | .status => "InstallStatus".toList

/-- The installer with the given name. -/
def Installer.ofName (value : Text) : Except UnknownName Installer :=
  match Installer.all.find? fun i => i.name == value with
  | some i => .ok i
  | none => .error ⟨.installer, value⟩

/-- The status with the given name. -/
def Status.ofName (value : Text) : Except UnknownName Status :=
  match Status.all.find? fun s => s.name == value with
  | some s => .ok s
  | none => .error ⟨.status, value⟩

theorem Installer.ofName_name (i : Installer) : Installer.ofName i.name = .ok i := by
  cases i <;> rfl

theorem Status.ofName_name (s : Status) : Status.ofName s.name = .ok s := by
  cases s <;> rfl

end SetupCatalog
