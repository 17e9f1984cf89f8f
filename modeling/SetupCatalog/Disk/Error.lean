import SetupCatalog.Disk.Path
import SetupCatalog.Text.Display

/-!
# What can go wrong on a disk

The causes have the numbers and the wording of the system interface.
-/

namespace SetupCatalog

/-- Why an operation on a disk fails. -/
inductive DiskFault where
  | notFound
  | exists
  | notFolder
  | isFolder
  | nameTooLong
  | linkLoop
  deriving DecidableEq, Repr

namespace DiskFault

/-- The number of a fault. -/
def number : DiskFault → Nat
  | notFound => 2
  | .exists => 17
  | notFolder => 20
  | isFolder => 21
  | nameTooLong => 36
  | linkLoop => 40

/-- The wording of a fault. -/
def wording : DiskFault → Text
  | notFound => "No such file or directory".toList
  | .exists => "File exists".toList
  | notFolder => "Not a directory".toList
  | isFolder => "Is a directory".toList
  | nameTooLong => "File name too long".toList
  | linkLoop => "Too many levels of symbolic links".toList

end DiskFault

/-- Why a file cannot be read. A disk that is a value permits everything, other files may not. -/
inductive FileFault where
  | notPermitted
  | disk (fault : DiskFault)
  deriving DecidableEq, Repr

/-- A fault and the path at which it occurred. -/
structure DiskError where
  /-- What went wrong. -/
  fault : DiskFault
  /-- Where it went wrong, as it was written. -/
  path : WrittenPath
  deriving DecidableEq, Repr

/-- The wording of an error. -/
def DiskError.message (e : DiskError) : Text :=
  "[Errno ".toList ++ Text.ofNat e.fault.number ++ "] ".toList ++ e.fault.wording ++
    ": ".toList ++ Text.display e.path.text

end SetupCatalog
