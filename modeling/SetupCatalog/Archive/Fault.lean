import SetupCatalog.Archive.Inflate
import SetupCatalog.Disk.Error
import SetupCatalog.Text.Utf8Fault

/-!
# What can be wrong with an archive

Some faults are those of a bad request: the bytes are no archive, or a member is named or placed
where it cannot be. The others show only while members are being unpacked.
-/

namespace SetupCatalog.Archive

/-- Why an archive cannot be unpacked. -/
inductive Fault where
  /-- The bytes are no archive, or contradict themselves. -/
  | corrupted
  /-- A member would be unpacked outside of the folder. -/
  | unsafePath (name : Text)
  /-- A name is marked as Unicode and is not. -/
  | undecodableName (e : Text.Utf8.Fault)
  /-- A member lies so many bytes before the start. -/
  | beforeStart (distance : Nat)
  /-- A member lies at a position with too many digits. -/
  | tooFar
  /-- A member has no name. -/
  | nameless
  /-- A member needs a version of the format that is too new; the number has one decimal place. -/
  | version (tenths : Nat)
  | patchedData
  | strongEncryption
  /-- A member is encrypted; the text describes it. -/
  | encrypted (description : Text)
  | unknownMethod
  | packedContent (e : InflateFault)
  /-- The archive ends within the content of a member. -/
  | endOfBytes
  | disk (e : DiskError)
  deriving DecidableEq, Repr

namespace Fault

/-- Whether a fault is one of a bad request. -/
def isBadRequest : Fault → Bool
  | corrupted | unsafePath _ | undecodableName _ | beforeStart _ => true
  | _ => false

/-- The wording of a fault. -/
def message : Fault → Text
  | corrupted => "Invalid or corrupted zip file".toList
  | unsafePath name => "Invalid path in zip: ".toList ++ name
  | undecodableName e => e.message
  | beforeStart distance => "negative seek value -".toList ++ Text.ofNat distance
  | tooFar => "Python int too large to convert to C ssize_t".toList
  | nameless => "string index out of range".toList
  | version tenths =>
    "zip file version ".toList ++ Text.ofNat (tenths / 10) ++ '.' :: Text.ofNat (tenths % 10)
  | patchedData => "compressed patched data (flag bit 5)".toList
  | strongEncryption => "strong encryption (flag bit 6)".toList
  | encrypted description =>
    "File ".toList ++ description ++ " is encrypted, password required for extraction".toList
  | unknownMethod => "That compression method is not supported".toList
  | packedContent e => "Error -3 while decompressing data: ".toList ++ e.wording
  | endOfBytes => []
  | disk e => e.message

end Fault

end SetupCatalog.Archive
