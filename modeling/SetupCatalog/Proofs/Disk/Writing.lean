import SetupCatalog.Proofs.Disk.Store
import SetupCatalog.Proofs.Failure

/-!
# Writing a file

A file is written after the folders around it have been made. Making folders takes nothing away and
adds no file, and writing stores one file where the path leads to; so the disk after that is the one
before but for this file (`Writes`), and the path leads to it.
-/

namespace SetupCatalog

open Folder

namespace Folder

/-- Two trees have the same files. -/
def SameFiles (f g : Folder) : Prop :=
  ∀ l content, f.at? l = some (.file content) ↔ g.at? l = some (.file content)

/-- A folder has its own files. -/
theorem SameFiles.refl (f : Folder) : SameFiles f f :=
  fun _ _ => Iff.rfl

/-- Having the same files carries over. -/
theorem SameFiles.trans {f g k : Folder} (hfg : SameFiles f g) (hgk : SameFiles g k) :
    SameFiles f k :=
  fun l content => (hfg l content).trans (hgk l content)

end Folder

namespace Disk

variable {disk disk' : Disk} {p : WrittenPath}

/-! ## Making folders -/

/-- A folder that is made is an empty one where nothing was, in the folder that the path without its
last part leads to. -/
theorem exists_of_makeFolder (h : disk.makeFolder p = .ok disk') :
    ∃ dir name inside, disk.locate p.parent = .ok dir ∧ p.parts.getLast? = some name ∧
      disk.top.at? dir = some (.folder inside) ∧ inside.get? name = none ∧
      disk' = disk.store (dir ++ [name]) (.folder .empty) := by
  rw [makeFolder] at h
  -- only one way through the checks leads to a new folder: the place is in a folder and free
  split at h
  · cases h
  · split at h
    · cases h
    · next l hl =>
      split at h
      · next inside name hfolder hname =>
        split at h
        · cases h
        · next hfree =>
          split at h
          · cases h
          · rw [Bool.or_eq_true, not_or, Option.not_isSome_iff_eq_none] at hfree
            exact ⟨l, name, inside, hl, hname, hfolder, hfree.2, (Except.ok.inj h).symm⟩
      · cases h
      · cases h
      · cases h

/-- A new folder brings no file. -/
theorem sameFiles_makeFolder (h : disk.makeFolder p = .ok disk') :
    SameFiles disk.top disk'.top := by
  obtain ⟨dir, name, inside, -, -, hfolder, hnone, rfl⟩ := exists_of_makeFolder h
  intro l content
  by_cases hprefix : dir ++ [name] <+: l
  · -- there is no file at the new folder or below it, neither before nor after
    obtain ⟨further, rfl⟩ := hprefix
    rw [at?_append _ (dir ++ [name]), at?_append_singleton hfolder, hnone,
      at?_append _ (dir ++ [name]), at?_store_self hfolder, Option.bind_some, Node.at?_folder]
    cases further <;> simp [at?, at?_cons, get?]
  · rw [← Node.map_outside_eq_some_iff (by simp), sameExcept_store hfolder name _ l hprefix,
      Node.map_outside_eq_some_iff (by simp)]

/-- A folder that is there afterwards was there before or has been made. -/
theorem makeFolder_or_isFolder_of_ensureFolder (h : disk.ensureFolder p = .ok disk') :
    disk.makeFolder p = .ok disk' ∨ disk' = disk ∧ disk.isFolder p = true := by
  rw [ensureFolder] at h
  split at h
  · next made _ hmake => exact Or.inl (hmake.trans h)
  · cases h
  · cases h
  · split at h
    · next hfolder => exact Or.inr ⟨(Except.ok.inj h).symm, hfolder⟩
    · cases h

/-- Making sure of a folder brings no file. -/
theorem sameFiles_ensureFolder (h : disk.ensureFolder p = .ok disk') :
    SameFiles disk.top disk'.top := by
  rcases makeFolder_or_isFolder_of_ensureFolder h with hmake | ⟨rfl, -⟩
  · exact sameFiles_makeFolder hmake
  · exact .refl _

/-- The disk that is left, whether an operation was stopped or not. -/
def left : Except Stopped Disk → Disk
  | .ok disk => disk
  | .error stopped => stopped.disk

/-- A step that fails leaves the disk before it, and so its files. -/
theorem sameFiles_orStopped {r : Except DiskError Disk}
    (h : ∀ disk', r = .ok disk' → SameFiles disk.top disk'.top) :
    SameFiles disk.top (left (disk.orStopped r)).top := by
  cases r with
  | ok disk' => exact h disk' rfl
  | error e => exact .refl _

/-- Making all the folders of a path brings no file, also where it stops half-way. -/
theorem sameFiles_makeFoldersFrom (disk : Disk) (absolute : Bool) (parts : List Text) :
    SameFiles disk.top (left (disk.makeFoldersFrom absolute parts)).top := by
  induction parts with
  | nil => exact sameFiles_orStopped fun _ => sameFiles_ensureFolder
  | cons part parts ih =>
    rw [makeFoldersFrom]
    split
    · -- the folders around come first, and what is left of them is left in any case
      cases haround : disk.makeFoldersFrom absolute parts with
      | error stopped =>
        rw [haround] at ih
        exact ih
      | ok around =>
        rw [haround] at ih
        exact ih.trans (sameFiles_orStopped fun _ => sameFiles_ensureFolder)
    · exact sameFiles_orStopped fun _ => sameFiles_ensureFolder

/-- Making folders leaves every file as it is, also if not all of them can be made. -/
theorem sameFiles_tryFolders (disk : Disk) (p : WrittenPath) :
    SameFiles disk.top (left (disk.tryFolders p)).top :=
  sameFiles_makeFoldersFrom disk p.absolute p.parts.reverse

/-- A path without parts leads to where paths start, and there is a folder if folders can be made.
-/
theorem exists_folder_of_tryFolders (hparts : p.parts = [])
    (h : disk.tryFolders p = .ok disk') :
    ∃ inside, disk'.top.at? (disk'.origin p) = some (.folder inside) := by
  rw [tryFolders, hparts] at h
  rcases makeFolder_or_isFolder_of_ensureFolder (mapError_eq_ok_iff.mp h) with
    hmake | ⟨rfl, hfolder⟩
  · obtain ⟨dir, name, inside, -, hname, -⟩ := exists_of_makeFolder hmake
    cases hname
  · rw [isFolder, Option.isSome_iff_exists] at hfolder
    obtain ⟨inside, hinside⟩ := hfolder
    obtain ⟨l, hl, hat⟩ := exists_location_of_folder? hinside
    rw [locate] at hl
    split at hl
    · cases hl
    · obtain rfl := Except.ok.inj (hl.symm.trans (locateFrom.eq_1 ..))
      exact ⟨inside, hat⟩

/-! ## Writing -/

/-- A disk is another one with a file written to a path: the path leads to the file, and every other
file is there exactly if it was before, with the same content. -/
def Writes (before : Disk) (p : WrittenPath) (content : List UInt8) (after : Disk) : Prop :=
  ∃ l, after.locate p = .ok l ∧ after.top.at? l = some (.file content) ∧
    ∀ other ≠ l, ∀ found,
      after.top.at? other = some (.file found) ↔ before.top.at? other = some (.file found)

/-- What has been written is read back. -/
theorem Writes.read {content : List UInt8} (h : disk.Writes p content disk') :
    disk'.read p = .ok content := by
  obtain ⟨l, hl, hat, -⟩ := h
  simp only [Disk.read, hl, bind, Except.bind, hat]
  rfl

/-- Writing a file changes no other file. -/
theorem writes_of_write {content : List UInt8} (h : disk.write p content = .ok disk')
    (horigin : p.parts = [] → ∃ inside, disk.top.at? (disk.origin p) = some (.folder inside)) :
    disk.Writes p content disk' := by
  rw [write] at h
  split at h
  · cases h
  · next l hl =>
    split at h
    · cases h
    · next hnofolder =>
      obtain rfl := Except.ok.inj h
      have hlocate := hl
      rw [locate] at hlocate
      split at hlocate
      · cases hlocate
      · next hshort =>
        rcases isFolder_or_isPlace_of_locateFrom hlocate fun hparts => Or.inl (horigin hparts) with
          ⟨inside, hfolder⟩ | ⟨dir, name, inside, rfl, hdir, hnolink⟩
        · exact absurd hfolder (hnofolder inside)
        · have hat : (disk.store (dir ++ [name]) (.file content)).top.at? (dir ++ [name]) =
              some (.file content) := at?_store_self hdir _
          have hsame := sameExcept_store hdir name (.file content)
          refine ⟨dir ++ [name], ?_, hat, fun other hother found => ?_⟩
          · rw [locate, if_neg hshort, origin_store]
            exact locateFrom_of_sameExcept hsame hnofolder hnolink hat hlocate
          · by_cases hprefix : dir ++ [name] <+: other
            · -- nothing is below a file, and nothing was below what is no folder
              obtain ⟨further, rfl⟩ := hprefix
              have hfurther : further ≠ [] := fun hnil => hother (by rw [hnil, List.append_nil])
              rw [at?_append_of_not_folder hnofolder hfurther,
                at?_append_of_not_folder (fun inside heq => by rw [hat] at heq; cases heq) hfurther]
            · rw [← Node.map_outside_eq_some_iff (by simp), ← hsame other hprefix,
                Node.map_outside_eq_some_iff (by simp)]

/-- The report is written to the file that the path leads to, and nothing happens to other files. -/
theorem writes_of_tryFolders {around : Disk} {content : List UInt8}
    (hmake : disk.tryFolders p.parent = .ok around) (hwrite : around.write p content = .ok disk') :
    disk.Writes p content disk' := by
  have hfiles := sameFiles_tryFolders disk p.parent
  rw [hmake] at hfiles
  have horigin : p.parts = [] →
      ∃ inside, around.top.at? (around.origin p) = some (.folder inside) := by
    intro hparts
    have hparent : p.parent.parts = [] := by rw [WrittenPath.parent, hparts]; rfl
    exact exists_folder_of_tryFolders (p := p.parent) hparent hmake
  obtain ⟨l, hl, hat, hothers⟩ := writes_of_write hwrite horigin
  exact ⟨l, hl, hat, fun other hother found => (hothers other hother found).trans (hfiles _ _).symm⟩

end Disk

end SetupCatalog
