import SetupCatalog.Archive.Unpack
import SetupCatalog.Proofs.Disk.Writing

/-!
# Unpacking stays inside of its folder

An archive comes from anybody, and its members name the paths that they want to be unpacked to. Here
is why they cannot get out: whatever the bytes of an archive are, unpacking them changes the disk
only inside of the folder that they are unpacked into (`unpack_inside`).

Two things could lead out of the folder. A double dot could, but none is left in the path of a
member that is unpacked. A link could, but the folder is `Closed`: it is there, and it has no links
in it. Unpacking stores files and empty folders and nothing else, so the folder stays closed while
one member is unpacked after the other; that is what the induction over the members carries.
-/

namespace SetupCatalog

open Folder

/-- A file leads to no link. -/
theorem Node.at?_file_ne_link (content : List UInt8) (path : List Text) (target : Text) :
    (Node.file content).at? path ≠ some (.link target) := by
  cases path <;> exact nofun

/-- An empty folder leads to no link. -/
theorem Node.at?_empty_ne_link (path : List Text) (target : Text) :
    (Node.folder .empty).at? path ≠ some (.link target) := by
  rw [at?_folder]
  cases path with
  | nil => exact nofun
  | cons name names =>
    rw [at?_cons]
    exact nofun

namespace Folder

/-- A folder is the same as itself, whatever is left out. -/
theorem SameExcept.refl (l : Location) (f : Folder) : SameExcept l f f :=
  fun _ _ => rfl

/-- Being the same outside one place carries over. -/
theorem SameExcept.trans {l : Location} {f g k : Folder} (hfg : SameExcept l f g)
    (hgk : SameExcept l g k) : SameExcept l f k :=
  fun path hpath => (hfg path hpath).trans (hgk path hpath)

/-- What differs at most deep inside of a folder differs at most inside of it. -/
theorem SameExcept.of_front {l l' : Location} {f g : Folder} (h : SameExcept l f g)
    (hfront : l' <+: l) : SameExcept l' f g :=
  fun path hpath => h path fun hl => hpath (hfront.trans hl)

end Folder

namespace Disk

/-- The names of a location stand for themselves: none of them is a single or a double dot. -/
def IsPlain (l : Location) : Prop :=
  ∀ part ∈ l, part ≠ ['.'] ∧ part ≠ "..".toList

/-- A front of a plain path is plain. -/
theorem IsPlain.of_front {l l' : Location} (h : IsPlain l) (hfront : l' <+: l) : IsPlain l' :=
  fun part hpart => h part (hfront.subset hpart)

/-- A path of plain names that meets no link leads to the location that it spells. -/
theorem eq_of_locateFrom {top : Folder} {links : Nat} {here l : Location} {parts : List Text}
    (hplain : IsPlain parts)
    (hlink : ∀ way target, way <+: here ++ parts → top.at? way ≠ some (.link target))
    (h : locateFrom top links here parts = .ok l) : l = here ++ parts := by
  fun_induction locateFrom top links here parts with
  | case1 links here =>
    rw [List.append_nil]
    exact (Except.ok.inj h).symm
  -- a name that is a dot or two dots is not plain, and a link on the way is ruled out; so the walk
  -- only ever goes down
  | case2 | case5 | case6 | case9 => cases h
  | case3 => exact absurd rfl (hplain _ List.mem_cons_self).1
  | case4 => exact absurd rfl (hplain _ List.mem_cons_self).2
  | case7 here part parts inside hfolder _ _ _ target links hget =>
    refine absurd ?_ (hlink (here ++ [part]) target ⟨parts, by simp⟩)
    rw [at?_append_singleton hfolder]
    exact hget
  | case8 here part parts inside _ _ _ _ _ _ _ ih =>
    rw [ih (fun other hother => hplain other (List.mem_cons_of_mem part hother)) ?_ h]
    · simp
    · intro way target hway
      exact hlink way target (by simpa using hway)

/-- A folder is closed if it is there and if no link is in it, however deep. -/
structure Closed (base : Location) (top : Folder) : Prop where
  /-- The folder is there. -/
  folder : ∃ inside, top.at? base = some (.folder inside)
  /-- Nothing in it is a link. -/
  noLink : ∀ path, base <+: path → ∀ target, top.at? path ≠ some (.link target)

/-- A location lies on one line with a folder: it is inside of the folder, or the folder is inside
of it. -/
def OnLine (base l : Location) : Prop :=
  l <+: base ∨ base <+: l

/-- A front of a path on the line is on it. -/
theorem OnLine.of_front {base l l' : Location} (h : OnLine base l) (hfront : l' <+: l) :
    OnLine base l' := by
  rcases h with h | h
  · exact Or.inl (hfront.trans h)
  · exact List.prefix_or_prefix_of_prefix hfront h

variable {base : Location} {disk disk' : Disk} {path : Location}

/-- On the way to a closed folder and into it there are no links. -/
theorem Closed.not_link (h : Closed base disk.top) (hpath : OnLine base path) (target : Text) :
    disk.top.at? path ≠ some (.link target) := by
  rcases hpath with habove | hbelow
  · obtain ⟨inside, hinside⟩ := h.folder
    obtain ⟨around, haround⟩ := exists_folder_above hinside habove
    rw [haround]
    nofun
  · exact h.noLink path hbelow target

/-- So a path of plain names leads where it says. -/
theorem Closed.locate_eq (h : Closed base disk.top) (hplain : IsPlain path)
    (hpath : OnLine base path) {l : Location} (hl : disk.locate (.ofLocation path) = .ok l) :
    l = path := by
  rw [locate] at hl
  split at hl
  · cases hl
  · exact eq_of_locateFrom hplain
      (fun way target hway => h.not_link (hpath.of_front hway) target) hl

/-- A disk has changed inside of a folder alone, and the folder is closed. -/
structure ChangedInside (base : Location) (before after : Disk) : Prop where
  /-- Outside of the folder everything is as it was. -/
  same : SameExcept base before.top after.top
  /-- The folder is closed. -/
  closed : Closed base after.top

/-- No change is a change inside a closed folder. -/
theorem ChangedInside.refl (h : Closed base disk.top) : ChangedInside base disk disk :=
  ⟨.refl base disk.top, h⟩

/-- Changes inside a closed folder add up: the folder stays closed after each. -/
theorem ChangedInside.trans {disk'' : Disk} (h : ChangedInside base disk disk')
    (h' : ChangedInside base disk' disk'') : ChangedInside base disk disk'' :=
  ⟨h.same.trans h'.same, h'.closed⟩

/-- Storing something without links in a closed folder changes the disk inside of the folder. -/
theorem Closed.store (h : Closed base disk.top) {dir : Location} {inside : Folder} {name : Text}
    {node : Node} (hbase : base <+: dir) (hdir : disk.top.at? dir = some (.folder inside))
    (hnode : ∀ further target, node.at? further ≠ some (.link target)) :
    ChangedInside base disk (disk.store (dir ++ [name]) node) := by
  have hsame := sameExcept_store hdir name node
  have hbelow : base <+: dir ++ [name] := hbase.trans (List.prefix_append dir [name])
  have hfree : ¬ dir ++ [name] <+: base := by
    intro hfront
    have := (hfront.trans hbase).length_le
    rw [List.length_append, List.length_singleton] at this
    omega
  -- the folder itself is not below what is stored, so it is still there; a link inside would be in
  -- the node
  refine ⟨hsame.of_front hbelow, ⟨?_, fun path hpath target => ?_⟩⟩
  · rw [← Node.map_outside_eq_folder_iff, ← hsame base hfree, Node.map_outside_eq_folder_iff]
    exact h.folder
  · by_cases hfront : dir ++ [name] <+: path
    · obtain ⟨further, rfl⟩ := hfront
      rw [at?_append, at?_store_self hdir]
      exact hnode further target
    · rw [Ne, ← Node.map_outside_eq_some_iff (by simp), ← hsame path hfront,
        Node.map_outside_eq_some_iff (by simp)]
      exact h.noLink path hpath target

/-- Writing a file to a path inside of a closed folder changes nothing outside. -/
theorem Closed.write (h : Closed base disk.top) (hplain : IsPlain path) (hpath : base <+: path)
    {content : List UInt8} (hwrite : disk.write (.ofLocation path) content = .ok disk') :
    ChangedInside base disk disk' := by
  rw [Disk.write] at hwrite
  split at hwrite
  · cases hwrite
  · next l hl =>
    obtain rfl := h.locate_eq hplain (Or.inr hpath) hl
    split at hwrite
    · cases hwrite
    · next hnofolder =>
      rw [← Except.ok.inj hwrite]
      rw [locate] at hl
      split at hl
      · cases hl
      · -- no folder can be written, so the path is not the closed folder itself but inside of it
        rcases isFolder_or_isPlace_of_locateFrom hl fun _ => Or.inl ⟨disk.top, rfl⟩ with
          ⟨inside, hfolder⟩ | ⟨dir, name, inside, rfl, hdir, -⟩
        · exact absurd hfolder (hnofolder inside)
        · rcases List.prefix_concat_iff.mp hpath with rfl | hbase
          · obtain ⟨inner, hinner⟩ := h.folder
            exact absurd hinner (hnofolder inner)
          · exact h.store hbase hdir (Node.at?_file_ne_link content)

/-- Making a folder on the way to a closed folder or inside of it changes nothing outside: on the
way all folders are there already. -/
theorem Closed.makeFolder (h : Closed base disk.top) (hplain : IsPlain path)
    (hpath : OnLine base path) (hmake : disk.makeFolder (.ofLocation path) = .ok disk') :
    ChangedInside base disk disk' := by
  obtain ⟨dir, name, inside, hl, hname, hdir, hfree, rfl⟩ := exists_of_makeFolder hmake
  have habove : path.dropLast <+: path := List.dropLast_prefix path
  obtain rfl := h.locate_eq (hplain.of_front habove) (hpath.of_front habove) hl
  have hsplit : path.dropLast ++ [name] = path := by
    obtain ⟨front, rfl⟩ := List.getLast?_eq_some_iff.mp hname
    rw [List.dropLast_concat]
  have hnothing : disk.top.at? path = none := by
    rw [← hsplit, at?_append_singleton hdir, hfree]
  -- nothing was at the path, so it is not on the way to the closed folder
  rcases hpath with hpath | hpath
  · obtain ⟨inner, hinner⟩ := h.folder
    obtain ⟨around, haround⟩ := exists_folder_above hinner hpath
    rw [hnothing] at haround
    cases haround
  · rw [← hsplit] at hpath
    rcases List.prefix_concat_iff.mp hpath with hbase | hbase
    · obtain ⟨inner, hinner⟩ := h.folder
      rw [hbase, hsplit, hnothing] at hinner
      cases hinner
    · exact h.store hbase hdir Node.at?_empty_ne_link

end Disk

namespace Archive

open Disk

variable {base : Location} {disk disk' : Disk}

/-- Making the folders that are missing on a path changes nothing outside of a closed folder. -/
theorem changedInside_makeMissing {parts : List Text} (h : Closed base disk.top)
    (hplain : IsPlain parts.reverse) (hpath : OnLine base parts.reverse)
    (hmake : makeMissing disk parts = .ok disk') : ChangedInside base disk disk' := by
  induction parts generalizing disk' with
  | nil =>
    obtain rfl := Except.ok.inj hmake
    exact .refl h
  | cons part parts ih =>
    have habove : parts.reverse <+: (part :: parts).reverse := by
      rw [List.reverse_cons]
      exact List.prefix_append _ _
    rw [makeMissing] at hmake
    obtain ⟨around, haround, hlast⟩ := exists_of_ite_bind hmake
    have hinside : ChangedInside base disk around := by
      split at haround
      · obtain rfl := Except.ok.inj haround
        exact .refl h
      · exact ih (hplain.of_front habove) (hpath.of_front habove) haround
    exact hinside.trans (hinside.closed.makeFolder hplain hpath hlast)

/-- The path that a member is unpacked to has plain names, below the folder. -/
theorem exists_target (base : Location) (m : Member) :
    ∃ below, m.target base = .ofLocation (base ++ below) ∧ IsPlain below := by
  refine ⟨_, rfl, fun part hpart => ?_⟩
  rw [WrittenPath.partsOf, List.filter_filter, List.mem_filter] at hpart
  obtain ⟨-, hpart⟩ := hpart
  simp only [Bool.and_eq_true, bne_iff_ne] at hpart
  exact ⟨hpart.2.2, hpart.1⟩

/-- Unpacking one member changes nothing outside of a closed folder. -/
theorem changedInside_unpackMember {m : Member} (h : Closed base disk.top) (hbase : IsPlain base)
    (hunpack : unpackMember base disk m = .ok disk') : ChangedInside base disk disk' := by
  obtain ⟨below, htarget, hbelow⟩ := exists_target base m
  have hplain : IsPlain (base ++ below) := by
    intro part hpart
    rcases List.mem_append.mp hpart with hpart | hpart
    · exact hbase part hpart
    · exact hbelow part hpart
  have hpath : base <+: base ++ below := List.prefix_append base below
  have habove : (base ++ below).dropLast <+: base ++ below := List.dropLast_prefix _
  rw [unpackMember, htarget] at hunpack
  obtain ⟨around, haround, hmember⟩ := exists_of_ite_bind hunpack
  have hfolders : ChangedInside base disk around := by
    split at haround
    · obtain rfl := Except.ok.inj haround
      exact .refl h
    · refine changedInside_makeMissing h ?_ ?_ (mapError_eq_ok_iff.mp haround)
      · rw [List.reverse_reverse]
        exact hplain.of_front habove
      · rw [List.reverse_reverse]
        exact OnLine.of_front (Or.inr hpath) habove
  refine hfolders.trans ?_
  split at hmember
  · cases hmember
  · dsimp only at hmember
    split at hmember
    · obtain rfl := Except.ok.inj hmember
      exact .refl hfolders.closed
    · exact hfolders.closed.makeFolder hplain (Or.inr hpath) (mapError_eq_ok_iff.mp hmember)
  · -- the file is there, without content, before its content is read
    obtain ⟨content, -, hmember⟩ := exists_of_bind hmember
    obtain ⟨created, hcreated, hmember⟩ := exists_of_bind hmember
    obtain ⟨bytes, -, hfilled⟩ := exists_of_bind hmember
    have hempty := hfolders.closed.write hplain hpath (mapError_eq_ok_iff.mp hcreated)
    exact hempty.trans (hempty.closed.write hplain hpath (mapError_eq_ok_iff.mp hfilled))

/-- Nor does unpacking members one after the other. -/
theorem changedInside_foldlM {members : List Member} (h : Closed base disk.top)
    (hbase : IsPlain base) (hunpack : members.foldlM (unpackMember base) disk = .ok disk') :
    ChangedInside base disk disk' := by
  induction members generalizing disk with
  | nil =>
    obtain rfl := Except.ok.inj hunpack
    exact .refl h
  | cons m members ih =>
    rw [List.foldlM_cons] at hunpack
    obtain ⟨around, hfirst, hothers⟩ := exists_of_bind hunpack
    have hinside := changedInside_unpackMember h hbase hfirst
    exact hinside.trans (ih hinside.closed hothers)

/-- **Unpacking an archive stays inside of its folder.** Whatever the bytes are, if they can be
unpacked below a closed folder, everything outside of the folder is as it was, and the folder is
still closed. All members had paths that are relative and do not lead upwards. -/
theorem unpack_inside {bytes : List UInt8} (h : Closed base disk.top) (hbase : IsPlain base)
    (hunpack : unpack base disk bytes = .ok disk') :
    SameExcept base disk.top disk'.top ∧ Closed base disk'.top ∧
      ∃ members, membersOf bytes = .ok members ∧ ∀ m ∈ members, m.isSafe = true := by
  rw [unpack] at hunpack
  obtain ⟨members, hmembers, hunpack⟩ := exists_of_bind hunpack
  split at hunpack
  · cases hunpack
  · next hsafe =>
    have hinside := changedInside_foldlM h hbase hunpack
    refine ⟨hinside.same, hinside.closed, members, hmembers, fun m hm => ?_⟩
    simpa using List.find?_eq_none.mp hsafe m hm

end Archive

end SetupCatalog
