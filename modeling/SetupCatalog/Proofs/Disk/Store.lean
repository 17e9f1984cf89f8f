import SetupCatalog.Disk.Basic
import SetupCatalog.Proofs.Disk.Tree

/-!
# What storing changes

Storing an entry changes what a path leads to only at the location of the entry and below it: the
trees before and after are the `SameExcept` there. So whatever does not look at that location finds
the same as before. Following a path is of this kind: a path that leads to a place where no folder
is leads to the same place once a file is stored there (`locateFrom_of_sameExcept`).

A location that a path leads to is a folder, or it is a `Place`: the folder around it is there, so
that something can be stored, and no link is in the way.
-/

namespace SetupCatalog

namespace Folder

/-- A path leads on from the entry that its first part leads to. -/
theorem at?_append (f : Folder) (path further : List Text) :
    f.at? (path ++ further) = (f.at? path).bind (Node.at? further) := by
  induction path generalizing f with
  | nil => exact (Node.at?_folder f further).symm
  | cons name path ih =>
    rw [List.cons_append, at?_cons, at?_cons, Option.bind_assoc]
    refine Option.bind_congr fun node _ => ?_
    cases node with
    | folder inside => rw [Node.at?_folder, Node.at?_folder, ih]
    | file content | link target => cases path <;> rfl

/-- The last name of a path is looked up in the folder that the others lead to. -/
theorem at?_append_singleton {f inside : Folder} {dir : List Text}
    (h : f.at? dir = some (.folder inside)) (name : Text) :
    f.at? (dir ++ [name]) = inside.get? name := by
  rw [at?_append, h, Option.bind_some, Node.at?_folder, at?_cons]
  cases inside.get? name <;> rfl

/-- The folders that a folder lies in are folders. -/
theorem exists_folder_above {f inside : Folder} {path dir : List Text}
    (h : f.at? path = some (.folder inside)) (hdir : dir <+: path) :
    ∃ around, f.at? dir = some (.folder around) := by
  obtain ⟨further, rfl⟩ := hdir
  rw [at?_append, Option.bind_eq_some_iff] at h
  obtain ⟨node, hnode, h⟩ := h
  cases node with
  | folder around => exact ⟨around, hnode⟩
  | file content | link target => cases further <;> cases h

/-- A path leads no further from what is no folder. -/
theorem at?_append_of_not_folder {f : Folder} {path further : List Text}
    (h : ∀ inside, f.at? path ≠ some (.folder inside)) (hfurther : further ≠ []) :
    f.at? (path ++ further) = none := by
  rw [at?_append, Option.bind_eq_none_iff]
  intro node hnode
  rw [Option.eq_none_iff_forall_ne_some]
  intro found hfound
  rw [Node.at?_eq_some_iff_of_not_folder fun inside heq => h inside (heq ▸ hnode)] at hfound
  exact hfurther hfound.1

/-- Two trees differ at most in what is at a location and below it. -/
def SameExcept (l : Location) (f g : Folder) : Prop :=
  ∀ path, ¬ l <+: path → (f.at? path).map Node.outside = (g.at? path).map Node.outside

/-- A change of the folder at a path shows behind the path. -/
theorem at?_change {f inside : Folder} {dir : List Text} (h : f.at? dir = some (.folder inside))
    (edit : Folder → Folder) (further : List Text) :
    (f.change edit dir).at? (dir ++ further) = (edit inside).at? further := by
  induction dir generalizing f with
  | nil =>
    obtain rfl : f = inside := Node.folder.inj (Option.some.inj h)
    rfl
  | cons name dir ih =>
    rw [at?_cons, Option.bind_eq_some_iff] at h
    obtain ⟨node, hnode, h⟩ := h
    cases node with
    | folder around =>
      rw [Node.at?_folder] at h
      simp only [change, hnode]
      rw [List.cons_append, at?_cons, get?_put_self, Option.bind_some, Node.at?_folder, ih h]
    | file content | link target => cases dir <;> cases h

/-- What is put into a folder shows nowhere else. -/
theorem sameExcept_change {f inside : Folder} {dir : List Text}
    (h : f.at? dir = some (.folder inside)) (name : Text) (node : Node) :
    SameExcept (dir ++ [name]) f (f.change (put name node) dir) := by
  -- on the way down each folder is put back under its own name, so only the last one changes
  induction dir generalizing f with
  | nil =>
    intro path hpath
    cases path with
    | nil => rfl
    | cons first further =>
      have hne : name ≠ first := fun heq => hpath ⟨further, by rw [heq]; rfl⟩
      rw [change, at?_cons, at?_cons, get?_put_of_ne hne]
  | cons outer dir ih =>
    rw [at?_cons, Option.bind_eq_some_iff] at h
    obtain ⟨entry, hentry, h⟩ := h
    cases entry with
    | folder around =>
      rw [Node.at?_folder] at h
      intro path hpath
      simp only [change, hentry]
      cases path with
      | nil => rfl
      | cons first further =>
        rw [at?_cons, at?_cons]
        by_cases hfirst : outer = first
        · subst hfirst
          have hfurther : ¬ dir ++ [name] <+: further := fun hprefix =>
            hpath ((List.prefix_cons_inj outer).mpr hprefix)
          rw [get?_put_self, hentry, Option.bind_some, Option.bind_some, Node.at?_folder,
            Node.at?_folder]
          exact ih h further hfurther
        · rw [get?_put_of_ne hfirst]
    | file content | link target => cases dir <;> cases h

end Folder

namespace Disk

open Folder

variable {disk : Disk} {inside : Folder} {dir : Location} {name : Text}

/-! ## Storing -/

/-- Storing a name is putting it in the folder above. -/
theorem store_append_singleton (disk : Disk) (dir : Location) (name : Text) (node : Node) :
    disk.store (dir ++ [name]) node =
      { disk with top := disk.top.change (Folder.put name node) dir } := by
  simp only [store, List.getLast?_append, List.getLast?_singleton, Option.some_or,
    List.dropLast_concat]

/-- Storing does not move where a path starts. -/
theorem origin_store (disk : Disk) (l : Location) (node : Node) (p : WrittenPath) :
    (disk.store l node).origin p = disk.origin p := by
  rw [store]
  split <;> rfl

/-- What has been stored is found. -/
theorem at?_store_self (h : disk.top.at? dir = some (.folder inside)) (node : Node) :
    (disk.store (dir ++ [name]) node).top.at? (dir ++ [name]) = some node := by
  rw [store_append_singleton, at?_change h, at?_cons, get?_put_self]
  rfl

/-- Storing a name changes nothing outside that name. -/
theorem sameExcept_store (h : disk.top.at? dir = some (.folder inside)) (name : Text)
    (node : Node) :
    SameExcept (dir ++ [name]) disk.top (disk.store (dir ++ [name]) node).top := by
  rw [store_append_singleton]
  exact sameExcept_change h name node

/-! ## Places -/

/-- A location where something can be stored: the folder around it is there, and no link is in the
way. -/
def IsPlace (top : Folder) (l : Location) : Prop :=
  ∃ dir name inside, l = dir ++ [name] ∧ top.at? dir = some (.folder inside) ∧
    ∀ target, top.at? l ≠ some (.link target)

/-- A path that leads to a folder leads to its location. -/
theorem exists_location_of_folder? {p : WrittenPath} (h : disk.folder? p = some inside) :
    ∃ l, disk.locate p = .ok l ∧ disk.top.at? l = some (.folder inside) := by
  rw [folder?] at h
  split at h
  · next inner hnode =>
    obtain rfl := Option.some.inj h
    rw [node?] at hnode
    split at hnode
    · next l hl => exact ⟨l, hl, hnode⟩
    · cases hnode
  · cases h

/-- A path that has parts leads to a folder or to a place. -/
theorem isFolder_or_isPlace_of_locateFrom {top : Folder} {links : Nat} {here l : Location}
    {parts : List Text} (h : locateFrom top links here parts = .ok l)
    (hhere : parts = [] →
      (∃ inside, top.at? here = some (.folder inside)) ∨ IsPlace top here) :
    (∃ inside, top.at? l = some (.folder inside)) ∨ IsPlace top l := by
  -- every step leads to a folder, but for a last name that is not a link
  fun_induction locateFrom top links here parts with
  | case1 links here =>
    obtain rfl := Except.ok.inj h
    exact hhere rfl
  | case2 | case5 | case6 | case9 => cases h
  | case3 links here parts inside hfolder ih => exact ih h fun _ => Or.inl ⟨inside, hfolder⟩
  | case4 links here parts inside hfolder _ ih =>
    exact ih h fun _ => Or.inl (exists_folder_above hfolder (List.dropLast_prefix here))
  | case7 here part parts inside hfolder _ _ _ target links _ start ih =>
    refine ih h fun _ => Or.inl ?_
    by_cases habsolute : (WrittenPath.ofText target).absolute = true
    · exact ⟨top, by simp only [start, dif_pos habsolute]; rfl⟩
    · exact ⟨inside, by simp only [start, dif_neg habsolute]; exact hfolder⟩
  | case8 here part parts inside hfolder _ _ _ links hzero hsucc ih =>
    refine ih h fun _ => Or.inr ⟨here, part, inside, rfl, hfolder, fun target htarget => ?_⟩
    rw [at?_append_singleton hfolder] at htarget
    cases links with
    | zero => exact hzero target htarget rfl
    | succ links => exact hsucc target links htarget rfl

/-- A name that stands for no link is followed into the folder. -/
theorem locateFrom_name {top : Folder} {links : Nat} {here : Location} {part : Text}
    {parts : List Text} (hfolder : top.at? here = some (.folder inside)) (hdot : part ≠ ['.'])
    (hdots : part ≠ "..".toList) (hshort : ¬ isTooLong part = true)
    (hlink : ∀ target, inside.get? part ≠ some (.link target)) :
    locateFrom top links here (part :: parts) = locateFrom top links (here ++ [part]) parts := by
  rw [locateFrom, hfolder]
  simp only [if_neg hdot, if_neg hdots, if_neg hshort]
  cases hget : inside.get? part with
  | none => rfl
  | some node =>
    cases node with
    | link target => exact absurd hget (hlink target)
    | file content | folder inner => rfl

/-- A single name leads to its place at the top, unless it is that of a link. -/
theorem locate_name {disk : Disk} {absolute : Bool} {name : Text}
    (horigin : disk.origin ⟨absolute, [name]⟩ = [])
    (hpath : isPathTooLong ⟨absolute, [name]⟩ = false) (hdot : name ≠ ['.'])
    (hdots : name ≠ "..".toList) (hshort : isTooLong name = false)
    (hlink : ∀ target, disk.top.get? name ≠ some (.link target)) :
    disk.locate ⟨absolute, [name]⟩ = .ok [name] := by
  rw [locate, if_neg (by rw [hpath]; decide), horigin,
    locateFrom_name rfl hdot hdots (by rw [hshort]; decide) hlink, locateFrom]
  rfl

/-- Trees that differ at one place have the same links elsewhere. -/
theorem get?_link_iff_of_sameExcept {top top' inside inside' : Folder} {l here : Location}
    {part : Text} (hsame : SameExcept l top top') (hfolder : top.at? here = some (.folder inside))
    (hfolder' : top'.at? here = some (.folder inside')) (hother : ¬ l <+: here ++ [part])
    (target : Text) :
    inside'.get? part = some (.link target) ↔ inside.get? part = some (.link target) := by
  rw [← at?_append_singleton hfolder', ← at?_append_singleton hfolder,
    ← Node.map_outside_eq_some_iff (by simp), ← hsame _ hother,
    Node.map_outside_eq_some_iff (by simp)]

/-- A path that leads to a place where no folder is leads there too once a file is stored there. -/
theorem locateFrom_of_sameExcept {top top' : Folder} {links : Nat} {here l : Location}
    {parts : List Text} (hsame : SameExcept l top top')
    (hold : ∀ inside, top.at? l ≠ some (.folder inside))
    (hlink : ∀ target, top.at? l ≠ some (.link target)) {content : List UInt8}
    (hnew : top'.at? l = some (.file content)) (h : locateFrom top links here parts = .ok l) :
    locateFrom top' links here parts = .ok l := by
  -- on the way every folder lies outside of the place, so it is a folder in both trees
  have outside : ∀ {here inside}, top.at? here = some (.folder inside) → ¬ l <+: here := by
    intro here inside hfolder hprefix
    obtain ⟨around, haround⟩ := exists_folder_above hfolder hprefix
    exact hold around haround
  have stays : ∀ {here inside}, top.at? here = some (.folder inside) →
      ∃ inside', top'.at? here = some (.folder inside') := by
    intro here inside hfolder
    rw [← Node.map_outside_eq_folder_iff, ← hsame here (outside hfolder),
      Node.map_outside_eq_folder_iff]
    exact ⟨inside, hfolder⟩
  fun_induction locateFrom top links here parts with
  | case1 links here => rw [locateFrom, h]
  | case2 | case5 | case6 | case9 => cases h
  | case3 links here parts inside hfolder ih =>
    obtain ⟨inside', hfolder'⟩ := stays hfolder
    rw [locateFrom, hfolder']
    exact ih h
  | case4 links here parts inside hfolder hne ih =>
    obtain ⟨inside', hfolder'⟩ := stays hfolder
    rw [locateFrom, hfolder']
    simp only [if_neg hne, if_true]
    exact ih h
  | case7 here part parts inside hfolder hdot hdots hshort target links hget start ih =>
    obtain ⟨inside', hfolder'⟩ := stays hfolder
    have hother : ¬ l <+: here ++ [part] := by
      rw [List.prefix_concat_iff, not_or]
      rw [← at?_append_singleton hfolder] at hget
      exact ⟨fun heq => hlink target (heq ▸ hget), outside hfolder⟩
    have htarget : inside'.get? part = some (.link target) :=
      (get?_link_iff_of_sameExcept hsame hfolder hfolder' hother target).mpr hget
    rw [locateFrom, hfolder']
    simp only [if_neg hdot, if_neg hdots, if_neg hshort, htarget]
    exact ih h
  | case8 here part parts inside hfolder hdot hdots hshort links hzero hsucc ih =>
    obtain ⟨inside', hfolder'⟩ := stays hfolder
    rw [locateFrom_name hfolder' hdot hdots hshort]
    · exact ih h
    · intro target htarget
      by_cases heq : l = here ++ [part]
      · rw [← at?_append_singleton hfolder', ← heq, hnew] at htarget
        cases htarget
      · have hother : ¬ l <+: here ++ [part] := by
          rw [List.prefix_concat_iff, not_or]
          exact ⟨heq, outside hfolder⟩
        rw [get?_link_iff_of_sameExcept hsame hfolder hfolder' hother] at htarget
        cases links with
        | zero => exact hzero target htarget rfl
        | succ links => exact hsucc target links htarget rfl

end Disk

end SetupCatalog
