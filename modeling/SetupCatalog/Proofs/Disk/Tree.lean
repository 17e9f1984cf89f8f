import SetupCatalog.Disk.Folder

/-!
# Trees of folders

A `Folder` is a listing: its entries come one after the other, and nothing in the type keeps a name
from being listed twice. Real folders are `Sound`: in every folder of the tree each name occurs
once, and a name is not empty and has no slash in it.

`at?_cons` is the equation that walks need: a path leads on from the entry that its first name
stands for. In a sound tree the entry that is listed first is the only one with its name, so an
entry of a listing and what a look-up finds are the same thing (`at?_cons_entry`).

Two listings show the `SameTree` if every path leads to the same in both, whatever the order of
the entries is.
-/

namespace SetupCatalog

namespace Folder

/-- The names of the entries, in their order. -/
def names : Folder → List Text
  | empty => []
  | file name _ rest => name :: rest.names
  | link name _ rest => name :: rest.names
  | folder name _ rest => name :: rest.names

/-- Whether a text can be the name of an entry. -/
def IsName (name : Text) : Prop :=
  name ≠ [] ∧ '/' ∉ name

instance (name : Text) : Decidable (IsName name) :=
  inferInstanceAs (Decidable (_ ∧ _))

/-- In every folder of the tree the entries have proper names, each of them once. -/
def Sound : Folder → Prop
  | empty => True
  | file name _ rest => IsName name ∧ name ∉ rest.names ∧ rest.Sound
  | link name _ rest => IsName name ∧ name ∉ rest.names ∧ rest.Sound
  | folder name inside rest =>
    IsName name ∧ name ∉ rest.names ∧ inside.Sound ∧ rest.Sound

/-- Whether a tree is sound can be computed. -/
def decideSound : (f : Folder) → Decidable f.Sound
  | empty => inferInstanceAs (Decidable True)
  | file name _ rest =>
    have := decideSound rest
    inferInstanceAs (Decidable (IsName name ∧ name ∉ rest.names ∧ rest.Sound))
  | link name _ rest =>
    have := decideSound rest
    inferInstanceAs (Decidable (IsName name ∧ name ∉ rest.names ∧ rest.Sound))
  | folder name inside rest =>
    have := decideSound inside
    have := decideSound rest
    inferInstanceAs (Decidable (IsName name ∧ name ∉ rest.names ∧ inside.Sound ∧ rest.Sound))

instance (f : Folder) : Decidable f.Sound :=
  decideSound f

end Folder

/-- What a path leads to from an entry. The empty path leads to the entry itself, and only a folder
leads further. -/
def Node.at? : List Text → Node → Option Node
  | [], node => some node
  | names, .folder inside => inside.at? names
  | _, _ => none

/-- An entry without what is inside of it. -/
def Node.outside : Node → Node
  | .folder _ => .folder .empty
  | node => node

namespace Node

/-- Nothing but an entry itself is reached from one that is no folder. -/
theorem at?_eq_some_iff_of_not_folder {node found : Node} {path : List Text}
    (h : ∀ inside, node ≠ .folder inside) :
    node.at? path = some found ↔ path = [] ∧ found = node := by
  cases node with
  | folder inside => exact absurd rfl (h inside)
  | file content | link target => cases path <;> simp [Node.at?, eq_comm]

/-- A path from a folder as an entry is a path from the folder. -/
theorem at?_folder (inside : Folder) (path : List Text) :
    (Node.folder inside).at? path = inside.at? path := by
  cases path <;> rfl

/-- An entry that is no folder shows all that it is from outside. -/
theorem map_outside_eq_some_iff {node : Node} (hnode : ∀ inside, node ≠ .folder inside)
    {found : Option Node} : found.map outside = some node ↔ found = some node := by
  cases found with
  | none => rfl
  | some other =>
    cases other with
    | file content => rfl
    | link target => rfl
    | folder inside =>
      refine iff_of_false ?_ ?_
      · exact fun heq => hnode .empty (Option.some.inj heq).symm
      · exact fun heq => hnode inside (Option.some.inj heq).symm

/-- From outside, what is found looks like a folder exactly where it is one. -/
theorem map_outside_eq_folder_iff {found : Option Node} :
    found.map outside = some (.folder .empty) ↔ ∃ inside, found = some (.folder inside) := by
  cases found with
  | none => simp
  | some other => cases other <;> simp [outside]

end Node

namespace Folder

/-- Two listings show the same tree: every path leads to the same entry in both, or nowhere. -/
def SameTree (f g : Folder) : Prop :=
  ∀ path, (f.at? path).map Node.outside = (g.at? path).map Node.outside

/-! ## Paths through listings -/

/-- A path leads on from the entry that its first name stands for. -/
theorem at?_cons (name : Text) (names : List Text) (f : Folder) :
    f.at? (name :: names) = (f.get? name).bind (Node.at? names) := by
  by_cases hfolder : ∃ inside, f.get? name = some (.folder inside)
  · obtain ⟨inside, hinside⟩ := hfolder
    rw [at?.eq_2 f name names inside hinside, hinside]
    cases names <;> rfl
  · have hno : ∀ inside, f.get? name = some (.folder inside) → False :=
      fun inside h => hfolder ⟨inside, h⟩
    -- where no folder is, only the name itself is a path
    cases names with
    | nil =>
      rw [at?.eq_3 f name hno]
      cases f.get? name <;> rfl
    | cons next names =>
      rw [at?.eq_4 f name next names hno]
      cases hget : f.get? name with
      | none => rfl
      | some node =>
        cases node with
        | folder inside => exact absurd hget (hno inside)
        | file content | link target => rfl

/-- A name that is not listed has no node. -/
theorem get?_eq_none {name : Text} {f : Folder} (h : name ∉ f.names) : f.get? name = none := by
  induction f with
  | empty => rfl
  | file n content rest ih | link n target rest ih | folder n inside rest _ ih =>
    rw [names, List.mem_cons, not_or] at h
    rw [get?, if_neg (Ne.symm h.1)]
    exact ih h.2

/-- Every entry that a path leads to is listed in its folder. -/
theorem mem_names_of_at? {name : Text} {path : List Text} {f : Folder} {node : Node}
    (h : f.at? (name :: path) = some node) : name ∈ f.names := by
  by_cases hname : name ∈ f.names
  · exact hname
  · rw [at?_cons, get?_eq_none hname] at h
    cases h

/-- A path into the first entry is followed there. -/
theorem at?_cons_self (name : Text) (node : Node) (rest : Folder) (path : List Text) :
    (cons name node rest).at? (name :: path) = node.at? path := by
  rw [at?_cons, get?_cons_self]
  rfl

/-- A path into another entry passes the first over. -/
theorem at?_cons_of_ne {name other : Text} (h : name ≠ other) (node : Node) (rest : Folder)
    (path : List Text) :
    (cons name node rest).at? (other :: path) = rest.at? (other :: path) := by
  rw [at?_cons, get?_cons_of_ne h, ← at?_cons]

/-- Where no name is listed twice, a path that is not empty leads through the first entry or
through the others. -/
theorem at?_cons_entry {name : Text} {node found : Node} {rest : Folder} {path : List Text}
    (hname : name ∉ rest.names) (hpath : path ≠ []) :
    (cons name node rest).at? path = some found ↔
      (∃ further, path = name :: further ∧ node.at? further = some found) ∨
        rest.at? path = some found := by
  obtain ⟨first, further, rfl⟩ := List.exists_cons_of_ne_nil hpath
  -- the name is not in the rest of the list, so no path leads to both
  by_cases hfirst : name = first
  · subst hfirst
    rw [at?_cons_self]
    constructor
    · intro h
      exact Or.inl ⟨further, rfl, h⟩
    · rintro (⟨_, heq, h⟩ | h)
      · rw [(List.cons.inj heq).2]
        exact h
      · exact absurd (mem_names_of_at? h) hname
  · rw [at?_cons_of_ne hfirst]
    constructor
    · exact Or.inr
    · rintro (⟨_, heq, -⟩ | h)
      · exact absurd (List.cons.inj heq).1.symm hfirst
      · exact h

/-! ## Sound trees -/

/-- Every name of a sound folder can be a file's name. -/
theorem Sound.isName_of_mem {f : Folder} (hf : f.Sound) {name : Text} (h : name ∈ f.names) :
    IsName name := by
  induction f with
  | empty => cases h
  | file n content rest ih | link n target rest ih =>
    rcases List.mem_cons.mp h with rfl | h
    · exact hf.1
    · exact ih hf.2.2 h
  | folder n inside rest _ ih =>
    rcases List.mem_cons.mp h with rfl | h
    · exact hf.1
    · exact ih hf.2.2.2 h

/-- What is inside of a sound tree is sound. -/
theorem Sound.get? {f inside : Folder} (hf : f.Sound) {name : Text}
    (h : f.get? name = some (.folder inside)) : inside.Sound := by
  induction f with
  | empty => cases h
  | file n content rest ih | link n target rest ih =>
    rw [Folder.get?] at h
    split at h
    · cases h
    · exact ih hf.2.2 h
  | folder n inner rest _ ih =>
    rw [Folder.get?] at h
    split at h
    · cases h
      exact hf.2.2.1
    · exact ih hf.2.2.2 h

/-- A folder inside a sound one is sound. -/
theorem Sound.at? {f inside : Folder} (hf : f.Sound) {path : List Text}
    (h : f.at? path = some (.folder inside)) : inside.Sound := by
  induction path generalizing f with
  | nil =>
    obtain rfl : f = inside := by simpa [Folder.at?] using h
    exact hf
  | cons name path ih =>
    rw [at?_cons, Option.bind_eq_some_iff] at h
    obtain ⟨node, hnode, h⟩ := h
    cases path with
    | nil =>
      obtain rfl : node = .folder inside := by simpa [Node.at?] using h
      exact hf.get? hnode
    | cons next path =>
      cases node with
      | file content => cases h
      | link target => cases h
      | folder inner => exact ih (hf.get? hnode) h

/-- Every name on a path that leads somewhere is a proper one. -/
theorem Sound.isName_of_at? {f : Folder} (hf : f.Sound) {path : List Text} {node : Node}
    (h : f.at? path = some node) : ∀ name ∈ path, IsName name := by
  induction path generalizing f with
  | nil => exact fun _ hname => nomatch hname
  | cons first path ih =>
    have hfirst := hf.isName_of_mem (mem_names_of_at? h)
    rw [at?_cons, Option.bind_eq_some_iff] at h
    obtain ⟨entry, hentry, h⟩ := h
    intro name hname
    rcases List.mem_cons.mp hname with rfl | hname
    · exact hfirst
    · cases path with
      | nil => cases hname
      | cons next path =>
        cases entry with
        | file content => cases h
        | link target => cases h
        | folder inner => exact ih (hf.get? hentry) h name hname

/-- The same tree has the same files and links. -/
theorem SameTree.at?_eq_some_iff {f g : Folder} (h : f.SameTree g) {path : List Text} {node : Node}
    (hnode : ∀ inside, node ≠ .folder inside) :
    f.at? path = some node ↔ g.at? path = some node := by
  rw [← Node.map_outside_eq_some_iff hnode, h path, Node.map_outside_eq_some_iff hnode]

/-- Two folders with the same tree have folders at the same paths. -/
theorem SameTree.isSome_folder {f g : Folder} (h : f.SameTree g) {path : List Text} :
    (∃ inside, f.at? path = some (.folder inside)) ↔
      ∃ inside, g.at? path = some (.folder inside) := by
  rw [← Node.map_outside_eq_folder_iff, h path, Node.map_outside_eq_folder_iff]

/-- Two entries that are listed the other way round make no other tree. -/
theorem sameTree_swap {name other : Text} (h : name ≠ other) (node node' : Node) (rest : Folder) :
    (cons name node (cons other node' rest)).SameTree
      (cons other node' (cons name node rest)) := by
  intro path
  cases path with
  | nil => rfl
  | cons first further =>
    by_cases hname : name = first
    · subst hname
      rw [at?_cons_self, at?_cons_of_ne (Ne.symm h), at?_cons_self]
    · rw [at?_cons_of_ne hname]
      by_cases hother : other = first
      · subst hother
        rw [at?_cons_self, at?_cons_self]
      · rw [at?_cons_of_ne hother, at?_cons_of_ne hother, at?_cons_of_ne hname]

end Folder

end SetupCatalog
