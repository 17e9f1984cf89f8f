import SetupCatalog.Text.Basic

/-!
# Folders

A folder lists files, links and further folders. The list is part of the type, so a walk through a
whole tree is plain recursion: an entry, the folder inside it if it is one, and the entries after
it.

* `Folder.get?` looks an entry up by name and `Folder.put` stores one; `get?_put_self` and
  `get?_put_of_ne` say what a look-up finds after that.
* `Folder.at?` follows a path of names through folders.
* `Folder.files` lists every file of a tree with its path.
-/

namespace SetupCatalog

/-- The entries of a folder, one after the other. -/
inductive Folder where
  | empty
  | file (name : Text) (content : List UInt8) (rest : Folder)
  | link (name target : Text) (rest : Folder)
  | folder (name : Text) (inside rest : Folder)
  deriving DecidableEq, Repr

/-- What can be stored under a name. -/
inductive Node where
  | file (content : List UInt8)
  | link (target : Text)
  | folder (inside : Folder)
  deriving DecidableEq, Repr

namespace Folder

/-- A folder that starts with the given entry. -/
def cons (name : Text) (node : Node) (rest : Folder) : Folder :=
  match node with
  | .file content => file name content rest
  | .link target => link name target rest
  | .folder inside => folder name inside rest

/-- What is stored under a name. -/
def get? (name : Text) : Folder → Option Node
  | empty => none
  | file n content rest => if n = name then some (.file content) else rest.get? name
  | link n target rest => if n = name then some (.link target) else rest.get? name
  | folder n inside rest => if n = name then some (.folder inside) else rest.get? name

/-- Stores something under a name, in the place of what was there, or else at the end. -/
def put (name : Text) (node : Node) : Folder → Folder
  | empty => cons name node empty
  | file n content rest =>
    if n = name then cons name node rest else file n content (rest.put name node)
  | link n target rest =>
    if n = name then cons name node rest else link n target (rest.put name node)
  | folder n inside rest =>
    if n = name then cons name node rest else folder n inside (rest.put name node)

/-- The folder without what is stored under a name. -/
def erase (name : Text) : Folder → Folder
  | empty => empty
  | file n content rest => if n = name then rest else file n content (rest.erase name)
  | link n target rest => if n = name then rest else link n target (rest.erase name)
  | folder n inside rest => if n = name then rest else folder n inside (rest.erase name)

/-- What a path of names leads to. The empty path leads to the folder itself. -/
def at? : List Text → Folder → Option Node
  | [], f => some (.folder f)
  | name :: names, f =>
    match f.get? name, names with
    | some (.folder inside), names => inside.at? names
    | node, [] => node
    | _, _ :: _ => none

/-- Changes the folder that a path of names leads to. Where the path leads nowhere, nothing
changes. -/
def change (f : Folder → Folder) : List Text → Folder → Folder
  | [], d => f d
  | name :: names, d =>
    match d.get? name with
    | some (.folder inside) => d.put name (.folder (change f names inside))
    | _ => d

/-- Every file of a tree: its path below the folder and its content. -/
def files (above : List Text) : Folder → List (List Text × List UInt8)
  | empty => []
  | file name content rest => (above ++ [name], content) :: rest.files above
  | link _ _ rest => rest.files above
  | folder name inside rest => inside.files (above ++ [name]) ++ rest.files above

/-- How many links a tree has. -/
def linkCount : Folder → Nat
  | empty => 0
  | file _ _ rest => rest.linkCount
  | link _ _ rest => rest.linkCount + 1
  | folder _ inside rest => inside.linkCount + rest.linkCount

theorem get?_cons_self (name : Text) (node : Node) (rest : Folder) :
    (cons name node rest).get? name = some node := by
  cases node <;> simp [cons, get?]

theorem get?_cons_of_ne {name other : Text} (h : name ≠ other) (node : Node) (rest : Folder) :
    (cons name node rest).get? other = rest.get? other := by
  cases node <;> simp [cons, get?, h]

/-- What has just been stored is found. -/
theorem get?_put_self (name : Text) (node : Node) (f : Folder) :
    (f.put name node).get? name = some node := by
  induction f with
  | empty => exact get?_cons_self name node empty
  | file n content rest ih | link n target rest ih | folder n inside rest _ ih =>
    unfold put
    split
    · exact get?_cons_self name node rest
    · next h => simpa [get?, h] using ih

/-- What is stored under other names stays. -/
theorem get?_put_of_ne {name other : Text} (h : name ≠ other) (node : Node) (f : Folder) :
    (f.put name node).get? other = f.get? other := by
  induction f with
  | empty => exact get?_cons_of_ne h node empty
  | file n content rest ih | link n target rest ih | folder n inside rest _ ih =>
    unfold put
    split
    · next hn =>
      subst hn
      rw [get?_cons_of_ne h]
      simp [get?, h]
    · simp [get?, ih]

end Folder

end SetupCatalog
