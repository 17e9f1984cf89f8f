import Mathlib.Data.List.Nodup
import Mathlib.Data.List.Perm.Basic
import SetupCatalog.Discovery
import SetupCatalog.Proofs.Disk.Tree
import SetupCatalog.Proofs.Text.Order
import SetupCatalog.Proofs.Text.Piece

/-!
# What a walk through a tree meets

The search for scripts and the list of folders that are left out are two readings of one walk. The
walk meets every entry of a folder and goes on inside of the folders that are not left out.
`mem_walked_iff` says what it meets in terms of paths: an entry with no ignored folder on the way to
it. A path through a link leads nowhere, so nothing that lies behind a link is met. No entry is met
twice (`nodup_walked`).

Paths are listed by their spelling. Since names have no slash in them, different paths are spelt in
different ways (`relativeText_injective`).
-/

namespace SetupCatalog

open Text

/-! ## The spelling of paths -/

/-- The names on a path come back from its spelling. -/
theorem pieces_relativeText {path : List Text} (hpath : path ≠ [])
    (hnames : ∀ name ∈ path, '/' ∉ name) :
    pieces '/' (relativeText path) = path := by
  obtain ⟨first, names, rfl⟩ := List.exists_cons_of_ne_nil hpath
  rw [relativeText, joined_cons]
  exact pieces_append_flatMap (hnames first List.mem_cons_self)
    fun name hname => hnames name (List.mem_cons_of_mem first hname)

/-- Different paths of proper names have different spellings. -/
theorem relativeText_injective {path other : List Text} (hpath : path ≠ []) (hother : other ≠ [])
    (hnames : ∀ name ∈ path, Folder.IsName name) (hothers : ∀ name ∈ other, Folder.IsName name)
    (h : relativeText path = relativeText other) : path = other := by
  rw [← pieces_relativeText hpath fun name hname => (hnames name hname).2, h,
    pieces_relativeText hother fun name hname => (hothers name hname).2]

namespace Discovery

/-! ## The walk -/

/-- The entries that a walk through a folder meets, each with its path, `above` being the path of
the folder itself. -/
def walked (above : List Text) : Folder → List (List Text × Node)
  | .empty => []
  | .file name content rest => (above ++ [name], .file content) :: walked above rest
  | .link name target rest => (above ++ [name], .link target) :: walked above rest
  | .folder name inside rest =>
    (above ++ [name], .folder inside) ::
      ((if isIgnored name then [] else walked (above ++ [name]) inside) ++ walked above rest)

/-- The path of an entry that is a script. -/
def scriptPath? : List Text × Node → Option (List Text)
  | (path, .file _) => if isScriptName (path.getLast?.getD []) then some path else none
  | _ => none

/-- The path and the name of an entry that is left out. -/
def skippedPath? (leadsToFolder : List Text → Bool) :
    List Text × Node → Option (List Text × Text)
  | (path, .folder _) =>
    let name := path.getLast?.getD []
    if isIgnored name then some (path, name) else none
  | (path, .link _) =>
    let name := path.getLast?.getD []
    if isIgnored name && leadsToFolder path then some (path, name) else none
  | _ => none

/-- The last part of a path is the name that ends it. -/
theorem getLast?_append_name (above : List Text) (name : Text) :
    (above ++ [name]).getLast?.getD [] = name := by
  rw [List.getLast?_append, List.getLast?_singleton]
  rfl

/-- The paths of the scripts are those of the scripts among the entries that the walk meets. -/
theorem scriptPaths_eq (above : List Text) (f : Folder) :
    scriptPaths above f = (walked above f).filterMap scriptPath? := by
  induction f generalizing above with
  | empty => rfl
  | file name content rest ih =>
    rw [scriptPaths, walked, List.filterMap_cons, scriptPath?, getLast?_append_name, ih]
    split <;> rfl
  | link name target rest ih => exact ih above
  | folder name inside rest ihInside ih =>
    rw [scriptPaths, walked, List.filterMap_cons, scriptPath?.eq_2 _ (by simp),
      List.filterMap_append, ih]
    split
    · rfl
    · rw [ihInside]

/-- What is left out are entries that the walk meets. -/
theorem skippedPaths_eq (leadsToFolder : List Text → Bool) (above : List Text) (f : Folder) :
    skippedPaths leadsToFolder above f =
      (walked above f).filterMap (skippedPath? leadsToFolder) := by
  induction f generalizing above with
  | empty => rfl
  | file name content rest ih => exact ih above
  | link name target rest ih =>
    rw [skippedPaths, walked, List.filterMap_cons, skippedPath?, getLast?_append_name, ih]
    by_cases hskip : (isIgnored name && leadsToFolder (above ++ [name])) = true
    · rw [if_pos hskip, if_pos hskip]
      rfl
    · rw [if_neg hskip, if_neg hskip]
      rfl
  -- a folder that is skipped is not entered, so either it is listed or its own entries are
  | folder name inside rest ihInside ih =>
    rw [skippedPaths, walked, List.filterMap_cons, skippedPath?, getLast?_append_name,
      List.filterMap_append, ih]
    by_cases hskip : isIgnored name = true
    · rw [if_pos hskip, if_pos hskip, if_pos hskip]
      rfl
    · rw [if_neg hskip, if_neg hskip, if_neg hskip, ihInside]

/-! ## What is met -/

/-- A path that ends in a name starts with the first name that it leads through. -/
theorem append_singleton_eq_cons_iff {folders further : List Text} {name first : Text} :
    folders ++ [name] = first :: further ↔
      (folders = [] ∧ name = first ∧ further = []) ∨
        ∃ others, folders = first :: others ∧ further = others ++ [name] := by
  cases folders with
  | nil => simp [eq_comm]
  | cons folder others => simp [eq_comm, and_assoc]

/-- The walk meets a path below a folder: the path leads to the entry, and no folder on the way is
left out. -/
def Meets (f : Folder) (folders : List Text) (name : Text) (node : Node) : Prop :=
  f.at? (folders ++ [name]) = some node ∧ ∀ folder ∈ folders, isIgnored folder = false

/-- Nothing is met in an empty folder. -/
theorem not_meets_empty {folders : List Text} {name : Text} {node : Node} :
    ¬ Meets .empty folders name node := by
  rintro ⟨h, -⟩
  obtain ⟨first, further, hpath⟩ := List.exists_cons_of_ne_nil (List.concat_ne_nil name folders)
  rw [hpath] at h
  cases Folder.mem_names_of_at? h

/-- An entry that is met is the first one, lies inside of it, or is one of the others. -/
theorem meets_cons_iff {first : Text} {entry : Node} {rest : Folder} (hfirst : first ∉ rest.names)
    {folders : List Text} {name : Text} {node : Node} :
    Meets (.cons first entry rest) folders name node ↔
      (folders = [] ∧ name = first ∧ node = entry) ∨
      (∃ inside others, entry = .folder inside ∧ isIgnored first = false ∧
        folders = first :: others ∧ Meets inside others name node) ∨
      Meets rest folders name node := by
  rw [Meets, Folder.at?_cons_entry hfirst (by simp), or_and_right]
  apply Iff.trans (or_congr_left _) or_assoc
  constructor
  · rintro ⟨⟨further, hpath, hfound⟩, hfolders⟩
    rcases append_singleton_eq_cons_iff.mp hpath with ⟨rfl, rfl, rfl⟩ | ⟨others, rfl, rfl⟩
    · exact Or.inl ⟨rfl, rfl, (Option.some.inj hfound).symm⟩
    · -- a path goes on behind a folder alone
      cases entry with
      | folder inside =>
        rw [Node.at?_folder] at hfound
        refine Or.inr ⟨inside, others, rfl, hfolders first List.mem_cons_self, rfl, hfound, ?_⟩
        exact fun folder hfolder => hfolders folder (List.mem_cons_of_mem first hfolder)
      | file content | link target =>
        rw [Node.at?_eq_some_iff_of_not_folder (by simp)] at hfound
        exact absurd hfound.1 (by simp)
  · rintro (⟨rfl, rfl, rfl⟩ | ⟨inside, others, rfl, hignored, rfl, hfound, hothers⟩)
    · exact ⟨⟨[], rfl, rfl⟩, fun _ hfolder => nomatch hfolder⟩
    · refine ⟨⟨others ++ [name], rfl, ?_⟩, List.forall_mem_cons.mpr ⟨hignored, hothers⟩⟩
      rw [Node.at?_folder]
      exact hfound

/-- The case of an entry that is no folder. -/
theorem mem_cons_walked_iff {first : Text} {entry : Node} {rest : Folder}
    (hfirst : first ∉ rest.names) (hentry : ∀ inside, entry ≠ .folder inside)
    {above path : List Text} {node : Node}
    (ih : (path, node) ∈ walked above rest ↔
      ∃ folders name, path = above ++ (folders ++ [name]) ∧ Meets rest folders name node) :
    (path, node) ∈ (above ++ [first], entry) :: walked above rest ↔
      ∃ folders name, path = above ++ (folders ++ [name]) ∧
        Meets (.cons first entry rest) folders name node := by
  simp only [meets_cons_iff hfirst]
  rw [List.mem_cons, ih]
  constructor
  · rintro (heq | ⟨folders, name, rfl, h⟩)
    · obtain ⟨rfl, rfl⟩ := Prod.mk.inj heq
      exact ⟨[], first, rfl, Or.inl ⟨rfl, rfl, rfl⟩⟩
    · exact ⟨folders, name, rfl, Or.inr (Or.inr h)⟩
  · rintro ⟨folders, name, rfl, ⟨rfl, rfl, rfl⟩ | ⟨inside, others, h, -⟩ | h⟩
    · exact Or.inl rfl
    · exact absurd h (hentry inside)
    · exact Or.inr ⟨folders, name, rfl, h⟩

/-- The walk meets exactly the entries with no folder on the way that is left out. -/
theorem mem_walked_iff {f : Folder} (hf : f.Sound) {above path : List Text} {node : Node} :
    (path, node) ∈ walked above f ↔
      ∃ folders name, path = above ++ (folders ++ [name]) ∧ Meets f folders name node := by
  induction f generalizing above path node with
  | empty =>
    refine iff_of_false List.not_mem_nil ?_
    rintro ⟨folders, name, -, h⟩
    exact not_meets_empty h
  | file first content rest ih => exact mem_cons_walked_iff hf.2.1 (by simp) (ih hf.2.2)
  | link first target rest ih => exact mem_cons_walked_iff hf.2.1 (by simp) (ih hf.2.2)
  | folder first inside rest ihInside ih =>
    have hmeets : ∀ {folders name node}, Meets (.folder first inside rest) folders name node ↔ _ :=
      @meets_cons_iff first (.folder inside) rest hf.2.1
    simp only [hmeets]
    rw [walked, List.mem_cons, List.mem_append, ih hf.2.2.2]
    -- a node is met as the entry itself, inside of it, or further on in the list
    constructor
    · rintro (heq | h | ⟨folders, name, rfl, h⟩)
      · obtain ⟨rfl, rfl⟩ := Prod.mk.inj heq
        exact ⟨[], first, rfl, Or.inl ⟨rfl, rfl, rfl⟩⟩
      · by_cases hignored : isIgnored first = true
        · rw [if_pos hignored] at h
          cases h
        · rw [if_neg hignored, ihInside hf.2.2.1] at h
          obtain ⟨folders, name, rfl, h⟩ := h
          refine ⟨first :: folders, name, List.append_assoc _ _ _, Or.inr (Or.inl ?_)⟩
          exact ⟨inside, folders, rfl, Bool.eq_false_iff.mpr hignored, rfl, h⟩
      · exact ⟨folders, name, rfl, Or.inr (Or.inr h)⟩
    · rintro ⟨folders, name, rfl, ⟨rfl, rfl, rfl⟩ | ⟨inner, others, hinner, hignored, rfl, h⟩ | h⟩
      · exact Or.inl rfl
      · obtain rfl := Node.folder.inj hinner
        refine Or.inr (Or.inl ?_)
        rw [if_neg (Bool.eq_false_iff.mp hignored), ihInside hf.2.2.1]
        exact ⟨others, name, by rw [List.append_assoc]; rfl, h⟩
      · exact Or.inr (Or.inr ⟨folders, name, rfl, h⟩)

/-- What is met below a folder has a path that goes on with one of its names. -/
theorem exists_name_of_mem_walked {f : Folder} (hf : f.Sound) {above : List Text}
    {entry : List Text × Node} (h : entry ∈ walked above f) :
    ∃ first ∈ f.names, ∃ further, entry.1 = above ++ first :: further := by
  obtain ⟨folders, name, hpath, hfound, -⟩ := (mem_walked_iff hf).mp h
  cases folders with
  | nil => exact ⟨name, Folder.mem_names_of_at? hfound, [], hpath⟩
  | cons first others => exact ⟨first, Folder.mem_names_of_at? hfound, others ++ [name], hpath⟩

/-- No path is met twice. -/
theorem nodup_walked {f : Folder} (hf : f.Sound) (above : List Text) :
    ((walked above f).map Prod.fst).Nodup := by
  -- an entry is not among those that are listed after it, and neither is anything inside of it
  have later : ∀ {rest : Folder}, rest.Sound → ∀ {first : Text}, first ∉ rest.names →
      ∀ further, above ++ first :: further ∉ (walked above rest).map Prod.fst := by
    intro rest hrest first hfirst further hmem
    obtain ⟨entry, hentry, hpath⟩ := List.mem_map.mp hmem
    obtain ⟨other, hother, others, heq⟩ := exists_name_of_mem_walked hrest hentry
    rw [hpath] at heq
    obtain ⟨rfl, -⟩ := List.cons.inj (List.append_cancel_left heq)
    exact hfirst hother
  induction f generalizing above with
  | empty => exact List.nodup_nil
  | file first content rest ih | link first target rest ih =>
    rw [walked, List.map_cons, List.nodup_cons]
    exact ⟨later hf.2.2 hf.2.1 [], ih hf.2.2 above later⟩
  | folder first inside rest ihInside ih =>
    rw [walked, List.map_cons, List.nodup_cons, List.map_append, List.nodup_append]
    -- what is inside has a longer path than the folder
    have hinside : ∀ path ∈ (if isIgnored first then [] else
        walked (above ++ [first]) inside).map Prod.fst, ∃ second further,
        path = above ++ first :: second :: further := by
      intro path hpath
      by_cases hignored : isIgnored first = true
      · rw [if_pos hignored] at hpath
        cases hpath
      · rw [if_neg hignored] at hpath
        obtain ⟨entry, hentry, rfl⟩ := List.mem_map.mp hpath
        obtain ⟨second, -, further, heq⟩ := exists_name_of_mem_walked hf.2.2.1 hentry
        exact ⟨second, further, by rw [heq, List.append_assoc]; rfl⟩
    refine ⟨?_, ?_, ih hf.2.2.2 above later, ?_⟩
    · intro hmem
      rcases List.mem_append.mp hmem with hmem | hmem
      · obtain ⟨second, further, heq⟩ := hinside _ hmem
        have := List.append_cancel_left heq
        cases this
      · exact later hf.2.2.2 hf.2.1 [] hmem
    · by_cases hignored : isIgnored first = true
      · rw [if_pos hignored]
        exact List.nodup_nil
      · rw [if_neg hignored]
        apply ihInside hf.2.2.1
        intro other hother name hname further hmem
        obtain ⟨entry, hentry, hpath⟩ := List.mem_map.mp hmem
        obtain ⟨second, hsecond, others, heq⟩ := exists_name_of_mem_walked hother hentry
        rw [hpath] at heq
        obtain ⟨rfl, -⟩ := List.cons.inj (List.append_cancel_left heq)
        exact hname hsecond
    · rintro path hpath _ hother rfl
      obtain ⟨second, further, rfl⟩ := hinside path hpath
      exact later hf.2.2.2 hf.2.1 (second :: further) hother

end Discovery

end SetupCatalog
