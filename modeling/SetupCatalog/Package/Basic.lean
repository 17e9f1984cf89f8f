import SetupCatalog.Package.Installer

/-!
# Packages

A package record says which package a script installs and with what. Its key, the installer and the
identity, tells repeated declarations of one script apart: `Package.key_eq_iff` says that two
records have the same key exactly if they agree in both.
-/

namespace SetupCatalog

/-- A declaration that a script installs a package. -/
structure Package where
  /-- What people call the package. -/
  name : Text
  /-- What the installer calls the package; for a sideload, the address it is loaded from. -/
  id : Text
  /-- What installs the package. -/
  installer : Installer
  /-- The script that declares the package. -/
  script : Text
  /-- The scope of the installation, which may be empty. -/
  scope : Text := []
  /-- Arguments that are handed to the installer as they are. -/
  extraArgs : Text := []
  deriving DecidableEq, Repr

/-- The key of a package with the given installer and identity. -/
def packageKey (installer : Installer) (id : Text) : Text :=
  installer.name ++ ':' :: id

/-- The key that tells repeated declarations apart. -/
def Package.key (p : Package) : Text :=
  packageKey p.installer p.id

/-- A package together with how its installation stands. -/
structure Outcome where
  /-- The package. -/
  package : Package
  /-- How its installation stands. -/
  status : Status := .pending
  /-- The reason or the error that belongs to the status. -/
  note : Text := []
  deriving DecidableEq, Repr

/-- No installer's name contains a colon. -/
theorem Installer.colon_not_mem_name (i : Installer) : ':' ∉ i.name := by
  cases i <;> decide

/-- Texts without the separator before them are told apart by it. -/
theorem append_separator_inj {sep : Char} {a b c d : Text} (ha : sep ∉ a) (hb : sep ∉ b)
    (h : a ++ sep :: c = b ++ sep :: d) : a = b ∧ c = d := by
  induction a generalizing b with
  | nil =>
    cases b with
    | nil => simpa using h
    | cons x b =>
      simp only [List.nil_append, List.cons_append, List.cons.injEq] at h
      exact absurd (h.1 ▸ List.mem_cons_self) hb
  | cons x a ih =>
    cases b with
    | nil =>
      simp only [List.nil_append, List.cons_append, List.cons.injEq] at h
      exact absurd (h.1 ▸ List.mem_cons_self) ha
    | cons y b =>
      simp only [List.cons_append, List.cons.injEq] at h
      obtain ⟨rfl, h⟩ := h
      obtain ⟨rfl, rfl⟩ := ih (fun m => ha (List.mem_cons_of_mem _ m))
        (fun m => hb (List.mem_cons_of_mem _ m)) h
      exact ⟨rfl, rfl⟩

/-- Keys are equal exactly if installer and identity are. -/
theorem packageKey_eq_iff {i j : Installer} {a b : Text} :
    packageKey i a = packageKey j b ↔ i = j ∧ a = b := by
  constructor
  · intro h
    obtain ⟨hn, hid⟩ := append_separator_inj i.colon_not_mem_name j.colon_not_mem_name h
    exact ⟨Installer.name_injective hn, hid⟩
  · rintro ⟨rfl, rfl⟩
    rfl

/-- Two records have the same key exactly if they agree in installer and identity. -/
theorem Package.key_eq_iff {p q : Package} :
    p.key = q.key ↔ p.installer = q.installer ∧ p.id = q.id :=
  packageKey_eq_iff

end SetupCatalog
