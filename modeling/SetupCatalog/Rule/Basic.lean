import SetupCatalog.Rule.Choco
import SetupCatalog.Rule.Container
import SetupCatalog.Rule.PipedArray
import SetupCatalog.Rule.PsModule
import SetupCatalog.Rule.Sideload
import SetupCatalog.Rule.Winget

/-!
# The rules

A rule recognises one way of declaring packages. What it recognises in a script depends on the
options and the script alone; which of the recognised packages are new is decided afterwards, by
`newPackages`, from the keys seen before.

* `key_mem_seenAfter_iff` says which keys have been seen after a rule has run.
* `mem_newPackages` says that nothing but recognised packages comes out.
-/

namespace SetupCatalog

/-- The ways of declaring packages. -/
inductive Rule where
  | container
  | pipedArray
  | choco
  | winget
  | psModule
  | sideload
  deriving DecidableEq, Repr

/-- The keys of the packages declared so far, the latest first. -/
abbrev Seen := List Text

namespace Rule

/-- Every rule, in the order in which they are applied. -/
def all : List Rule :=
  [container, pipedArray, choco, winget, psModule, sideload]

/-- The name of a rule in remarks. -/
def name : Rule → Text
  | container => "Hashtable".toList
  | pipedArray => "PipedArray".toList
  | choco => "ChocoInstall".toList
  | winget => "WingetInstall".toList
  | psModule => "ModuleInstall".toList
  | sideload => "Sideload".toList

/-- The rule with the given name. -/
def ofName? (value : Text) : Option Rule :=
  all.find? fun r => r.name == value

/-- The packages that a rule recognises in a script, repeated ones included. -/
def candidates (rule : Rule) (options : ScanOptions) (script text : Text) : List Package :=
  match rule with
  | .container => Container.candidates options script text
  | .pipedArray => PipedArray.candidates script text
  | .choco => Choco.candidates script text
  | .winget => Winget.candidates options script text
  | .psModule => PsModule.candidates script text
  | .sideload => Sideload.candidates options script text

/-- What a rule remarks on a script. -/
def remarks (rule : Rule) (options : ScanOptions) (text : Text) : List Text :=
  match rule with
  | .container => Container.remarks options text
  | .sideload => Sideload.remarks text
  | _ => []

end Rule

/-! ## Packages not seen before -/

/-- The keys seen after a package has been met, or `none` if its key was seen before. -/
def Seen.accept (seen : Seen) (p : Package) : Option Seen :=
  if seen.contains p.key then none else some (p.key :: seen)

/-- The packages whose keys have not been seen, each key once. -/
def newPackages (seen : Seen) : List Package → List Package
  | [] => []
  | p :: ps =>
    match seen.accept p with
    | some seen => p :: newPackages seen ps
    | none => newPackages seen ps

/-- The keys seen after the given packages have been met. -/
def seenAfter (seen : Seen) : List Package → Seen
  | [] => seen
  | p :: ps => seenAfter ((seen.accept p).getD seen) ps

theorem accept_of_mem {seen : Seen} {p : Package} (h : p.key ∈ seen) : seen.accept p = none := by
  simp [Seen.accept, h]

theorem accept_of_not_mem {seen : Seen} {p : Package} (h : p.key ∉ seen) :
    seen.accept p = some (p.key :: seen) := by
  simp [Seen.accept, h]

/-- The keys seen after packages have been met are those seen before and those of the packages. -/
theorem key_mem_seenAfter_iff {seen : Seen} {ps : List Package} {k : Text} :
    k ∈ seenAfter seen ps ↔ k ∈ seen ∨ ∃ p ∈ ps, p.key = k := by
  induction ps generalizing seen with
  | nil => simp [seenAfter]
  | cons p ps ih =>
    unfold seenAfter
    rw [ih]
    by_cases h : p.key ∈ seen
    · rw [accept_of_mem h]
      simp only [Option.getD_none, List.mem_cons, exists_eq_or_imp]
      constructor
      · rintro (hk | hk)
        · exact .inl hk
        · exact .inr (.inr hk)
      · rintro (hk | hk | hk)
        · exact .inl hk
        · exact .inl (hk ▸ h)
        · exact .inr hk
    · rw [accept_of_not_mem h]
      simp only [Option.getD_some, List.mem_cons, exists_eq_or_imp]
      constructor
      · rintro ((hk | hk) | hk)
        · exact .inr (.inl hk.symm)
        · exact .inl hk
        · exact .inr (.inr hk)
      · rintro (hk | hk | hk)
        · exact .inl (.inr hk)
        · exact .inl (.inl hk.symm)
        · exact .inr hk

/-- Every new package is one of the packages met, and its key was not seen before. -/
theorem mem_newPackages {seen : Seen} {ps : List Package} {p : Package}
    (h : p ∈ newPackages seen ps) : p ∈ ps ∧ p.key ∉ seen := by
  induction ps generalizing seen with
  | nil => simp [newPackages] at h
  | cons q ps ih =>
    unfold newPackages at h
    by_cases hq : q.key ∈ seen
    · rw [accept_of_mem hq] at h
      exact ⟨List.mem_cons_of_mem _ (ih h).1, (ih h).2⟩
    · rw [accept_of_not_mem hq] at h
      rcases List.mem_cons.1 h with rfl | h
      · exact ⟨List.mem_cons_self, hq⟩
      · exact ⟨List.mem_cons_of_mem _ (ih h).1, fun m => (ih h).2 (List.mem_cons_of_mem _ m)⟩

end SetupCatalog
