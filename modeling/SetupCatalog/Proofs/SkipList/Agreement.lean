import SetupCatalog.Proofs.Detector.Segments
import SetupCatalog.SkipList

/-!
# When two records are skipped alike

Two records with the same key stand for the same package. A skip list does not look at the key,
though: it looks up Chocolatey packages by name and everything else by identity. Every lookup of two
such records agrees exactly if their names do not matter or are the same
(`forall_reason?_eq_iff_of_key_eq`), and where lookups agree, so do the outcomes
(`outcome_of_reason?_eq`).

`reason?_agrees` is the main statement. A Chocolatey package is listed by a label that is not its
identity only if it is an entry of a container; `not_reason?_eq_of_key_eq` shows that such an entry
is not skipped although the same package on a line of its own is.
-/

namespace SetupCatalog

/-- A Chocolatey package whose name is a label and not its identity. -/
def Package.HasOwnLabel (p : Package) : Prop :=
  p.installer = .choco ∧ p.name ≠ p.id

instance (p : Package) : Decidable p.HasOwnLabel :=
  inferInstanceAs (Decidable (_ ∧ _))

/-- Only entries of containers have a label of their own. -/
theorem Package.HasOwnLabel.mem_container {script text : Text} {options : ScanOptions} {p : Package}
    (h : p.HasOwnLabel) (hp : p ∈ packagesOf script text options) :
    p ∈ Rule.container.candidates options script text := by
  obtain ⟨hchoco, hlabel⟩ := h
  rw [packagesOf_eq_segments] at hp
  obtain ⟨rule, -, hp⟩ := List.mem_flatMap.mp hp
  have hcandidate := mem_segmentOf hp
  obtain ⟨hinstaller, hshape⟩ := Rule.shape_of_mem_candidates hcandidate
  cases rule with
  | container => exact hcandidate
  | sideload =>
    rw [hchoco] at hinstaller
    exact absurd hinstaller (by decide)
  | psModule => exact absurd hshape hlabel
  | pipedArray => exact absurd hshape.1 hlabel
  | choco => exact absurd hshape.1 hlabel
  | winget => exact absurd hshape.1 hlabel

namespace SkipList

/-- Every lookup of two packages agrees exactly if they are listed under the same text. -/
theorem forall_reason?_eq_iff {p q : Package} :
    (∀ list : SkipList, list.reason? p = list.reason? q) ↔ keyOf p = keyOf q := by
  constructor
  · intro h
    -- the list that has nothing on it but `p`
    have hlist := h [(keyOf p, [])]
    rw [reason?, reason?, List.lookup_cons_self] at hlist
    by_contra hne
    have hmiss : (keyOf q == keyOf p) = false := beq_eq_false_iff_ne.mpr (Ne.symm hne)
    rw [List.lookup_cons, hmiss] at hlist
    cases hlist
  · intro h list
    rw [reason?, reason?, h]

/-- Two records with the same key are listed under the same text exactly if their names do not
matter or are the same. -/
theorem keyOf_eq_iff_of_key_eq {p q : Package} (hkey : p.key = q.key) :
    keyOf p = keyOf q ↔ (p.installer = .choco → p.name = q.name) := by
  obtain ⟨hinstaller, hid⟩ := Package.key_eq_iff.mp hkey
  rw [keyOf, keyOf, ← hinstaller]
  by_cases hchoco : p.installer = .choco
  · rw [if_pos hchoco, if_pos hchoco]
    exact (imp_iff_right hchoco).symm
  · rw [if_neg hchoco, if_neg hchoco]
    exact iff_of_true hid fun h => absurd h hchoco

theorem forall_reason?_eq_iff_of_key_eq {p q : Package} (hkey : p.key = q.key) :
    (∀ list : SkipList, list.reason? p = list.reason? q) ↔
      (p.installer = .choco → p.name = q.name) :=
  forall_reason?_eq_iff.trans (keyOf_eq_iff_of_key_eq hkey)

/-- Where a lookup agrees, the outcomes differ in nothing but the package. -/
theorem outcome_of_reason?_eq {list : SkipList} {p q : Package}
    (h : list.reason? p = list.reason? q) :
    list.outcome q = { list.outcome p with package := q } := by
  rw [outcome, outcome, h]
  cases list.reason? q with
  | none => rfl
  | some reason => rfl

/-- **Skipping goes by the package, up to labels.** Let two records with the same key be found in
any two scripts, by whatever rules. Unless one of them is a Chocolatey package with a label of its
own, which only an entry of a container can be, every skip list gives the same reason for both, and
they stand alike. Every skip list gives the same reason for both exactly if they are not packages of
Chocolatey with different names. -/
theorem reason?_agrees {script script' text text' : Text} {options options' : ScanOptions}
    {p q : Package} (hp : p ∈ packagesOf script text options)
    (hq : q ∈ packagesOf script' text' options') (hkey : p.key = q.key) :
    (¬ p.HasOwnLabel → ¬ q.HasOwnLabel → ∀ list : SkipList,
      list.reason? p = list.reason? q ∧
        list.outcome q = { list.outcome p with package := q }) ∧
    (p.HasOwnLabel → p ∈ Rule.container.candidates options script text) ∧
    (q.HasOwnLabel → q ∈ Rule.container.candidates options' script' text') ∧
    ((∀ list : SkipList, list.reason? p = list.reason? q) ↔
      (p.installer = .choco → p.name = q.name)) := by
  refine ⟨fun hpLabel hqLabel => ?_, fun h => h.mem_container hp, fun h => h.mem_container hq,
    forall_reason?_eq_iff_of_key_eq hkey⟩
  -- without labels of their own both have the identity for a name
  have hnames : p.installer = .choco → p.name = q.name := by
    intro hchoco
    obtain ⟨hinstaller, hid⟩ := Package.key_eq_iff.mp hkey
    have hpname : p.name = p.id := not_not.mp fun hne => hpLabel ⟨hchoco, hne⟩
    have hqname : q.name = q.id := not_not.mp fun hne => hqLabel ⟨hinstaller ▸ hchoco, hne⟩
    rw [hpname, hqname, hid]
  intro list
  have hreason := (forall_reason?_eq_iff_of_key_eq hkey).mpr hnames list
  exact ⟨hreason, outcome_of_reason?_eq hreason⟩

/-! ## One package in several scripts -/

/-- A container whose only entry has the given fields, and the loop that installs it. -/
def containerScript (fields : String) : Text :=
  ("$P = @\x7b 'd' = @\x7b " ++ fields ++ " \x7d \x7d\n" ++
    "$P.Values | % \x7b choco install $_.Id \x7d").toList

/-- The package of the container, with the given name. -/
def containerPackage (name : String) : Package where
  name := name.toList
  id := "docker-desktop".toList
  installer := .choco
  script := []
  scope := "machine".toList

/-- The same package on a line of its own. -/
def lineScript : Text :=
  "choco install docker-desktop".toList

/-- The package of the line. -/
def linePackage : Package where
  name := "docker-desktop".toList
  id := "docker-desktop".toList
  installer := .choco
  script := []

/-- An entry without a label is skipped for the same reason as the line. -/
theorem reason?_unlabelled :
    containerPackage "docker-desktop" ∈
        packagesOf [] (containerScript "Id = 'docker-desktop'") {} ∧
      linePackage ∈ packagesOf [] lineScript {} ∧
      (containerPackage "docker-desktop").key = linePackage.key ∧
      standard.reason? (containerPackage "docker-desktop") = standard.reason? linePackage ∧
      (standard.outcome linePackage).status = .untested := by
  have hentry : containerPackage "docker-desktop" ∈
      packagesOf [] (containerScript "Id = 'docker-desktop'") {} := by decide
  have hline : linePackage ∈ packagesOf [] lineScript {} := by decide
  have hkey : (containerPackage "docker-desktop").key = linePackage.key := by decide
  obtain ⟨hreason, houtcome⟩ :=
    (reason?_agrees hentry hline hkey).1 (by decide) (by decide) standard
  refine ⟨hentry, hline, hkey, hreason, ?_⟩
  rw [houtcome]
  decide

/-- The key of a package does not decide by itself whether it is skipped: an entry with a label is
looked up by the label. -/
theorem not_reason?_eq_of_key_eq :
    ¬ ∀ (script script' text text' : Text) (options options' : ScanOptions),
      ∀ p ∈ packagesOf script text options, ∀ q ∈ packagesOf script' text' options',
        p.key = q.key → ∀ list : SkipList, list.reason? p = list.reason? q := by
  intro h
  have hentry : containerPackage "Docker" ∈
      packagesOf [] (containerScript "Name = 'Docker'; Id = 'docker-desktop'") {} := by decide
  have hline : linePackage ∈ packagesOf [] lineScript {} := by decide
  have hreason := h _ _ _ _ _ _ _ hentry _ hline (by decide) standard
  exact absurd hreason (by decide)

end SkipList

end SetupCatalog
