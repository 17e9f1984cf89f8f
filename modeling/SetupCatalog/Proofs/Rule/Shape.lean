import SetupCatalog.Command.Install
import SetupCatalog.Proofs.Rule.Declaration
import SetupCatalog.Proofs.Rule.Legibility
import SetupCatalog.Proofs.Rule.SideloadText

/-!
# The shape of a record

Two things are said about every record that a rule recognises. It is sound (`Package.Sound`): name
and identity are legible, the script is named, and something installs the package, so that it has an
install command. And it has the shape that its rule gives it (`Rule.Shape`): which installers can
occur, whether the name is just the identity, and which fields stay empty.

Both follow rule by rule from what stands behind a record and from what the rules read.
-/

namespace SetupCatalog

open Text Script

/-- A record can be shown to people and acted upon. -/
structure Package.Sound (script : Text) (p : Package) : Prop where
  legible_name : p.name.Legible
  legible_id : p.id.Legible
  script_eq : p.script = script
  installer_ne : p.installer ≠ .unknown

/-- A sound record has an install command. -/
theorem Package.Sound.exists_installCommand {script : Text} {p : Package} (h : p.Sound script) :
    ∃ command, p.installCommand = .ok command := by
  have hne := h.installer_ne
  unfold Package.installCommand
  cases hinstaller : p.installer with
  | unknown => exact absurd hinstaller hne
  | _ => exact ⟨_, rfl⟩

namespace Rule

/-- The installers that the records of a rule can have. -/
def installers : Rule → List Installer
  | .container => [.winget, .wingetStore, .choco, .scoop]
  | .pipedArray => [.choco, .scoop]
  | .choco => [.choco]
  | .winget => [.winget]
  | .psModule => [.psModule]
  | .sideload => [.sideload]

/-- What the records of a rule have in common. -/
def Shape (rule : Rule) (p : Package) : Prop :=
  p.installer ∈ rule.installers ∧
  match rule with
  | .container => p.extraArgs = []
  | .pipedArray => p.name = p.id ∧ p.scope = [] ∧ p.extraArgs = []
  | .choco => p.name = p.id ∧ p.scope = [] ∧ p.extraArgs = []
  | .winget => p.name = p.id ∧ Winget.DottedId p.id ∧ p.extraArgs = []
  | .psModule => p.name = p.id
  | .sideload => p.extraArgs = []

/-- No rule counts the unknown installer among its own. -/
theorem unknown_not_mem_installers (rule : Rule) : .unknown ∉ rule.installers := by
  cases rule <;> decide

/-- No rule but the last hands out the installer of sideloads. -/
theorem eq_sideload_of_mem_installers {rule : Rule} (h : .sideload ∈ rule.installers) :
    rule = .sideload := by
  cases rule with
  | sideload => rfl
  | _ => exact absurd h (by decide)

/-- Only one rule hands out the installer of modules. -/
theorem eq_psModule_of_mem_installers {rule : Rule} (h : .psModule ∈ rule.installers) :
    rule = .psModule := by
  cases rule with
  | psModule => rfl
  | _ => exact absurd h (by decide)

/-- A window that is searched for an install call gives one of four installers or none. -/
theorem Container.installer_consumerIn {window defaultScope : Text}
    (h : (consumerIn window defaultScope).installer ≠ .unknown) :
    (consumerIn window defaultScope).installer ∈ Rule.container.installers := by
  unfold consumerIn at h ⊢
  cases hwinget : wingetCall.find? window with
  | some arguments =>
    -- the store or the usual source
    dsimp only
    split <;> simp [installers]
  | none =>
    rw [hwinget] at h
    dsimp only at h ⊢
    split
    · simp [installers]
    · next hchoco =>
      rw [if_neg hchoco] at h
      split
      · simp [installers]
      · next hscoop =>
        rw [if_neg hscoop] at h
        exact absurd rfl h

/-- A consumer that is known is one of the container rule's installers. -/
theorem Container.installer_consumerOf {name text : Text} {options : ScanOptions}
    (h : (consumerOf name text options).installer ≠ .unknown) :
    (consumerOf name text options).installer ∈ Rule.container.installers := by
  unfold consumerOf at h ⊢
  split
  · next hit hhit =>
    rw [hhit] at h
    exact installer_consumerIn h
  · next hnone =>
    rw [hnone] at h
    exact absurd rfl h

/-- An installer found in a loop's body is one of the array rule's installers. -/
theorem PipedArray.installer_of_installerIn {body : Text} {installer : Installer}
    (h : installerIn body = some installer) : installer ∈ Rule.pipedArray.installers := by
  unfold installerIn at h
  split at h
  · obtain rfl := Option.some.inj h
    decide
  · split at h
    · obtain rfl := Option.some.inj h
      decide
    · cases h

/-- Every record that a rule recognises has the shape of the rule. -/
theorem shape_of_mem_candidates {rule : Rule} {options : ScanOptions} {script text : Text}
    {p : Package} (h : p ∈ rule.candidates options script text) : rule.Shape p := by
  -- the shape is that of the record which the rule builds
  cases rule with
  | container =>
    obtain ⟨b, line, value, -, hconsumer, rfl⟩ := Container.mem_candidates_iff.mp h
    exact ⟨Container.installer_consumerOf hconsumer, rfl⟩
  | pipedArray =>
    obtain ⟨hit, -, -, installer, hinstaller, value, -, rfl⟩ := PipedArray.mem_candidates_iff.mp h
    exact ⟨PipedArray.installer_of_installerIn hinstaller, rfl, rfl, rfl⟩
  | choco =>
    obtain ⟨line, -, arguments, -, name, -, rfl⟩ := Choco.mem_candidates_iff.mp h
    exact ⟨List.mem_singleton_self _, rfl, rfl, rfl⟩
  | winget =>
    obtain ⟨line, -, arguments, -, id, hid, rfl⟩ := Winget.mem_candidates_iff.mp h
    exact ⟨List.mem_singleton_self _, rfl, Winget.dottedId_of_idOf hid, rfl⟩
  | psModule =>
    obtain ⟨line, -, -, arguments, -, name, -, rfl⟩ := PsModule.mem_candidates_iff.mp h
    exact ⟨List.mem_singleton_self _, rfl⟩
  | sideload =>
    obtain ⟨hit, -, rfl⟩ := Sideload.mem_candidates_iff.mp h
    exact ⟨List.mem_singleton_self _, rfl⟩

/-- Every record that a rule recognises has a legible name and a legible identity. -/
theorem legible_of_mem_candidates {rule : Rule} {options : ScanOptions} {script text : Text}
    {p : Package} (h : p ∈ rule.candidates options script text) :
    p.name.Legible ∧ p.id.Legible := by
  -- the container and the sideload rule read a name of their own; for the others it is the identity
  cases rule with
  | container =>
    obtain ⟨b, line, value, entry, -, rfl⟩ := Container.mem_candidates_iff.mp h
    exact ⟨entry.legible_label, entry.legible_id⟩
  | pipedArray =>
    obtain ⟨hit, hhit, -, installer, -, value, hvalue, rfl⟩ := PipedArray.mem_candidates_iff.mp h
    have hlegible := PipedArray.legible_of_mem_values hhit hvalue
    exact ⟨hlegible, hlegible⟩
  | choco =>
    obtain ⟨line, -, arguments, -, name, hname, rfl⟩ := Choco.mem_candidates_iff.mp h
    have hlegible := Choco.legible_of_packageIn hname
    exact ⟨hlegible, hlegible⟩
  | winget =>
    obtain ⟨line, -, arguments, -, id, hid, rfl⟩ := Winget.mem_candidates_iff.mp h
    have hlegible := (Winget.dottedId_of_idOf hid).legible
    exact ⟨hlegible, hlegible⟩
  | psModule =>
    obtain ⟨line, -, -, arguments, -, name, hname, rfl⟩ := PsModule.mem_candidates_iff.mp h
    have hlegible := PsModule.legible_of_moduleOf hname
    exact ⟨hlegible, hlegible⟩
  | sideload =>
    obtain ⟨hit, -, rfl⟩ := Sideload.mem_candidates_iff.mp h
    exact ⟨Sideload.legible_nameIn _, Sideload.legible_addressIn _⟩

/-- Every record that a rule recognises is sound. -/
theorem sound_of_mem_candidates {rule : Rule} {options : ScanOptions} {script text : Text}
    {p : Package} (h : p ∈ rule.candidates options script text) : p.Sound script where
  legible_name := (legible_of_mem_candidates h).1
  legible_id := (legible_of_mem_candidates h).2
  script_eq := script_of_mem_candidates h
  installer_ne := by
    intro hunknown
    have hmem := (shape_of_mem_candidates h).1
    rw [hunknown] at hmem
    exact rule.unknown_not_mem_installers hmem

end Rule

end SetupCatalog
