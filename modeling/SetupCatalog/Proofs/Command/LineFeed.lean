import SetupCatalog.Command.Install
import SetupCatalog.Command.Shell
import SetupCatalog.Proofs.Text.Piece

/-!
# Commands on one line

Writing a word for a shell, or a literal for PowerShell, adds quotes to a text and nothing else, and
between words there are spaces. So a command line has a line feed in it only if one of the words has
(`Shell.lineFeed_not_mem_line`), and a word of an install command only if a field of the package
has: the identity, the scope or the arguments that are handed on
(`Package.lineFeed_not_mem_installCommand`). The name and the script are written into no command.
-/

namespace SetupCatalog

/-- Every character of a written word stands in the word or is a quote. -/
theorem Shell.mem_of_mem_word {w : Text} {c : Char} (h : c ∈ Shell.word w) :
    c ∈ w ∨ Shell.isQuote c = true := by
  rw [Shell.word] at h
  split at h
  · exact Or.inl h
  · simp only [List.cons_append, List.mem_cons, List.mem_append, List.mem_flatMap,
      List.not_mem_nil, or_false] at h
    rcases h with rfl | ⟨d, hd, hc⟩ | rfl
    · exact Or.inr rfl
    · rw [Shell.quotedChar] at hc
      split at hc
      · have hquotes : ∀ e ∈ "'\"'\"'".toList, Shell.isQuote e = true :=
          List.all_eq_true.mp (by decide)
        exact Or.inr (hquotes c hc)
      · exact Or.inl (List.mem_singleton.mp hc ▸ hd)
    · exact Or.inr rfl

/-- A command line has a line feed only if one of its words has. -/
theorem Shell.lineFeed_not_mem_line {ws : List Text} (h : ∀ w ∈ ws, '\n' ∉ w) :
    '\n' ∉ Shell.line ws := by
  intro hmem
  rcases Text.mem_of_mem_joined hmem with hsep | ⟨written, hwritten, hmem⟩
  · exact absurd hsep (by decide)
  · obtain ⟨w, hw, rfl⟩ := List.mem_map.mp hwritten
    rcases Shell.mem_of_mem_word hmem with hmem | hquote
    · exact h w hw hmem
    · exact absurd hquote (by decide)

/-- Every character of a literal stands in its value or is the quote. -/
theorem PowerShell.mem_of_mem_literal {value : Text} {c : Char} (h : c ∈ PowerShell.literal value) :
    c ∈ value ∨ c = '\'' := by
  simp only [PowerShell.literal, PowerShell.literalBody, List.cons_append, List.mem_cons,
    List.mem_append, List.mem_flatMap, List.not_mem_nil, or_false] at h
  rcases h with rfl | ⟨d, hd, hc⟩ | rfl
  · exact Or.inr rfl
  · split at hc
    · refine Or.inr ?_
      simpa using hc
    · exact Or.inl (List.mem_singleton.mp hc ▸ hd)
  · exact Or.inr rfl

namespace Package

variable {p : Package}

/-- Quoting brings no line feed. -/
theorem lineFeed_not_mem_literal {value : Text} (h : '\n' ∉ value) :
    '\n' ∉ PowerShell.literal value := by
  intro hmem
  rcases PowerShell.mem_of_mem_literal hmem with hmem | hquote
  · exact h hmem
  · exact absurd hquote (by decide)

/-- A module's script has a line feed only from the record. -/
theorem lineFeed_not_mem_moduleScript (hid : '\n' ∉ p.id) (hextra : '\n' ∉ p.extraArgs) :
    '\n' ∉ p.moduleScript := by
  have hkept : '\n' ∉ (if p.extraArgs.isEmpty then [] else ' ' :: p.extraArgs) := by
    split
    · exact List.not_mem_nil
    · exact List.not_mem_cons_of_ne_of_not_mem (by decide) hextra
  have hcall : '\n' ∉ "Install-Module -Name ".toList := by simp
  have hflags : '\n' ∉ " -Force -AllowClobber -Scope AllUsers".toList := by simp
  have hname := List.not_mem_append hcall (lineFeed_not_mem_literal hid)
  exact List.not_mem_append (List.not_mem_append hname hflags) hkept

/-- A sideloading script has a line feed only from the record. -/
theorem lineFeed_not_mem_sideloadScript (hid : '\n' ∉ p.id) : '\n' ∉ p.sideloadScript := by
  have hfetch : '\n' ∉ ("$bundle = Join-Path $env:TEMP 'sideload.msixbundle'; " ++
      "Invoke-WebRequest -Uri ").toList := by simp
  have hinstall : '\n' ∉ " -OutFile $bundle; Add-AppxPackage -Path $bundle".toList := by simp
  exact List.not_mem_append (List.not_mem_append hfetch (lineFeed_not_mem_literal hid)) hinstall

/-- A command has a line feed in it only if a field has that is written into it. -/
theorem lineFeed_not_mem_installCommand (hid : '\n' ∉ p.id) (hscope : '\n' ∉ p.scope)
    (hextra : '\n' ∉ p.extraArgs) {ws : List Text} (h : p.installCommand = .ok ws) :
    ∀ w ∈ ws, '\n' ∉ w := by
  unfold installCommand at h
  -- each installer has its own words; only the fields of the package can bring a line feed
  cases hinstaller : p.installer with
  | winget =>
    rw [hinstaller] at h
    obtain rfl := Except.ok.inj h
    have hflag : ∀ w ∈ (if p.scope.isEmpty then [] else ["--scope".toList, p.scope]), '\n' ∉ w := by
      split
      · exact List.forall_mem_nil _
      · simp [hscope]
    rw [List.forall_mem_append]
    exact ⟨by simp [agreements, hid], hflag⟩
  | wingetStore =>
    rw [hinstaller] at h
    obtain rfl := Except.ok.inj h
    simp [agreements, hid]
  | choco =>
    rw [hinstaller] at h
    obtain rfl := Except.ok.inj h
    simp [hid]
  | scoop =>
    rw [hinstaller] at h
    obtain rfl := Except.ok.inj h
    simp [hid]
  | psModule =>
    rw [hinstaller] at h
    obtain rfl := Except.ok.inj h
    simp [scriptCommand, lineFeed_not_mem_moduleScript hid hextra]
  | sideload =>
    rw [hinstaller] at h
    obtain rfl := Except.ok.inj h
    simp [scriptCommand, lineFeed_not_mem_sideloadScript hid]
  | unknown =>
    rw [hinstaller] at h
    cases h

end Package

end SetupCatalog
