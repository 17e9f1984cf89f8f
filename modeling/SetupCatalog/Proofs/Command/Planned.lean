import SetupCatalog.Proofs.Command.Statement
import SetupCatalog.Proofs.Detector.Segments

/-!
# Scripts that do what was planned

The script that installs a module or a sideloaded package is meant to be certain statements, with
the identity of the package as a literal in them (`Package.plannedStatements`). PowerShell need not
read it so: it takes more characters for quotes than the writer of the script knows, and the
arguments of a module are written as they are. `Package.ReadAsPlanned` says that it does read the
script so.

* For a module this depends on the arguments alone (`Package.readAsPlanned_moduleScript_iff`), since
  the name of a module has no quotes at all (`Rule.PsModule.isQuote_eq_false_of_mem_moduleOf`).
* For a sideloaded package it depends on the address alone
  (`Package.readAsPlanned_sideloadScript_iff`).

`exists_script_readAsPlanned_iff` is the main statement.
-/

namespace SetupCatalog

open PowerShell Text

namespace Package

variable {p : Package}

/-- What the script of a module has after the name. -/
def moduleArguments (p : Package) : Text :=
  " -Force -AllowClobber -Scope AllUsers".toList ++
    if p.extraArgs.isEmpty then [] else ' ' :: p.extraArgs

/-- The statements that install a module or a sideloaded package. -/
def plannedStatements (p : Package) : List (List Part) :=
  match p.installer with
  | .psModule => [code "Install-Module -Name ".toList ++ .literal p.id :: code p.moduleArguments]
  | .sideload =>
    [code "$bundle = Join-Path $env:TEMP ".toList ++ [.literal "sideload.msixbundle".toList],
      code " Invoke-WebRequest -Uri ".toList ++ .literal p.id :: code " -OutFile $bundle".toList,
      code " Add-AppxPackage -Path $bundle".toList]
  | _ => []

/-- PowerShell reads a script as the planned statements, and only one of its literals stands for the
identity of the package. -/
def ReadAsPlanned (p : Package) (script : Text) : Prop :=
  ∃ parts, parts? script = some parts ∧ statements parts = p.plannedStatements ∧
    parts.count (.literal p.id) = 1

/-! ## Modules -/

/-- A module's arguments are never empty: the flags of every install stand there. -/
theorem moduleArguments_ne_nil (p : Package) : p.moduleArguments ≠ [] :=
  List.append_ne_nil_of_left_ne_nil (by decide) _

/-- A module's script is fixed text, the literal and the arguments. -/
theorem moduleScript_eq (p : Package) :
    p.moduleScript = "Install-Module -Name ".toList ++ (literal p.id ++ p.moduleArguments) := by
  unfold moduleScript moduleArguments
  rw [List.append_assoc, List.append_assoc]

/-- What holds of the characters that are always there holds of all that come after the name if it
holds of those that are handed on. -/
theorem forall_mem_moduleArguments {P : Char → Prop}
    (h : ∀ c ∈ " -Force -AllowClobber -Scope AllUsers".toList, P c) :
    (∀ c ∈ p.moduleArguments, P c) ↔ ∀ c ∈ p.extraArgs, P c := by
  have hspace : P ' ' := h ' ' List.mem_cons_self
  unfold moduleArguments
  rw [List.forall_mem_append, and_iff_right h]
  split
  · next hempty =>
    rw [List.isEmpty_iff.mp hempty]
  · rw [List.forall_mem_cons, and_iff_right hspace]

/-- The script of a module is read as planned exactly if its arguments neither open a literal nor
end a statement. -/
theorem readAsPlanned_moduleScript_iff (hinstaller : p.installer = .psModule)
    (hid : ∀ c ∈ p.id, PowerShell.isQuote c = false) :
    p.ReadAsPlanned p.moduleScript ↔
      (∀ c ∈ p.extraArgs, PowerShell.isQuote c = false) ∧
        ∀ c ∈ p.extraArgs, (Part.code c).endsStatement = false := by
  have hplanned : p.plannedStatements =
      [code "Install-Module -Name ".toList ++ .literal p.id :: code p.moduleArguments] := by
    rw [plannedStatements, hinstaller]
  have htypographic : ∀ c ∈ p.id, isTypographicQuote c = false := fun c hc =>
    (Bool.or_eq_false_iff.mp (hid c hc)).2
  rw [← forall_mem_moduleArguments (any_eq_false_iff.mp (by decide)),
    ← forall_mem_moduleArguments (any_eq_false_iff.mp (by decide))]
  constructor
  · rintro ⟨parts, hparts, hstatements, -⟩
    constructor
    · -- the literal of the name has all the quotes that the planned statement is read from
      have hquotes := countP_isQuote_eq hparts
      rw [← quotes_flatten_statements, hstatements, hplanned, moduleScript_eq] at hquotes
      simp only [List.flatten_singleton, quotes_append, quotes_cons, quotes_code,
        List.countP_append] at hquotes
      have hliteral := countP_isQuote_literal p.id
      have hnone : p.id.countP isTypographicQuote = 0 :=
        List.countP_eq_zero.mpr fun c hc => ne_true_of_eq_false (htypographic c hc)
      have hcount : p.moduleArguments.countP PowerShell.isQuote = 0 := by omega
      exact fun c hc => eq_false_of_ne_true (List.countP_eq_zero.mp hcount c hc)
    · rw [hplanned] at hstatements
      obtain ⟨-, hends⟩ := statements_eq_singleton hstatements
      rw [List.forall_mem_append, List.forall_mem_cons] at hends
      exact forall_mem_code.mp hends.2.2
  · rintro ⟨hquotes, hends⟩
    have hread := partsFrom_literal_append htypographic hquotes p.moduleArguments_ne_nil []
    rw [List.append_nil] at hread
    refine ⟨code "Install-Module -Name ".toList ++ .literal p.id :: code p.moduleArguments,
      ?_, ?_, ?_⟩
    · rw [parts?, moduleScript_eq, partsFrom_code_append (any_eq_false_iff.mp (by decide)), hread,
        partsFrom, Option.map_some, Option.map_some, List.append_nil]
    · rw [hplanned]
      refine statements_of_forall ?_
      rw [List.forall_mem_append, List.forall_mem_cons]
      exact ⟨by decide, rfl, forall_mem_code.mpr hends⟩
    · rw [List.count_append, List.count_cons_self, count_literal_code, count_literal_code]

/-! ## Sideloaded packages -/

/-- A sideloading script is fixed text around two literals. -/
theorem sideloadScript_eq (p : Package) :
    p.sideloadScript = "$bundle = Join-Path $env:TEMP ".toList ++
      (literal "sideload.msixbundle".toList ++ ("; Invoke-WebRequest -Uri ".toList ++
        (literal p.id ++ " -OutFile $bundle; Add-AppxPackage -Path $bundle".toList))) := by
  have hlead :
      "$bundle = Join-Path $env:TEMP 'sideload.msixbundle'; Invoke-WebRequest -Uri ".toList =
      "$bundle = Join-Path $env:TEMP ".toList ++
        (literal "sideload.msixbundle".toList ++ "; Invoke-WebRequest -Uri ".toList) := by
    decide
  unfold sideloadScript
  rw [hlead, List.append_assoc, List.append_assoc, List.append_assoc]

/-- What the script of a sideloaded package is read as, if no quote of the address is misread. -/
theorem parts?_sideloadScript (hid : ∀ c ∈ p.id, isTypographicQuote c = false) :
    parts? p.sideloadScript =
      some (code "$bundle = Join-Path $env:TEMP ".toList ++
        .literal "sideload.msixbundle".toList :: (code "; Invoke-WebRequest -Uri ".toList ++
          .literal p.id :: code " -OutFile $bundle; Add-AppxPackage -Path $bundle".toList)) := by
  have hlead : ∀ c ∈ "$bundle = Join-Path $env:TEMP ".toList, PowerShell.isQuote c = false :=
    any_eq_false_iff.mp (by decide)
  have hfile : ∀ c ∈ "sideload.msixbundle".toList, isTypographicQuote c = false :=
    any_eq_false_iff.mp (by decide)
  have hfetch : ∀ c ∈ "; Invoke-WebRequest -Uri ".toList, PowerShell.isQuote c = false :=
    any_eq_false_iff.mp (by decide)
  have hinstall : ∀ c ∈ " -OutFile $bundle; Add-AppxPackage -Path $bundle".toList,
      PowerShell.isQuote c = false :=
    any_eq_false_iff.mp (by decide)
  have hread := partsFrom_literal_append hid hinstall (by decide) []
  rw [List.append_nil] at hread
  rw [parts?, sideloadScript_eq, partsFrom_code_append hlead,
    partsFrom_literal_append hfile hfetch (by decide), hread, partsFrom, Option.map_some,
    Option.map_some, Option.map_some, List.append_nil]

/-- The three statements that a sideloading record plans. -/
theorem plannedStatements_sideload (hinstaller : p.installer = .sideload) :
    p.plannedStatements =
      [code "$bundle = Join-Path $env:TEMP ".toList ++ [.literal "sideload.msixbundle".toList],
        code " Invoke-WebRequest -Uri ".toList ++ .literal p.id :: code " -OutFile $bundle".toList,
        code " Add-AppxPackage -Path $bundle".toList] := by
  rw [plannedStatements, hinstaller]

/-- The script of a sideloaded package is read as planned exactly if its address has no typographic
quotes. -/
theorem readAsPlanned_sideloadScript_iff (hinstaller : p.installer = .sideload)
    (hid : p.id ≠ "sideload.msixbundle".toList) :
    p.ReadAsPlanned p.sideloadScript ↔ ∀ c ∈ p.id, isTypographicQuote c = false := by
  constructor
  · rintro ⟨parts, hparts, hstatements, -⟩
    have hquotes := countP_isQuote_eq hparts
    rw [← quotes_flatten_statements, hstatements, plannedStatements_sideload hinstaller,
      sideloadScript_eq] at hquotes
    simp only [List.flatten_cons, List.flatten_nil, List.append_nil, quotes_append, quotes_cons,
      quotes_code, quotes_nil, List.countP_append] at hquotes
    have hfile : (literal "sideload.msixbundle".toList).countP PowerShell.isQuote =
        (Part.literal "sideload.msixbundle".toList).quotes := by
      decide
    have hlead : "$bundle = Join-Path $env:TEMP ".toList.countP PowerShell.isQuote = 0 := by decide
    have hfetch : "; Invoke-WebRequest -Uri ".toList.countP PowerShell.isQuote = 0 := by decide
    have hinstall : " -OutFile $bundle; Add-AppxPackage -Path $bundle".toList.countP
        PowerShell.isQuote = 0 := by
      decide
    have hliteral := countP_isQuote_literal p.id
    have hnone : p.id.countP isTypographicQuote = 0 := by omega
    exact fun c hc => eq_false_of_ne_true (List.countP_eq_zero.mp hnone c hc)
  · intro hplain
    refine ⟨_, parts?_sideloadScript hplain, ?_, ?_⟩
    · -- two of the characters of the code end a statement
      have hcut : code "$bundle = Join-Path $env:TEMP ".toList ++
          .literal "sideload.msixbundle".toList :: (code "; Invoke-WebRequest -Uri ".toList ++
            .literal p.id :: code " -OutFile $bundle; Add-AppxPackage -Path $bundle".toList) =
          (code "$bundle = Join-Path $env:TEMP ".toList ++
              [.literal "sideload.msixbundle".toList]) ++ .code ';' ::
            ((code " Invoke-WebRequest -Uri ".toList ++
                .literal p.id :: code " -OutFile $bundle".toList) ++ .code ';' ::
              code " Add-AppxPackage -Path $bundle".toList) := by
        have hfetch : code "; Invoke-WebRequest -Uri ".toList =
            .code ';' :: code " Invoke-WebRequest -Uri ".toList := rfl
        have hinstall : code " -OutFile $bundle; Add-AppxPackage -Path $bundle".toList =
            code " -OutFile $bundle".toList ++
              .code ';' :: code " Add-AppxPackage -Path $bundle".toList := rfl
        rw [hfetch, hinstall]
        simp only [List.append_assoc, List.cons_append, List.nil_append]
      have hmiddle : ∀ part ∈ code " Invoke-WebRequest -Uri ".toList ++
          .literal p.id :: code " -OutFile $bundle".toList, part.endsStatement = false := by
        rw [List.forall_mem_append, List.forall_mem_cons]
        exact ⟨by decide, rfl, by decide⟩
      have hend : (Part.code ';').endsStatement = true := rfl
      rw [plannedStatements_sideload hinstaller, hcut, statements_append_end hend,
        statements_append_end hend, statements_of_forall (by decide), statements_of_forall hmiddle,
        statements_of_forall (by decide), List.singleton_append, List.singleton_append]
    · have hother : Part.literal "sideload.msixbundle".toList ≠ .literal p.id :=
        fun h => hid (Part.literal.inj h).symm
      rw [List.count_append, count_literal_code, List.count_cons_of_ne hother, List.count_append,
        count_literal_code, List.count_cons_self, count_literal_code]

end Package

/-! ## What the rules read -/

/-- No word character is a quote. -/
theorem PowerShell.isQuote_eq_false_of_isWord {c : Char} (h : Text.isWord c = true) :
    PowerShell.isQuote c = false := by
  rw [PowerShell.isQuote, Bool.or_eq_false_iff, beq_eq_false_iff_ne]
  constructor
  · rintro rfl
    exact absurd h (by decide)
  · by_contra htypographic
    have hrange : Text.inRanges [(0x2018, 0x201B)] c.toNat = true := by
      rw [Text.inRanges, List.any_cons, List.any_nil, Bool.or_false]
      exact eq_true_of_ne_false htypographic
    have hascii : ¬ c.toNat < 128 := by
      simp only [Text.inRanges_iff, List.mem_singleton, exists_eq_left] at hrange
      omega
    have hdisjoint : Text.rangesDisjoint [(0x2018, 0x201B)] Text.wordRanges = true := by
      decide +kernel
    rw [Text.isWord, if_neg hascii, Text.not_inRanges_of_disjoint hdisjoint hrange] at h
    cases h

namespace Rule

open Text Pattern

/-- The name of a module has no quotes of any kind. -/
theorem PsModule.isQuote_eq_false_of_mem_moduleOf {arguments name : Text}
    (h : moduleOf arguments = some name) : ∀ d ∈ name, PowerShell.isQuote d = false := by
  obtain ⟨c, others, hc, hothers, rfl, -⟩ := exists_of_moduleOf h
  intro d hd
  rcases List.mem_cons.mp hd with rfl | hd
  · simp only [isAlnumAnyCase, Bool.or_eq_true, beq_iff_eq] at hc
    rcases hc with (((hc | rfl) | rfl) | rfl) | rfl
    · exact isQuote_eq_false_of_isWord (isWord_of_isAsciiAlnum hc)
    all_goals decide
  · have hd := hothers d hd
    simp only [isNameChar, Bool.or_eq_true, beq_iff_eq] at hd
    rcases hd with (hd | rfl) | rfl
    · exact isQuote_eq_false_of_isWord hd
    all_goals decide

/-- No address is the file that the script downloads to. -/
theorem Sideload.addressIn_ne (window : Text) :
    addressIn window ≠ "sideload.msixbundle".toList := by
  intro heq
  rcases addressIn_eq_or_startsAsScheme window with h | ⟨c, hc, hsame⟩
  · rw [h] at heq
    exact absurd heq (by decide)
  · rw [heq] at hc
    obtain rfl := Option.some.inj hc
    exact absurd hsame (by decide +kernel)

end Rule

/-- **When planned PowerShell is what was planned.** Every module and every sideloaded package that
is found in a script is installed by a PowerShell script. PowerShell reads this script as the
planned statements, with the identity as the value of one literal and no other, exactly if the
identity has no typographic quotes, and the arguments that are handed on have no quotes of any kind
and nothing that ends a statement. -/
theorem exists_script_readAsPlanned_iff {script text : Text} {options : ScanOptions} {p : Package}
    (hp : p ∈ packagesOf script text options)
    (hinstaller : p.installer = .psModule ∨ p.installer = .sideload) :
    ∃ s, p.installCommand = .ok (Package.scriptCommand s) ∧
      (p.ReadAsPlanned s ↔
        (∀ c ∈ p.id, isTypographicQuote c = false) ∧
        (∀ c ∈ p.extraArgs, PowerShell.isQuote c = false) ∧
        ∀ c ∈ p.extraArgs, (Part.code c).endsStatement = false) := by
  rw [packagesOf_eq_segments] at hp
  obtain ⟨rule, -, hp⟩ := List.mem_flatMap.mp hp
  have hcandidate := mem_segmentOf hp
  obtain ⟨hrule, hshape⟩ := Rule.shape_of_mem_candidates hcandidate
  -- for a module the name has no quotes, so the conditions on the identity hold; a sideload hands
  -- on no arguments, so those on the arguments do
  rcases hinstaller with hmodule | hsideload
  · rw [hmodule] at hrule
    obtain rfl := Rule.eq_psModule_of_mem_installers hrule
    obtain ⟨line, -, -, arguments, -, name, hname, rfl⟩ :=
      Rule.PsModule.mem_candidates_iff.mp hcandidate
    have hquotes := Rule.PsModule.isQuote_eq_false_of_mem_moduleOf hname
    refine ⟨_, rfl, ?_⟩
    rw [Package.readAsPlanned_moduleScript_iff rfl hquotes]
    refine (and_iff_right fun c hc => ?_).symm
    exact (Bool.or_eq_false_iff.mp (hquotes c hc)).2
  · rw [hsideload] at hrule
    obtain rfl := Rule.eq_sideload_of_mem_installers hrule
    obtain ⟨hit, -, rfl⟩ := Rule.Sideload.mem_candidates_iff.mp hcandidate
    refine ⟨_, rfl, ?_⟩
    rw [Package.readAsPlanned_sideloadScript_iff rfl (Rule.Sideload.addressIn_ne _)]
    exact (and_iff_left ⟨List.forall_mem_nil _, List.forall_mem_nil _⟩).symm

/-- A module from a repository. -/
def pester : Package where
  name := "Pester".toList
  id := "Pester".toList
  installer := .psModule
  script := []
  extraArgs := "-Repository PSGallery".toList

/-- The script of a module from a repository is read as planned. -/
theorem readAsPlanned_pester :
    pester ∈ packagesOf [] "Install-Module Pester -Repository PSGallery".toList {} ∧
      pester.installer = .psModule ∧
      ∃ s, pester.installCommand = .ok (Package.scriptCommand s) ∧ pester.ReadAsPlanned s := by
  have hp : pester ∈ packagesOf [] "Install-Module Pester -Repository PSGallery".toList {} := by
    decide
  obtain ⟨s, hcommand, hread⟩ := exists_script_readAsPlanned_iff hp (Or.inl rfl)
  exact ⟨hp, rfl, s, hcommand, hread.mpr ⟨any_eq_false_iff.mp (by decide),
    any_eq_false_iff.mp (by decide), any_eq_false_iff.mp (by decide)⟩⟩

/-- A package that is downloaded from an address with two typographic quotes. -/
def quotedBundle : Package where
  name := "Sideloaded App".toList
  id := "https://e.org/a’;calc;’b.msix".toList
  installer := .sideload
  script := []

/-- A module from a repository, where another call is joined to the one that installs it. -/
def joinedModule : Package :=
  { pester with extraArgs := "-Repository PSGallery;Import-Module".toList }

/-- Scripts are not always read as planned. What stands between two typographic quotes of an address
becomes a statement of its own, and the repository of a module takes the end of its statement along,
and what follows it. -/
theorem exists_not_readAsPlanned :
    (quotedBundle ∈ packagesOf []
        "Invoke-WebRequest https://e.org/a’;calc;’b.msix\nAdd-AppxPackage a".toList {} ∧
      ¬ quotedBundle.ReadAsPlanned quotedBundle.sideloadScript ∧
      ∃ parts ∈ parts? quotedBundle.sideloadScript, code "calc".toList ∈ statements parts) ∧
    joinedModule ∈ packagesOf []
        "Install-Module Pester -Repository PSGallery;Import-Module Pester".toList {} ∧
      ¬ joinedModule.ReadAsPlanned joinedModule.moduleScript ∧
      ∃ parts ∈ parts? joinedModule.moduleScript,
        code "Import-Module".toList ∈ statements parts := by
  have hquoted : ¬ quotedBundle.ReadAsPlanned quotedBundle.sideloadScript := by
    rw [Package.readAsPlanned_sideloadScript_iff rfl (by decide), ← any_eq_false_iff]
    decide
  have hjoined : ¬ joinedModule.ReadAsPlanned joinedModule.moduleScript := by
    rw [Package.readAsPlanned_moduleScript_iff rfl (any_eq_false_iff.mp (by decide)),
      ← any_eq_false_iff, ← any_eq_false_iff]
    decide
  refine ⟨⟨by decide +kernel, hquoted, ?_⟩, by decide +kernel, hjoined, ?_⟩
  · decide +kernel
  · decide +kernel

end SetupCatalog
