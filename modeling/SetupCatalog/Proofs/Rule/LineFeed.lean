import SetupCatalog.Proofs.Rule.Shape

/-!
# No field brings a line feed

A scope is a word of the script or the default, and the arguments that a module keeps are words with
single spaces between them. So apart from the name of the script, which a rule is told, the fields
of a record have line feeds only if the default scope has (`lineFeed_not_mem_scope`,
`lineFeed_not_mem_extraArgs`).
-/

namespace SetupCatalog

open Text Pattern Script

/-! ## Scopes -/

/-- A scope is the default or consists of word characters. -/
theorem Script.scopeOf_eq_or (arguments default : Text) :
    scopeOf arguments default = default ∨
      ∀ c ∈ scopeOf arguments default, isWord c = true := by
  rw [scopeOf]
  cases hscope : scopeFlag.find? arguments with
  | none => exact Or.inl rfl
  | some scope =>
    obtain ⟨before, rest, after, -, hread, -⟩ := find?_eq_some_iff.mp hscope
    simp only [scopeFlag, bind, Option.bind_eq_some_iff] at hread
    obtain ⟨t, -, t', -, hword⟩ := hread
    exact Or.inr (of_someOf_eq_some hword).2.1

/-- A scope has a line feed only from the default. -/
theorem Script.lineFeed_not_mem_scopeOf {default : Text} (h : '\n' ∉ default) (arguments : Text) :
    '\n' ∉ scopeOf arguments default := by
  rcases scopeOf_eq_or arguments default with hdefault | hword
  · rw [hdefault]
    exact h
  · intro hmem
    exact absurd (hword '\n' hmem) (by decide)

/-- A consumer's scope has a line feed only from the default. -/
theorem Script.lineFeed_not_mem_consumerIn {default : Text} (h : '\n' ∉ default) (window : Text) :
    '\n' ∉ (consumerIn window default).scope := by
  unfold consumerIn
  cases wingetCall.find? window with
  | some arguments =>
    dsimp only
    split
    · exact h
    · exact lineFeed_not_mem_scopeOf h arguments
  | none =>
    dsimp only
    split
    · exact h
    · split
      · exact h
      · exact h

/-- The scope of a container's consumer has a line feed only from the default. -/
theorem Script.lineFeed_not_mem_consumerOf {options : ScanOptions}
    (h : '\n' ∉ options.defaultScope) (name text : Text) :
    '\n' ∉ (consumerOf name text options).scope := by
  unfold consumerOf
  split
  · exact lineFeed_not_mem_consumerIn h _
  · exact h

namespace Rule

/-- The scope of a record has a line feed only if the default scope has. -/
theorem lineFeed_not_mem_scope {rule : Rule} {options : ScanOptions} {script text : Text}
    {p : Package} (h : '\n' ∉ options.defaultScope)
    (hp : p ∈ rule.candidates options script text) : '\n' ∉ p.scope := by
  -- only two rules set a scope; each reads it as one word or takes the default
  cases rule with
  | container =>
    obtain ⟨b, line, value, -, -, rfl⟩ := Container.mem_candidates_iff.mp hp
    exact lineFeed_not_mem_consumerOf h _ _
  | pipedArray =>
    obtain ⟨hit, -, -, installer, -, value, -, rfl⟩ := PipedArray.mem_candidates_iff.mp hp
    exact List.not_mem_nil
  | choco =>
    obtain ⟨line, -, arguments, -, name, -, rfl⟩ := Choco.mem_candidates_iff.mp hp
    exact List.not_mem_nil
  | winget =>
    obtain ⟨line, -, arguments, -, id, -, rfl⟩ := Winget.mem_candidates_iff.mp hp
    exact lineFeed_not_mem_scopeOf h arguments
  | psModule =>
    obtain ⟨line, -, -, arguments, -, name, -, rfl⟩ := PsModule.mem_candidates_iff.mp hp
    exact List.not_mem_nil
  | sideload =>
    obtain ⟨hit, -, rfl⟩ := Sideload.mem_candidates_iff.mp hp
    exact List.not_mem_nil

/-! ## Arguments -/

/-- A kept argument is written with no blanks but single spaces. -/
theorem PsModule.eq_space_of_mem_keptArguments {arguments : Text} {c : Char}
    (h : c ∈ keptArguments arguments) : c = ' ' ∨ isBlank c = false := by
  rcases mem_of_mem_joined h with h | ⟨argument, hargument, hc⟩
  · exact Or.inl (List.mem_singleton.mp h)
  -- the flag and the parameter have one space between their parts and no other blank
  rcases List.mem_append.mp hargument with hprerelease | hrepository
  · have hflag : ∀ d ∈ "-AllowPrerelease".toList, isBlank d = false :=
      any_eq_false_iff.mp (by decide)
    split at hprerelease
    · obtain rfl := List.mem_singleton.mp hprerelease
      exact Or.inr (hflag c hc)
    · cases hprerelease
  · obtain ⟨repository, hfound, rfl⟩ := Option.map_eq_some_iff.mp (Option.mem_toList.mp hrepository)
    rcases List.mem_append.mp hc with hc | hc
    · have hflag : "-Repository ".toList.all (fun d => d == ' ' || !isBlank d) = true := by decide
      simpa using List.all_eq_true.mp hflag c hc
    · obtain ⟨before, rest, after, -, hread, -⟩ := find?_eq_some_iff.mp hfound
      simp only [repositoryParameter, bind, Option.bind_eq_some_iff] at hread
      obtain ⟨-, -, t, -, t', -, hname⟩ := hread
      have hchar := (of_someOf_eq_some hname).2.1 c hc
      rw [isRepositoryChar, Bool.and_eq_true, Bool.not_eq_true'] at hchar
      exact Or.inr hchar.1

/-- The arguments of a record have no line feed. -/
theorem lineFeed_not_mem_extraArgs {rule : Rule} {options : ScanOptions} {script text : Text}
    {p : Package} (hp : p ∈ rule.candidates options script text) : '\n' ∉ p.extraArgs := by
  have hshape := (shape_of_mem_candidates hp).2
  cases rule with
  | psModule =>
    obtain ⟨line, -, -, arguments, -, name, -, rfl⟩ := PsModule.mem_candidates_iff.mp hp
    intro hmem
    rcases PsModule.eq_space_of_mem_keptArguments hmem with hspace | hblank
    · exact absurd hspace (by decide)
    · exact absurd hblank (by decide)
  -- no other rule keeps arguments
  | container => exact hshape ▸ List.not_mem_nil
  | pipedArray => exact hshape.2.2 ▸ List.not_mem_nil
  | choco => exact hshape.2.2 ▸ List.not_mem_nil
  | winget => exact hshape.2.2 ▸ List.not_mem_nil
  | sideload => exact hshape ▸ List.not_mem_nil

/-- The identity of a record has no line feed. -/
theorem lineFeed_not_mem_id {rule : Rule} {options : ScanOptions} {script text : Text}
    {p : Package} (hp : p ∈ rule.candidates options script text) : '\n' ∉ p.id := by
  intro hmem
  exact absurd ((legible_of_mem_candidates hp).2.oneLine '\n' hmem) (by decide)

end Rule

end SetupCatalog
