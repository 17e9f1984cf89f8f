import Mathlib.Data.List.SplitBy
import SetupCatalog.Proofs.Catalog.Independence
import SetupCatalog.Proofs.Command.LineFeed
import SetupCatalog.Proofs.Rule.LineFeed
import SetupCatalog.Report.Plan

/-!
# Plans can be read back

A plan is written line after line, and a reader has nothing but the text. Two things make it
readable again. The lines have no line feeds of their own, so that cutting the plan at line feeds
gives the lines back (`pieces_render`). And they stand in groups, one for each run of packages of
one script, with an empty line between groups (`linesAfter_eq_runs`).

`pieces_render_build` is the main statement, about the plan of a catalog: every package has a
command there, and a shell reads exactly this command from the line of the package.
-/

namespace SetupCatalog

/-! ## Command lines -/

/-- A written word has a first character, which is not a hash sign. -/
theorem Shell.head?_word (w : Text) : ∃ c, (Shell.word w).head? = some c ∧ c ≠ '#' := by
  rw [Shell.word]
  split
  · next h =>
    cases w with
    | nil => cases h
    | cons c w =>
      have hharmless : Shell.isHarmless c = true := by
        rw [Bool.and_eq_true, List.all_eq_true] at h
        exact h.2 c List.mem_cons_self
      refine ⟨c, rfl, ?_⟩
      rintro rfl
      exact absurd hharmless (by decide)
  · exact ⟨'\'', rfl, by decide⟩

/-- No command line is a comment. -/
theorem Shell.head?_line_ne (words : List Text) : (Shell.line words).head? ≠ some '#' := by
  rw [Shell.line]
  cases words with
  | nil => exact Option.some_ne_none _ ∘ Eq.symm
  | cons w words =>
    obtain ⟨c, hc, hne⟩ := Shell.head?_word w
    rw [List.map_cons, Text.joined_cons, List.head?_append, hc]
    exact fun h => hne (Option.some.inj h)

namespace Plan

open Text

/-! ## Runs -/

/-- Whether a package and the next one are of the same script. -/
def sameScript (p next : Package) : Bool :=
  p.script == next.script

/-- The runs of a list of packages: the longest stretches of neighbours of one script. -/
def runs (packages : List Package) : List (List Package) :=
  packages.splitBy sameScript

/-- The lines of a run: a header with the script, and the command line of each package. -/
def runLines : List Package → List Text
  | [] => []
  | p :: ps => ("# ".toList ++ p.script) :: commandLine p :: ps.map commandLine

/-- Packages that follow one another within one script are all of one script. -/
theorem script_eq_of_isChain {p : Package} {ps : List Package}
    (h : (p :: ps).IsChain fun q next => sameScript q next = true) :
    ∀ q ∈ p :: ps, q.script = p.script := by
  induction ps generalizing p with
  | nil =>
    intro q hq
    rw [List.mem_singleton.mp hq]
  | cons next ps ih =>
    obtain ⟨hsame, hrest⟩ := List.isChain_cons_cons.mp h
    have hnext : p.script = next.script := beq_iff_eq.mp hsame
    intro q hq
    rcases List.mem_cons.mp hq with rfl | hq
    · rfl
    · rw [ih hrest q hq, hnext]

/-- All packages of a run are of one script. -/
theorem script_eq_of_mem_runs {packages run : List Package} (h : run ∈ runs packages)
    {p q : Package} (hp : p ∈ run) (hq : q ∈ run) : p.script = q.script := by
  have hchain := List.isChain_of_mem_splitBy h
  cases run with
  | nil => cases hp
  | cons r run =>
    have hscript := script_eq_of_isChain hchain
    rw [hscript p hp, hscript q hq]

/-- Neighbouring runs are of different scripts. -/
theorem isChain_runs (packages : List Package) :
    (runs packages).IsChain fun run next => ∀ p ∈ run, ∀ q ∈ next, p.script ≠ q.script := by
  have hchain := List.isChain_getLast_head_splitBy sameScript packages
  refine hchain.imp_of_mem_imp fun run next hrun hnext hdiffer p hp q hq heq => ?_
  obtain ⟨hr, hn, hdiffer⟩ := hdiffer
  have hlast := script_eq_of_mem_runs hrun (List.getLast_mem hr) hp
  have hhead := script_eq_of_mem_runs hnext (List.head_mem hn) hq
  rw [sameScript, hlast, heq, hhead, beq_self_eq_true] at hdiffer
  cases hdiffer

/-! ## Lines of runs -/

/-- Inside a run there are command lines only. -/
theorem linesAfter_append_of_script_eq {script : Text} {ps : List Package}
    (h : ∀ p ∈ ps, p.script = script) (rest : List Package) :
    linesAfter (some script) (ps ++ rest) =
      ps.map commandLine ++ linesAfter (some script) rest := by
  induction ps with
  | nil => rfl
  | cons p ps ih =>
    have hp : p.script = script := h p List.mem_cons_self
    have hps := ih fun q hq => h q (List.mem_cons_of_mem p hq)
    rw [List.cons_append, linesAfter, hp, header, if_pos rfl, hps, List.nil_append, List.map_cons,
      List.cons_append]

/-- The lines of packages that stand in runs, where the first of them does not go on with the script
before it: the lines of the runs, with an empty line between runs and before them if there is a
script before. -/
theorem linesAfter_flatten {current : Option Text} {stretches : List (List Package)}
    (hne : [] ∉ stretches)
    (hrun : ∀ run ∈ stretches, run.IsChain fun p next => sameScript p next = true)
    (hnext : stretches.IsChain fun run next =>
      ∃ hr hn, sameScript (run.getLast hr) (next.head hn) = false)
    (hfirst : ∀ p ∈ stretches.flatten.head?, current ≠ some p.script) :
    linesAfter current stretches.flatten =
      (if current.isSome ∧ stretches ≠ [] then [[]] else []) ++
        [[]].intercalate (stretches.map runLines) := by
  induction stretches generalizing current with
  | nil => simp [linesAfter]
  | cons run stretches ih =>
    cases run with
    | nil => exact absurd List.mem_cons_self hne
    | cons p ps =>
      have hscript := script_eq_of_isChain (hrun _ List.mem_cons_self)
      have hps : ∀ q ∈ ps, q.script = p.script := fun q hq =>
        hscript q (List.mem_cons_of_mem p hq)
      have hp : current ≠ some p.script := hfirst p rfl
      -- the next run starts with another script than this one ends with
      have hother : ∀ q ∈ stretches.flatten.head?, some p.script ≠ some q.script := by
        intro q hq heq
        cases stretches with
        | nil => cases hq
        | cons next stretches =>
          obtain ⟨⟨hr, hn, hdiffer⟩, -⟩ := List.isChain_cons_cons.mp hnext
          have hlast := hscript _ (List.getLast_mem hr)
          have hq' : next.head hn = q := by
            cases next with
            | nil => exact absurd rfl hn
            | cons r next => exact Option.some.inj hq
          rw [sameScript, hlast, hq', Option.some.inj heq, beq_self_eq_true] at hdiffer
          cases hdiffer
      have hrest := ih (fun h => hne (List.mem_cons_of_mem _ h))
        (fun run h => hrun run (List.mem_cons_of_mem _ h)) hnext.tail hother
      rw [List.flatten_cons, List.cons_append, linesAfter, linesAfter_append_of_script_eq hps,
        hrest, header, if_neg hp]
      cases stretches with
      | nil => simp [runLines]
      | cons next stretches =>
        simp [runLines, List.intercalate_cons_cons]

/-- The lines of a plan are those of its runs, with an empty line between runs. -/
theorem linesAfter_eq_runs (packages : List Package) :
    linesAfter none packages = [[]].intercalate ((runs packages).map runLines) := by
  have hlines : linesAfter none (runs packages).flatten =
      (if (none : Option Text).isSome ∧ runs packages ≠ [] then [[]] else []) ++
        [[]].intercalate ((runs packages).map runLines) :=
    linesAfter_flatten (List.nil_notMem_splitBy sameScript packages)
      (fun _ hrun => List.isChain_of_mem_splitBy hrun)
      (List.isChain_getLast_head_splitBy sameScript packages)
      (fun _ _ h => absurd h (Option.some_ne_none _).symm)
  rw [runs, List.flatten_splitBy] at hlines
  rw [hlines, if_neg (fun h => absurd h.1 Bool.false_ne_true), List.nil_append, runs]

/-! ## Lines -/

/-- The command line of a package has no line feed if the fields have none that are written into
its command. -/
theorem lineFeed_not_mem_commandLine {p : Package} (hcommand : ∃ ws, p.installCommand = .ok ws)
    (hid : '\n' ∉ p.id) (hscope : '\n' ∉ p.scope) (hextra : '\n' ∉ p.extraArgs) :
    '\n' ∉ commandLine p := by
  obtain ⟨ws, hws⟩ := hcommand
  rw [commandLine, hws]
  exact Shell.lineFeed_not_mem_line (Package.lineFeed_not_mem_installCommand hid hscope hextra hws)

/-- Every line of a plan is empty, a header or the command line of a package. -/
theorem eq_or_of_mem_linesAfter {current : Option Text} {packages : List Package} {line : Text}
    (h : line ∈ linesAfter current packages) :
    line = [] ∨ ∃ p ∈ packages, line = "# ".toList ++ p.script ∨ line = commandLine p := by
  induction packages generalizing current with
  | nil => cases h
  | cons p ps ih =>
    -- the lines of a package are its header, if it has one, and its command
    rcases List.mem_append.mp h with hheader | hline
    · rw [header] at hheader
      split at hheader
      · cases hheader
      rcases List.mem_append.mp hheader with hempty | htitle
      · split at hempty
        · exact Or.inl (List.mem_singleton.mp hempty)
        · cases hempty
      · exact Or.inr ⟨p, List.mem_cons_self, Or.inl (List.mem_singleton.mp htitle)⟩
    · rcases List.mem_cons.mp hline with rfl | hline
      · exact Or.inr ⟨p, List.mem_cons_self, Or.inr rfl⟩
      · rcases ih hline with hempty | ⟨q, hq, hline⟩
        · exact Or.inl hempty
        · exact Or.inr ⟨q, List.mem_cons_of_mem p hq, hline⟩

/-- Every line with a hash sign at its start is a header if all packages have a command. -/
theorem exists_header_of_mem_linesAfter {packages : List Package} {line : Text}
    (hcommand : ∀ p ∈ packages, ∃ words, p.installCommand = .ok words) {current : Option Text}
    (h : line ∈ linesAfter current packages) (hhash : line.head? = some '#') :
    ∃ p ∈ packages, line = "# ".toList ++ p.script := by
  rcases eq_or_of_mem_linesAfter h with rfl | ⟨p, hp, hheader | rfl⟩
  · cases hhash
  · exact ⟨p, hp, hheader⟩
  · obtain ⟨words, hwords⟩ := hcommand p hp
    rw [commandLine, hwords] at hhash
    exact absurd hhash (Shell.head?_line_ne words)

/-- The lines of a plan come back if no script and no command line has a line feed. -/
theorem pieces_render {packages : List Package}
    (hscript : ∀ p ∈ packages, '\n' ∉ p.script) (hline : ∀ p ∈ packages, '\n' ∉ commandLine p) :
    pieces '\n' (render packages) = linesAfter none packages ++ [[]] := by
  rw [render, pieces_flatMap_sep]
  intro line hmem
  rcases eq_or_of_mem_linesAfter hmem with rfl | ⟨p, hp, rfl | rfl⟩
  · exact List.not_mem_nil
  · exact List.not_mem_append (by decide) (hscript p hp)
  · exact hline p hp

/-! ## Plans of catalogs -/

/-- What is known of a package of a catalog: it is sound for one of the scripts, and no field that
is written into its command has a line feed if the default scope has none. -/
theorem exists_source_of_mem_build {sources : List Source} {options : ScanOptions} {p : Package}
    (h : p ∈ (Catalog.build sources options).packages) :
    ∃ s ∈ sources, p.Sound s.name ∧ '\n' ∉ p.id ∧ '\n' ∉ p.extraArgs ∧
      ('\n' ∉ options.defaultScope → '\n' ∉ p.scope) := by
  rw [Catalog.build_eq] at h
  obtain ⟨s, hs, hp⟩ := List.mem_flatMap.mp h
  rw [packagesOf_eq] at hp
  obtain ⟨rule, -, hp⟩ := List.mem_flatMap.mp (mem_newPackages hp).1
  exact ⟨s, hs, Rule.sound_of_mem_candidates hp, Rule.lineFeed_not_mem_id hp,
    Rule.lineFeed_not_mem_extraArgs hp, fun hscope => Rule.lineFeed_not_mem_scope hscope hp⟩

/-- Every package of a catalog has a command, and neither line of the package has a line feed. -/
theorem exists_command_of_mem_build {sources : List Source} {options : ScanOptions}
    (hnames : ∀ s ∈ sources, '\n' ∉ s.name) (hscope : '\n' ∉ options.defaultScope) {p : Package}
    (h : p ∈ (Catalog.build sources options).packages) :
    (∃ words, p.installCommand = .ok words) ∧ '\n' ∉ p.script ∧ '\n' ∉ commandLine p := by
  obtain ⟨s, hs, hsound, hid, hextra, hfield⟩ := exists_source_of_mem_build h
  have hcommand := hsound.exists_installCommand
  exact ⟨hcommand, hsound.script_eq ▸ hnames s hs,
    lineFeed_not_mem_commandLine hcommand hid (hfield hscope) hextra⟩

/-- **A plan can be read back.** Let no script of a catalog have a line feed in its name, nor the
default scope. Cut at line feeds, the plan of the catalog is the lines of its runs: for each run a
header with the script and then the command lines of its packages, with an empty line between runs
and nothing after the last line feed. The runs are the packages of the catalog, in their order, and
neighbouring runs are of different scripts. Every package has an install command, and a shell reads
exactly this command from the line of the package. No line reports a package without a command: a
line that looks so is a header. The plan of an empty catalog is empty. -/
theorem pieces_render_build {sources : List Source} {options : ScanOptions}
    (hnames : ∀ s ∈ sources, '\n' ∉ s.name) (hscope : '\n' ∉ options.defaultScope) :
    let packages := (Catalog.build sources options).packages
    pieces '\n' (render packages) =
        [[]].intercalate ((runs packages).map runLines) ++ [[]] ∧
      (runs packages).flatten = packages ∧
      (∀ run ∈ runs packages, run ≠ [] ∧ ∀ p ∈ run, ∀ q ∈ run, p.script = q.script) ∧
      (runs packages).IsChain (fun run next => ∀ p ∈ run, ∀ q ∈ next, p.script ≠ q.script) ∧
      (∀ p ∈ packages, ∃ words, p.installCommand = .ok words ∧
        Shell.words? (commandLine p) = some words) ∧
      (∀ line ∈ pieces '\n' (render packages), "# skipped:".toList <+: line →
        ∃ p ∈ packages, line = "# ".toList ++ p.script) ∧
      (packages = [] → render packages = []) := by
  intro packages
  have hcommand : ∀ p ∈ packages, ∃ words, p.installCommand = .ok words := fun p hp =>
    (exists_command_of_mem_build hnames hscope hp).1
  have hlines : pieces '\n' (render packages) = linesAfter none packages ++ [[]] :=
    pieces_render (fun p hp => (exists_command_of_mem_build hnames hscope hp).2.1)
      fun p hp => (exists_command_of_mem_build hnames hscope hp).2.2
  refine ⟨?_, List.flatten_splitBy sameScript packages, fun run hrun => ⟨?_, ?_⟩,
    isChain_runs packages, fun p hp => ?_, fun line hline hskipped => ?_, fun h => ?_⟩
  · rw [hlines, linesAfter_eq_runs]
  · exact ne_of_mem_of_not_mem hrun (List.nil_notMem_splitBy sameScript packages)
  · exact fun p hp q hq => script_eq_of_mem_runs hrun hp hq
  · obtain ⟨words, hwords⟩ := hcommand p hp
    refine ⟨words, hwords, ?_⟩
    rw [commandLine, hwords]
    exact Shell.words?_line words
  · -- an empty line and a command do not start with a hash sign, so such a line is a header
    have hhash : line.head? = some '#' := by
      obtain ⟨rest, rfl⟩ := hskipped
      rfl
    rw [hlines, List.mem_append, List.mem_singleton] at hline
    rcases hline with hline | rfl
    · exact exists_header_of_mem_linesAfter hcommand hline hhash
    · cases hhash
  · rw [h]
    rfl

/-- Two scripts, one of which installs a module and so needs quotes within quotes. -/
def pair : List Source :=
  [⟨"a.ps1".toList, "choco install git".toList⟩, ⟨"b.ps1".toList, "Install-Module Pester".toList⟩]

/-- The plan of two scripts, line by line. -/
theorem pieces_render_pair :
    (∀ s ∈ pair, '\n' ∉ s.name) ∧ '\n' ∉ ({} : ScanOptions).defaultScope ∧
      pieces '\n' (render (Catalog.build pair {}).packages) =
        ["# a.ps1".toList,
          "choco install git -y --no-progress".toList,
          [],
          "# b.ps1".toList,
          ("pwsh -NoProfile -NonInteractive -Command 'Install-Module -Name '\"'\"'Pester'\"'\"' " ++
            "-Force -AllowClobber -Scope AllUsers'").toList,
          []] := by
  have hnames : ∀ s ∈ pair, '\n' ∉ s.name := by decide
  have hscope : '\n' ∉ ({} : ScanOptions).defaultScope := by decide
  obtain ⟨hlines, -⟩ := pieces_render_build hnames hscope
  refine ⟨hnames, hscope, hlines.trans ?_⟩
  decide +kernel

end Plan

end SetupCatalog
