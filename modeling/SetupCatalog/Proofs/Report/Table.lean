import SetupCatalog.Proofs.Report.Grouping
import SetupCatalog.Proofs.Text.Piece

/-!
# Tables are read back

The values in a Markdown report may have bars, backslashes, blanks and line breaks in them.
`Table.read?` takes the lines of a table apart as a reader of Markdown does, and knows nothing of
how they were written. `lines_markdown` says that the lines of a report have, one after the other, a
table for each script in them, that each table has one line for each package of its script, and that
every value is read back, with spaces for its line feeds.

What carries this is that a written value brings no line feed into its line
(`lineFeed_not_mem_cell`), and no bar that would end its cell (`readRow_rowLine`). Of the names of
the scripts, which stand outside the tables, only the first has to be asked for.
-/

namespace SetupCatalog.Report

open Text

/-! ## Tables and their lines -/

/-- The table of a script. -/
structure Table where
  /-- The script. -/
  script : Text
  /-- The headings of the columns. -/
  headings : List Text
  /-- The values of each row. -/
  rows : List (List Text)
  deriving DecidableEq, Repr

/-- Reads a table from its lines: the script, an empty line, the headings, a line under them, the
rows, and nothing after the last line feed. -/
def Table.read? : List Text → Option Table
  | title :: [] :: head :: _ :: below =>
    if below.getLast? = some [] then do
      let script ← dropPrefix? "## ".toList title
      let headings ← readRow head
      let rows ← below.dropLast.mapM readRow
      return ⟨script, headings, rows⟩
    else none
  | _ => none

/-- What the row of a package shows: its name, its identity between backticks, its installer, its
scope or a hyphen if there is a column for it, its status and its note. Line feeds have become
spaces. -/
def shownValues (scopeColumn : Bool) (o : Outcome) : List Text :=
  let scope := if o.package.scope = [] then "-".toList else onOneLine o.package.scope
  [onOneLine o.package.name, "\x60".toList ++ onOneLine o.package.id ++ "\x60".toList,
    o.package.installer.name] ++
    (if scopeColumn then [scope] else []) ++ [o.status.name, onOneLine o.note]

/-- The table that a report has for a script. -/
def tableOf (scopeColumn : Bool) (outcomes : List Outcome) (script : Text) : Table where
  script := script
  headings := headings scopeColumn
  rows := (ofScript outcomes script).map (shownValues scopeColumn)

/-- A row has as many values as the table has headings. -/
theorem length_shownValues (scopeColumn : Bool) (o : Outcome) :
    (shownValues scopeColumn o).length = (headings scopeColumn).length := by
  cases scopeColumn <;> rfl

/-! ## Values on one line -/

/-- Two texts are put on one line one after the other. -/
theorem onOneLine_append (t u : Text) : onOneLine (t ++ u) = onOneLine t ++ onOneLine u :=
  List.map_append

/-- The name of an installer is on one line. -/
theorem onOneLine_name_installer (i : Installer) : onOneLine i.name = i.name := by
  cases i <;> rfl

/-- So is that of a status. -/
theorem onOneLine_name_status (s : Status) : onOneLine s.name = s.name := by
  cases s <;> rfl

/-- The values of a row are those that it shows. -/
theorem map_onOneLine_rowValues (scopeColumn : Bool) (o : Outcome) :
    (rowValues scopeColumn o).map onOneLine = shownValues scopeColumn o := by
  have hid : onOneLine ('\x60' :: o.package.id ++ ['\x60']) =
      "\x60".toList ++ onOneLine o.package.id ++ "\x60".toList := by
    rw [List.cons_append, ← List.singleton_append, onOneLine_append, onOneLine_append]
    exact (List.append_assoc _ _ _).symm
  have hscope : onOneLine (if o.package.scope.isEmpty then ['-'] else o.package.scope) =
      if o.package.scope = [] then "-".toList else onOneLine o.package.scope := by
    cases o.package.scope <;> rfl
  cases scopeColumn with
  | true =>
    simp only [rowValues, shownValues, if_true, List.map_append, List.map_cons, List.map_nil, hid,
      hscope, onOneLine_name_installer, onOneLine_name_status]
  | false =>
    simp only [rowValues, shownValues, Bool.false_eq_true, if_false, List.map_append, List.map_cons,
      List.map_nil, hid, onOneLine_name_installer, onOneLine_name_status]

/-- A written value brings no line feed into its line. -/
theorem lineFeed_not_mem_cell (value : Text) : '\n' ∉ cell value := by
  intro h
  obtain ⟨c, -, hc⟩ := List.mem_flatMap.mp h
  unfold cellChar at hc
  split at hc
  · simp at hc
  · split at hc
    · simp at hc
    · next hne => exact hne (List.mem_singleton.mp hc).symm

/-- A row is on one line if its cells are. -/
theorem lineFeed_not_mem_rowLine {cells : List Text} (h : ∀ c ∈ cells, '\n' ∉ c) :
    '\n' ∉ rowLine cells := by
  unfold rowLine
  rw [List.mem_append, List.mem_append, not_or, not_or]
  refine ⟨⟨by decide, fun hmem => ?_⟩, by decide⟩
  rcases mem_of_mem_joined hmem with hsep | ⟨c, hc, hmem⟩
  · exact absurd hsep (by decide)
  · exact h c hc hmem

/-! ## The section of a script -/

/-- The line between the head of a table and its rows, up to its line feed. -/
def ruleLine (headings : List Text) : Text :=
  headings.flatMap (fun h => '|' :: List.replicate (h.length + 2) '-') ++ ['|']

/-- The line of a package in a table. -/
def packageLine (scopeColumn : Bool) (o : Outcome) : Text :=
  rowLine ((rowValues scopeColumn o).map cell)

/-- The lines of the section of a script. -/
def sectionLines (scopeColumn : Bool) (script : Text) (group : List Outcome) : List Text :=
  ("## ".toList ++ script) :: [] :: rowLine (headings scopeColumn) ::
    ruleLine (headings scopeColumn) :: group.map (packageLine scopeColumn)

/-- A row is its line with a line feed. -/
theorem rowOf_eq (cells : List Text) : rowOf cells = rowLine cells ++ ['\n'] := by
  rw [rowOf, rowLine, List.append_assoc _ " |".toList]
  rfl

/-- So is the rule below the headings. -/
theorem rule_eq (headings : List Text) : rule headings = ruleLine headings ++ ['\n'] := by
  rw [rule, ruleLine, List.append_assoc _ ['|']]
  rfl

/-- The section of a script is its lines, each with a line feed. -/
theorem scriptSection_eq (scopeColumn : Bool) (script : Text) (group : List Outcome) :
    scriptSection scopeColumn script group =
      (sectionLines scopeColumn script group).flatMap fun line => line ++ ['\n'] := by
  have hrow : row scopeColumn = fun o => packageLine scopeColumn o ++ ['\n'] :=
    funext fun o => rowOf_eq _
  simp [scriptSection, sectionLines, tableHead, rowOf_eq, rule_eq, hrow, List.flatMap_map]

/-- No line of a section has a line feed in it. -/
theorem lineFeed_not_mem_sectionLines {script : Text} (hscript : '\n' ∉ script)
    (scopeColumn : Bool) (group : List Outcome) :
    ∀ line ∈ sectionLines scopeColumn script group, '\n' ∉ line := by
  intro line hline
  simp only [sectionLines, List.mem_cons, List.mem_map] at hline
  rcases hline with rfl | rfl | rfl | rfl | ⟨o, -, rfl⟩
  · rw [List.mem_append, not_or]
    exact ⟨by decide, hscript⟩
  · exact List.not_mem_nil
  · cases scopeColumn <;> decide
  · cases scopeColumn <;> decide
  · apply lineFeed_not_mem_rowLine
    intro c hc
    obtain ⟨value, -, rfl⟩ := List.mem_map.mp hc
    exact lineFeed_not_mem_cell value

/-- The section of a script falls into its lines. -/
theorem pieces_scriptSection {script : Text} (hscript : '\n' ∉ script) (scopeColumn : Bool)
    (group : List Outcome) :
    pieces '\n' (scriptSection scopeColumn script group) =
      sectionLines scopeColumn script group ++ [[]] := by
  rw [scriptSection_eq]
  exact pieces_flatMap_sep (lineFeed_not_mem_sectionLines hscript scopeColumn group)

/-- The line of a package shows its values. -/
theorem readRow_packageLine (scopeColumn : Bool) (o : Outcome) :
    readRow (packageLine scopeColumn o) = some (shownValues scopeColumn o) := by
  rw [← map_onOneLine_rowValues]
  exact readRow_rowLine _ _

/-- The row with the headings is read back. -/
theorem readRow_headings (scopeColumn : Bool) :
    readRow (rowLine (headings scopeColumn)) = some (headings scopeColumn) := by
  cases scopeColumn <;> decide

/-- The table of a script is read from the lines of its section. -/
theorem read?_sectionLines (scopeColumn : Bool) (script : Text) (group : List Outcome) :
    Table.read? (sectionLines scopeColumn script group ++ [[]]) =
      some ⟨script, headings scopeColumn, group.map (shownValues scopeColumn)⟩ := by
  have htitle : dropPrefix? "## ".toList ("## ".toList ++ script) = some script := rfl
  have hread : readRow ∘ packageLine scopeColumn = fun o => some (shownValues scopeColumn o) :=
    funext (readRow_packageLine scopeColumn)
  have hrows : (group.map (packageLine scopeColumn)).mapM readRow =
      some (group.map (shownValues scopeColumn)) := by
    rw [List.mapM_map, hread]
    exact List.mapM_pure
  simp only [sectionLines, List.cons_append, Table.read?, List.getLast?_concat, if_true, htitle,
    readRow_headings, List.dropLast_concat, hrows, bind, Option.bind_some]
  rfl

/-! ## The report -/

/-- The lines of a report are those of its sections. -/
theorem pieces_markdown (outcomes : List Outcome) (remarks : List Text)
    (options : MarkdownOptions) :
    pieces '\n' (markdown outcomes remarks options) =
      (sections outcomes remarks options).flatMap (pieces '\n') := by
  rw [markdown, sections, List.append_assoc, List.append_assoc, List.singleton_append]
  exact pieces_joined_cons _ _ _

/-- The sections with the tables stand one after the other. -/
theorem exists_sections_eq (outcomes : List Outcome) (remarks : List Text)
    (options : MarkdownOptions) :
    ∃ before after, sections outcomes remarks options = before ++
      ((scriptsOf outcomes).map fun script =>
        scriptSection options.scopeColumn script (ofScript outcomes script)) ++ after := by
  cases outcomes with
  | nil => exact ⟨sections [] remarks options, [], by simp [scriptsOf]⟩
  | cons o outcomes =>
    rw [sections, byScript_eq, groupsOf, List.map_map]
    exact ⟨_, _, rfl⟩

/-- **Tables are read back.** The lines of a report have, one after the other, the lines of a table
for each script, the scripts in the order in which they first occur. Each table is read back from
its lines: it has a row for each package of its script and no other, in their order, every row has
as many values as there are headings, and the values are those of the package. -/
theorem lines_markdown {outcomes : List Outcome}
    (hscripts : ∀ o ∈ outcomes, '\n' ∉ o.package.script) (remarks : List Text)
    (options : MarkdownOptions) :
    ∃ (before after : List Text) (tables : List (List Text)),
      pieces '\n' (markdown outcomes remarks options) = before ++ tables.flatten ++ after ∧
      tables.map Table.read? = (outcomes.map fun o => o.package.script).eraseDups.map (fun script =>
        some (tableOf options.scopeColumn outcomes script)) ∧
      ∀ script, ∀ row ∈ (tableOf options.scopeColumn outcomes script).rows,
        row.length = (headings options.scopeColumn).length := by
  obtain ⟨before, after, hsections⟩ := exists_sections_eq outcomes remarks options
  -- the tables are the middle sections, one for each script
  refine ⟨before.flatMap (pieces '\n'), after.flatMap (pieces '\n'),
    (scriptsOf outcomes).map fun script =>
      pieces '\n' (scriptSection options.scopeColumn script (ofScript outcomes script)), ?_, ?_, ?_⟩
  · rw [pieces_markdown, hsections, List.flatMap_append, List.flatMap_append, List.flatMap_map,
      ← List.flatMap_def]
  · rw [List.map_map]
    apply List.map_congr_left
    intro script hscript
    obtain ⟨o, ho, rfl⟩ := List.mem_map.mp (List.mem_eraseDups.mp hscript)
    rw [Function.comp_apply, pieces_scriptSection (hscripts o ho), read?_sectionLines]
    rfl
  · intro script row hrow
    obtain ⟨o, -, rfl⟩ := List.mem_map.mp hrow
    exact length_shownValues options.scopeColumn o

/-- Packages of two scripts, mixed, with bars, backslashes and line feeds in their values. -/
def barOutcomes : List Outcome :=
  [⟨⟨"a|b\\".toList, "x\\|".toList, .choco, "b|.ps1".toList, [], []⟩, .pending, []⟩,
    ⟨⟨"| c |".toList, "y".toList, .winget, "a.ps1".toList, "user".toList, []⟩, .failed,
      "one\ntwo".toList⟩,
    ⟨⟨[], "\n".toList, .sideload, "b|.ps1".toList, "|".toList, []⟩, .untested, "\\".toList⟩]

/-- Two tables whose cells have bars, backslashes and ticks in them. -/
theorem lines_markdown_bars :
    (∀ o ∈ barOutcomes, '\n' ∉ o.package.script) ∧
    ∃ (before after : List Text) (tables : List (List Text)),
      pieces '\n' (markdown barOutcomes [] {}) = before ++ tables.flatten ++ after ∧
      tables.map Table.read? =
        [some
          ⟨"b|.ps1".toList, headings true,
            [["a|b\\".toList, "\x60x\\|\x60".toList, "choco".toList,
              "-".toList, "pending".toList, []],
              [[], "\x60 \x60".toList, "sideload".toList, "|".toList, "untested".toList,
                "\\".toList]]⟩,
          some
          ⟨"a.ps1".toList, headings true,
            [["| c |".toList, "\x60y\x60".toList, "winget".toList, "user".toList, "failed".toList,
              "one two".toList]]⟩] := by
  have hscripts : ∀ o ∈ barOutcomes, '\n' ∉ o.package.script := by decide
  obtain ⟨before, after, tables, hlines, htables, -⟩ := lines_markdown hscripts [] {}
  -- the theorem gives the tables; only their contents are computed
  refine ⟨hscripts, before, after, tables, hlines, ?_⟩
  rw [htables]
  decide

end SetupCatalog.Report
