import SetupCatalog.Report.Summary

/-!
# Reports in Markdown

A report in Markdown starts with the counts by status, then come the counts by installer, one table
for each script in the order in which the scripts first occur, and the remarks.

`rowOf` writes a row of a table and `readRow` takes one apart; `readRow_rowLine` says that the
values of a row are read back, except that line feeds have become spaces.
-/

namespace SetupCatalog.Report

open Text

/-- What a Markdown report contains. -/
structure MarkdownOptions where
  /-- Whether the counts by installer are listed. -/
  installerTotals : Bool := true
  /-- Whether the tables have a column for the scope. -/
  scopeColumn : Bool := true
  /-- Whether the remarks are listed. -/
  remarkList : Bool := true
  /-- The heading of the report. -/
  title : Text := "Package Discovery Report".toList

/-! ## Packages by script -/

/-- Adds a package to the group of its script, at the end; a new script starts a new group. -/
def addToGroup (o : Outcome) : List (Text × List Outcome) → List (Text × List Outcome)
  | [] => [(o.package.script, [o])]
  | (script, group) :: groups =>
    if script = o.package.script then (script, group ++ [o]) :: groups
    else (script, group) :: addToGroup o groups

/-- The packages by script, the scripts in the order in which they first occur. -/
def byScript (outcomes : List Outcome) : List (Text × List Outcome) :=
  outcomes.foldl (fun groups o => addToGroup o groups) []

/-! ## Tables -/

/-- A character as it is written in a cell: a bar is escaped, and a line feed becomes a space. -/
def cellChar (c : Char) : Text :=
  if c = '|' then ['\\', '|'] else if c = '\n' then [' '] else [c]

/-- A value as it is written in a cell. -/
def cell (value : Text) : Text :=
  value.flatMap cellChar

/-- A row of a table with the given cells, as they are written, up to its line feed. -/
def rowLine (cells : List Text) : Text :=
  "| ".toList ++ joined " | ".toList cells ++ " |".toList

/-- A row of a table with the given cells, as they are written. -/
def rowOf (cells : List Text) : Text :=
  "| ".toList ++ joined " | ".toList cells ++ " |\n".toList

/-- The pieces of a row between its bars. A bar after a backslash belongs to a cell. -/
def barPieces (afterBackslash : Bool) : Text → List Text
  | [] => [[]]
  | c :: t =>
    if c = '|' && !afterBackslash then [] :: barPieces false t
    else match barPieces (c == '\\') t with
      | [] => [[c]]
      | p :: ps => (c :: p) :: ps

/-- The value that a cell was written for. -/
def readCell : Text → Text
  | '\\' :: '|' :: t => '|' :: readCell t
  | c :: t => c :: readCell t
  | [] => []

/-- The value in a piece of a row, which has a space on either side of it. -/
def readPiece : Text → Option Text
  | ' ' :: piece => if piece.getLast? = some ' ' then some (readCell piece.dropLast) else none
  | _ => none

/-- The values in a row, which starts and ends with a bar. -/
def readRow (row : Text) : Option (List Text) :=
  match barPieces false row with
  | [] :: pieces => if pieces.getLast? = some [] then pieces.dropLast.mapM readPiece else none
  | _ => none

/-- The line between the head of a table and its rows. -/
def rule (headings : List Text) : Text :=
  headings.flatMap (fun h => '|' :: List.replicate (h.length + 2) '-') ++ "|\n".toList

/-- The head of a table. -/
def tableHead (headings : List Text) : Text :=
  rowOf headings ++ rule headings

/-- A value with spaces for its line feeds. -/
def onOneLine (value : Text) : Text :=
  value.map fun c => if c = '\n' then ' ' else c

theorem cell_cons (c : Char) (value : Text) : cell (c :: value) = cellChar c ++ cell value :=
  rfl

/-- A written value has no bar that would end its cell, so all of it goes to the first piece. -/
theorem barPieces_cell {p t : Text} {ps : List Text} (h : ∀ b, barPieces b t = p :: ps)
    (value : Text) (afterBackslash : Bool) :
    barPieces afterBackslash (cell value ++ t) = (cell value ++ p) :: ps := by
  induction value generalizing afterBackslash with
  | nil => exact h afterBackslash
  | cons c value ih =>
    rw [cell_cons, cellChar]
    split
    · simp [barPieces, ih]
    · split
      · simp [barPieces, ih]
      · next hb _ => simp [barPieces, hb, ih]

/-- No written value starts with a bar. -/
theorem cell_ne_bar_cons (value t : Text) : cell value ≠ '|' :: t := by
  cases value with
  | nil => simp [cell]
  | cons c value =>
    rw [cell_cons, cellChar]
    split
    · simp
    · split <;> simp_all

theorem readCell_cons {c : Char} {t : Text} (h : ∀ u, t ≠ '|' :: u) :
    readCell (c :: t) = c :: readCell t := by
  rw [readCell]
  rintro u rfl
  exact fun ht => h u ht

/-- A written value is read back, but for its line feeds. -/
theorem readCell_cell (value : Text) : readCell (cell value) = onOneLine value := by
  induction value with
  | nil => rfl
  | cons c value ih =>
    rw [cell_cons, cellChar, onOneLine, List.map_cons]
    split
    · next hb => simp [hb, readCell, ih, onOneLine]
    · split <;> simp_all [readCell_cons (cell_ne_bar_cons value), onOneLine]

/-- A written value between the spaces on either side of it. -/
def paddedCell (value : Text) : Text :=
  ' ' :: cell value ++ [' ']

theorem barPieces_paddedCell (value t : Text) :
    barPieces false (paddedCell value ++ '|' :: t) = paddedCell value :: barPieces false t := by
  have stop : ∀ b, barPieces b (' ' :: '|' :: t) = [' '] :: barPieces false t := by
    simp [barPieces]
  simp [paddedCell, barPieces, barPieces_cell stop]

theorem readPiece_paddedCell (value : Text) :
    readPiece (paddedCell value) = some (onOneLine value) := by
  rw [paddedCell, List.cons_append, readPiece, if_pos List.getLast?_concat, List.dropLast_concat,
    readCell_cell]

/-- The pieces of a row after its first bar are the written values, and nothing after the last. -/
theorem barPieces_joined (value : Text) (values : List Text) :
    barPieces false (' ' :: joined " | ".toList ((value :: values).map cell) ++ " |".toList) =
      (value :: values).map paddedCell ++ [[]] := by
  induction values generalizing value with
  | nil =>
    have hcell := barPieces_paddedCell value []
    simpa [joined, paddedCell, barPieces] using hcell
  | cons next values ih =>
    have hcell := barPieces_paddedCell value
      (' ' :: joined " | ".toList ((next :: values).map cell) ++ " |".toList)
    rw [ih] at hcell
    simpa [joined, paddedCell] using hcell

/-- A row is read back value by value. -/
theorem readRow_rowLine (value : Text) (values : List Text) :
    readRow (rowLine ((value :: values).map cell)) = some ((value :: values).map onOneLine) := by
  have hrow : rowLine ((value :: values).map cell) =
      '|' :: (' ' :: joined " | ".toList ((value :: values).map cell) ++ " |".toList) := rfl
  have hread : readPiece ∘ paddedCell = fun v => some (onOneLine v) := funext readPiece_paddedCell
  rw [readRow, hrow, barPieces, if_pos (by decide), barPieces_joined]
  dsimp only
  rw [if_pos List.getLast?_concat, List.dropLast_concat, List.mapM_map, hread]
  exact List.mapM_pure

/-- The headings of the table of a script. -/
def headings (scopeColumn : Bool) : List Text :=
  ["Name".toList, "Package ID".toList, "Installer".toList] ++
    (if scopeColumn then ["Scope".toList] else []) ++ ["Status".toList, "Note".toList]

/-- The values in the row of a package. -/
def rowValues (scopeColumn : Bool) (o : Outcome) : List Text :=
  [o.package.name, '\x60' :: o.package.id ++ ['\x60'], o.package.installer.name] ++
    (if scopeColumn then [if o.package.scope.isEmpty then ['-'] else o.package.scope] else []) ++
    [o.status.name, o.note]

/-- The row of a package. -/
def row (scopeColumn : Bool) (o : Outcome) : Text :=
  rowOf ((rowValues scopeColumn o).map cell)

/-! ## Sections -/

/-- The heading of the report and the counts by status. -/
def titleSection (options : MarkdownOptions) (summary : Summary) : Text :=
  "# ".toList ++ options.title ++ "\n\n**Total packages:** ".toList ++ ofNat summary.total ++
    "\n\n".toList ++ tableHead ["Status".toList, "Count".toList] ++
    summary.byStatus.flatMap fun (status, n) => rowOf [status.name, ofNat n]

/-- The counts of the installers that occur. -/
def installerSection (summary : Summary) : Text :=
  "## Installers\n\n".toList ++ tableHead ["Installer".toList, "Count".toList] ++
    (summary.byInstaller.filter fun entry => entry.2 != 0).flatMap fun (installer, n) =>
      rowOf [installer.name, ofNat n]

/-- The table of a script. -/
def scriptSection (scopeColumn : Bool) (script : Text) (group : List Outcome) : Text :=
  "## ".toList ++ script ++ "\n\n".toList ++ tableHead (headings scopeColumn) ++
    group.flatMap (row scopeColumn)

/-- The section of a report that lists no packages. -/
def emptySection : Text :=
  "No package declarations were found.\n".toList

/-- The list of the remarks. -/
def remarkSection (remarks : List Text) : Text :=
  "## Warnings\n\n".toList ++ remarks.flatMap fun remark => "- ".toList ++ remark ++ ['\n']

/-- The sections of a report in their order. -/
def sections (outcomes : List Outcome) (remarks : List Text) (options : MarkdownOptions) :
    List Text :=
  let summary := Summary.ofOutcomes outcomes
  [titleSection options summary] ++
    (if options.installerTotals && !outcomes.isEmpty then [installerSection summary] else []) ++
    (if outcomes.isEmpty then [emptySection]
      else (byScript outcomes).map fun (script, group) =>
        scriptSection options.scopeColumn script group) ++
    (if options.remarkList && !remarks.isEmpty then [remarkSection remarks] else [])

/-- The report in Markdown. -/
def markdown (outcomes : List Outcome) (remarks : List Text) (options : MarkdownOptions) : Text :=
  joined ['\n'] (sections outcomes remarks options)

end SetupCatalog.Report
