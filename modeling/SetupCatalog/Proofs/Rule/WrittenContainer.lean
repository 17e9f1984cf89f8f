import SetupCatalog.Proofs.Package.FirstOccurrence
import SetupCatalog.Proofs.Rule.WrittenRow
import SetupCatalog.Proofs.Script.WrittenPipeline

/-!
# Written containers are read back

A `WrittenContainer` is a script of one container, with a row on each of its lines, and of one
pipeline that installs the values of the variable. `WrittenContainer.text` writes it down.

There are three dollar signs in such a script: before the variable where the container opens, before
the variable in the pipeline, and before the variable of the loop. Only the first one opens a
container, because a dot follows the variable at the other two; and only the second one starts a
consumer, because no dot follows at the first. So there is one container (`blocks_text`), and its
consumer is the pipeline. Its lines are the rows (`lines_body`), which are read back one by one.

`scan_writtenContainer` is the main statement.
-/

namespace SetupCatalog.Rule.Container

open Text Pattern Script

/-! ## How containers are written -/

/-- A container with rows, and the pipeline that consumes it. -/
structure WrittenContainer where
  /-- The variable. -/
  name : VariableName
  /-- The rows. -/
  rows : List Row
  /-- What the pipeline does with each value. -/
  command : InstallCommand
  /-- What comes after the pipeline. -/
  ending : LineFeeds

/-- Rows as they are written, each with a line feed after it. -/
def rowsText (rows : List Row) : Text :=
  rows.flatMap fun r => r.line ++ ['\n']

namespace WrittenContainer

/-- What stands between the braces. -/
def body (w : WrittenContainer) : Text :=
  '\n' :: rowsText w.rows

/-- The pipeline as it is written. -/
def pipeline (w : WrittenContainer) : Text :=
  pipelineText w.name w.command

/-- The container up to its opening brace. -/
def opener (w : WrittenContainer) : Text :=
  '$' :: (w.name.val ++ " = @\x7b".toList)

/-- The whole as it is written. -/
def text (w : WrittenContainer) : Text :=
  w.opener ++ (w.body ++ ("\x7d\n".toList ++ (w.pipeline ++ w.ending.val)))

/-- What the pipeline installs with, and for whom. -/
def consumer (w : WrittenContainer) (defaultScope : Text) : Consumer :=
  ⟨w.command.installer, w.command.scope defaultScope⟩

end WrittenContainer

/-! ## The rows -/

/-- The lines of the rows are the rows. -/
theorem lines_rowsText (rows : List Row) : lines (rowsText rows) = rows.map Row.line := by
  induction rows with
  | nil => rfl
  | cons r rows ih =>
    have hrows : rowsText (r :: rows) = r.line ++ '\n' :: rowsText rows := by
      simp only [rowsText, List.flatMap_cons, List.append_assoc, List.cons_append, List.nil_append]
    rw [hrows, lines_append_break r.isLineBreak_eq_false, ih, List.map_cons]

/-- The lines of a written body: an empty one up to the first line break, and then the rows. -/
theorem lines_body (w : WrittenContainer) : lines w.body = [] :: w.rows.map Row.line := by
  have hfirst : lines ([] ++ '\n' :: rowsText w.rows) = [] :: lines (rowsText w.rows) :=
    lines_append_break (by simp) _
  rw [List.nil_append, lines_rowsText] at hfirst
  exact hfirst

/-- The only braces of a row are those around its fields. -/
theorem Row.balanced_line (r : Row) : Balanced r.line := by
  have hbefore : ∀ brace : Char, isPlain brace = false → brace ∉ "    '".toList →
      brace ∉ "' = @".toList → brace ∉ "    '".toList ++ (r.key.val ++ "' = @".toList) := by
    intro brace hplain hfirst hlast
    rw [List.mem_append, List.mem_append, not_or, not_or]
    exact ⟨hfirst, not_mem_of_all r.key.property hplain, hlast⟩
  have hkey : Balanced ("    '".toList ++ (r.key.val ++ "' = @".toList)) :=
    balanced_of_not_mem (hbefore _ (by decide) (by decide) (by decide))
      (hbefore _ (by decide) (by decide) (by decide))
  have hfields : Balanced r.fields :=
    balanced_of_not_mem (not_mem_of_all r.all_fields (by decide))
      (not_mem_of_all r.all_fields (by decide))
  have hline : r.line = ("    '".toList ++ (r.key.val ++ "' = @".toList)) ++
      ('{' :: r.fields ++ ['}']) := by
    simp only [Row.line, List.append_assoc]
  rw [hline]
  exact balanced_append hkey (balanced_braces hfields)

/-- Rows are balanced, row by row: each closes the one brace that it opens. -/
theorem balanced_rowsText (rows : List Row) : Balanced (rowsText rows) := by
  induction rows with
  | nil => exact balanced_of_not_mem (by simp [rowsText]) (by simp [rowsText])
  | cons r rows ih =>
    have hbreak : Balanced ['\n'] := balanced_of_not_mem (by decide) (by decide)
    exact balanced_append (balanced_append r.balanced_line hbreak) ih

/-- A written body is balanced. -/
theorem balanced_body (w : WrittenContainer) : Balanced w.body :=
  balanced_append (balanced_of_not_mem (by decide) (by decide) : Balanced ['\n'])
    (balanced_rowsText w.rows)

/-- There is no dollar sign in the body. -/
theorem dollar_not_mem_body (w : WrittenContainer) : '$' ∉ w.body := by
  simp only [WrittenContainer.body, rowsText, List.mem_cons, List.mem_flatMap, List.mem_append,
    List.not_mem_nil, or_false]
  rintro (h | ⟨r, -, h | h⟩)
  · exact absurd h (by decide)
  · exact not_mem_of_all r.all_line (by decide) h
  · exact absurd h (by decide)

/-! ## The dollar signs -/

/-- A search for something that starts with a dollar sign passes over a text without one. -/
theorem passesOver_of_dollar_not_mem {α : Type} {p : Pattern α} {passed : Text}
    (hp : ∀ c, c ≠ '$' → ∀ prev t, p prev (c :: t) = none) (h : '$' ∉ passed) (rest : Text) :
    p.PassesOver passed rest :=
  passesOver_of_forall_mem (fun c hc => hp c fun heq => h (heq ▸ hc)) rest

/-- A block starts only at a dollar sign. -/
theorem blockStart_cons_eq_none {c : Char} (hc : c ≠ '$') (prev : Option Char) (t : Text) :
    blockStart prev (c :: t) = none := by
  simp only [blockStart, symbol_cons_of_ne hc, bind, Option.bind_none]

/-- A loop over a container starts only at a dollar sign. -/
theorem consumerStart_cons_eq_none {name : Text} {c : Char} (hc : c ≠ '$') (prev : Option Char)
    (t : Text) : consumerStart name prev (c :: t) = none := by
  simp only [consumerStart, symbol_cons_of_ne hc, bind, Option.bind_none]

/-- No container opens at a variable that a dot follows. -/
theorem blockStart_dot_eq_none (name : VariableName) (prev : Option Char) (t : Text) :
    blockStart prev ('$' :: (name.val ++ '.' :: t)) = none := by
  have hdot : ¬ isWord '.' = true := by decide
  have hspan : (name.val ++ '.' :: t).dropWhile isWord = '.' :: t := by
    rw [List.dropWhile_append_of_pos (List.all_eq_true.mp name.property.2),
      List.dropWhile_cons_of_neg hdot]
  have hequals : symbol '=' (trimStart ('.' :: t)) = none := rfl
  simp only [blockStart, hspan, hequals, symbol_eq_some_iff.mpr rfl, bind, Option.bind_some,
    Option.bind_none, Option.bind_fun_none]

/-- The one dollar sign of a command is that of the current element. -/
theorem exists_element (command : InstallCommand) :
    ∃ before after, command.text = before ++ '$' :: ("_".toList ++ '.' :: after) ∧
      '$' ∉ before ∧ '$' ∉ after := by
  cases command with
  | winget scope =>
    refine ⟨"winget install --id ".toList, "Id --scope ".toList ++ scope.val, rfl, by decide, ?_⟩
    rw [List.mem_append, not_or]
    exact ⟨by decide, fun h => absurd (scope.isWord_of_mem _ h) (by decide)⟩
  | store => exact ⟨"winget install --id ".toList, "Id --source msstore".toList, rfl, by decide,
      by decide⟩
  | choco => exact ⟨"choco install ".toList, "Id".toList, rfl, by decide, by decide⟩
  | scoop => exact ⟨"scoop install ".toList, "Id".toList, rfl, by decide, by decide⟩

/-- No variable's name has a dollar sign, so no name hides another variable. -/
theorem dollar_not_mem_name (name : VariableName) : '$' ∉ name.val :=
  not_mem_of_all name.property.2 (by decide)

/-- Behind the dollar sign that a container opens with, there is none up to the pipeline. -/
theorem dollar_not_mem_container (w : WrittenContainer) :
    '$' ∉ w.name.val ++ (" = @\x7b".toList ++ (w.body ++ "\x7d\n".toList)) := by
  simp only [List.mem_append, not_or]
  exact ⟨dollar_not_mem_name w.name, by decide, dollar_not_mem_body w, by decide⟩

/-- No container opens in the pipeline. -/
theorem blockStart_passesOver_pipeline (w : WrittenContainer) :
    blockStart.PassesOver (w.pipeline ++ w.ending.val) [] := by
  have hpass : ∀ passed : Text, '$' ∉ passed → ∀ rest, blockStart.PassesOver passed rest :=
    fun passed h => passesOver_of_dollar_not_mem (fun c => blockStart_cons_eq_none) h
  have hmembers : '$' ∉
      w.name.val ++ '.' :: ("Values".toList ++ " | ForEach-Object \x7b ".toList) := by
    rw [List.mem_append, not_or]
    exact ⟨dollar_not_mem_name w.name, by decide⟩
  have hend : '$' ∉ " \x7d".toList ++ w.ending.val := by
    rw [List.mem_append, not_or]
    exact ⟨by decide, not_mem_of_all w.ending.property (by decide)⟩
  obtain ⟨before, after, hcommand, hbefore, hafter⟩ := exists_element w.command
  have hloop : ∀ rest, blockStart.PassesOver w.command.text rest := by
    intro rest
    have hbehind : '$' ∉ "_".toList ++ '.' :: after := by
      rw [List.mem_append, List.mem_cons, not_or, not_or]
      exact ⟨by decide, by decide, hafter⟩
    rw [hcommand]
    refine (hpass before hbefore _).append (PassesOver.cons (fun prev => ?_) (hpass _ hbehind _))
    exact blockStart_dot_eq_none ⟨"_".toList, by decide⟩ prev (after ++ rest)
  have hstart : ∀ rest, blockStart.PassesOver (pipelineStart w.name) rest := by
    intro rest
    refine PassesOver.cons (fun prev => ?_) (hpass _ hmembers rest)
    rw [List.cons_append, List.append_assoc]
    exact blockStart_dot_eq_none w.name prev _
  -- there are two variables in the pipeline, and a dot follows each of them
  have hwhole : w.pipeline ++ w.ending.val =
      pipelineStart w.name ++ (w.command.text ++ (" \x7d".toList ++ w.ending.val)) := by
    simp only [WrittenContainer.pipeline, pipelineText, List.append_assoc]
  rw [hwhole]
  exact (hstart _).append ((hloop _).append (hpass _ hend _))

/-- **There is one container.** -/
theorem blocks_text (w : WrittenContainer) :
    ∃ endOffset, blocks w.text = [⟨w.name.val, w.body, endOffset⟩] := by
  have hopener : Opener w.name.val w.opener := by
    have hspace : ∀ b ∈ [' '], isBlank b = true := List.all_eq_true.mp (by decide)
    obtain ⟨hhead, hword⟩ := w.name.property
    cases hname : w.name.val with
    | nil =>
      rw [hname] at hhead
      cases hhead
    | cons c others =>
      rw [hname] at hhead hword
      rw [List.all_cons, Bool.and_eq_true] at hword
      refine ⟨c, others, [' '], [' '], rfl, hhead, List.all_eq_true.mp hword.2, hspace, hspace, ?_⟩
      rw [WrittenContainer.opener, hname]
      rfl
  have hread : blockStart none w.text =
      some (w.name.val, w.body ++ ("\x7d\n".toList ++ (w.pipeline ++ w.ending.val))) :=
    blockStart_eq_some_iff.mpr ⟨w.opener, hopener, rfl⟩
  have hbody : bodyOf 0 (w.body ++ ("\x7d\n".toList ++ (w.pipeline ++ w.ending.val))) =
      some (w.body, '\n' :: (w.pipeline ++ w.ending.val)) :=
    bodyOf_eq_some_iff.mpr ⟨balanced_body w, rfl⟩
  -- the container starts the only block: no dollar sign is in it, and none of the pipeline starts
  -- one
  have hall : blockStart.all w.text =
      [⟨[], w.name.val, w.body ++ ("\x7d\n".toList ++ (w.pipeline ++ w.ending.val))⟩] := by
    have hwhole : w.text = '$' :: ((w.name.val ++ (" = @\x7b".toList ++
        (w.body ++ "\x7d\n".toList))) ++ (w.pipeline ++ w.ending.val)) := by
      simp only [WrittenContainer.text, WrittenContainer.opener, List.cons_append,
        List.append_assoc]
    rw [hwhole] at hread ⊢
    have hpassed := (passesOver_of_dollar_not_mem (fun c => blockStart_cons_eq_none)
      (dollar_not_mem_container w) _).append (blockStart_passesOver_pipeline w)
    rw [Pattern.all, allFrom, List.head?_nil, hread]
    simp only [allFrom_of_passesOver hpassed]
  refine ⟨w.text.length - ('\n' :: (w.pipeline ++ w.ending.val)).length, ?_⟩
  rw [blocks, hall]
  simp only [List.filterMap_cons, List.filterMap_nil, hbody, Option.map_some]

/-- The pipeline is the consumer of the container, if the look ahead reaches its end. -/
theorem consumerOf_text (w : WrittenContainer) {options : ScanOptions}
    (hahead : (w.pipeline.length : Int) ≤ options.loopLookahead) :
    consumerOf w.name.val w.text options = w.consumer options.defaultScope := by
  have hopener : ∀ prev t,
      consumerStart w.name.val prev ('$' :: (w.name.val ++ ' ' :: t)) = none := by
    intro prev t
    have hdot : symbol '.' (' ' :: t) = none := symbol_cons_of_ne (by decide) t
    simp only [consumerStart, symbol_eq_some_iff.mpr rfl, keyword_self, hdot, bind,
      Option.bind_some, Option.bind_none]
  -- before the pipeline the variable stands once, in the assignment, where no dot follows
  have hbefore : (consumerStart w.name.val).PassesOver
      ('$' :: (w.name.val ++ (" = @\x7b".toList ++ (w.body ++ "\x7d\n".toList))))
      (w.pipeline ++ w.ending.val) := by
    refine PassesOver.cons (fun prev => ?_) (passesOver_of_dollar_not_mem
      (fun c => consumerStart_cons_eq_none) (dollar_not_mem_container w) _)
    rw [List.cons_append, List.append_assoc]
    exact hopener prev _
  have hwhole : w.text = ('$' :: (w.name.val ++ (" = @\x7b".toList ++
      (w.body ++ "\x7d\n".toList)))) ++ (w.pipeline ++ w.ending.val) := by
    simp only [WrittenContainer.text, WrittenContainer.opener, List.cons_append, List.append_assoc]
  rw [hwhole]
  exact consumerOf_pipelineText w.name w.command w.ending hbefore hahead

/-! ## The packages -/

/-- The container declares one package for each of its rows. -/
theorem candidates_text (w : WrittenContainer) {options : ScanOptions}
    (hahead : (w.pipeline.length : Int) ≤ options.loopLookahead) (script : Text) :
    candidates options script w.text =
      w.rows.map fun r => r.package script (w.consumer options.defaultScope) := by
  obtain ⟨endOffset, hblocks⟩ := blocks_text w
  have hconsumer := consumerOf_text w hahead
  have hknown : (w.consumer options.defaultScope).isUnknown = false := by
    rw [WrittenContainer.consumer, Consumer.isUnknown, decide_eq_false_iff_not]
    cases w.command <;> exact fun h => by cases h
  have hentries : entries script (w.consumer options.defaultScope)
      ⟨w.name.val, w.body, endOffset⟩ =
        w.rows.map fun r => r.package script (w.consumer options.defaultScope) := by
    have hempty : declared? script (w.consumer options.defaultScope) [] = none := rfl
    have hrow : declared? script (w.consumer options.defaultScope) ∘ Row.line =
        fun r => some (r.package script (w.consumer options.defaultScope)) :=
      funext fun r => declared?_line r script _
    rw [entries, lines_body, List.filterMap_cons_none hempty, List.filterMap_map, hrow,
      List.filterMap_eq_map']
  rw [candidates, hblocks, List.flatMap_singleton, hconsumer]
  simp only [hentries, hknown, Bool.or_false]
  -- without rows it makes no difference that nothing in the container is an identity
  cases hrows : w.rows with
  | nil => rw [List.map_nil, ite_self]
  | cons r rows =>
    have hline : r.line ∈ lines w.body := by
      rw [lines_body, hrows]
      simp
    have hids : declaresIds ⟨w.name.val, w.body, endOffset⟩ = true :=
      occursIn_of_find?_line hline r.find?_idField
    rw [hids, Bool.not_true, if_neg Bool.false_ne_true]

/-- **A written container is read back**: one package for each identity of its rows, without the
blanks around it, the first time that it occurs. It is named by the label of that row, or by the
identity where the label is blank. -/
theorem scan_writtenContainer (w : WrittenContainer) (options : ScanOptions) (earlier : List Text)
    (script : Text) (hahead : (w.pipeline.length : Int) ≤ options.loopLookahead) :
    ((⟨.container, options, earlier⟩ : Detector).scan script w.text []).1 =
      (w.rows.eraseDupsBy fun r s => strip r.id.val == strip s.id.val).map fun r =>
        r.package script (w.consumer options.defaultScope) := by
  have hkey : ∀ r s : Row, (strip r.id.val == strip s.id.val) = true ↔
      (r.package script (w.consumer options.defaultScope)).key =
        (s.package script (w.consumer options.defaultScope)).key := by
    intro r s
    rw [beq_iff_eq, Package.key_eq_iff]
    exact (and_iff_right rfl).symm
  show newPackages [] (candidates options script w.text) = _
  rw [candidates_text w hahead, newPackages_map hkey]

/-- A container that is written in the words of fields and calls. Two of its rows have the same
identity, and the last one has no label. -/
def misleading : WrittenContainer where
  name := ⟨"winget".toList, by decide⟩
  rows := [
    ⟨⟨"Id".toList, by decide⟩, ⟨" Name ".toList, by decide⟩,
      ⟨"Git.Git".toList, by decide⟩, by decide⟩,
    ⟨⟨"Name".toList, by decide⟩, ⟨"Id".toList, by decide⟩,
      ⟨" Git.Git".toList, by decide⟩, by decide⟩,
    ⟨⟨[], by decide⟩, ⟨[' '], by decide⟩, ⟨"choco install".toList, by decide⟩, by decide⟩]
  command := .winget ⟨"user".toList, by decide, by decide⟩
  ending := ⟨['\n'], by decide⟩

/-- A container whose keys and labels name other packages: only the values of the two fields count.
-/
theorem scan_misleading :
    (misleading.pipeline.length : Int) ≤ ({} : ScanOptions).loopLookahead ∧
    ((⟨.container, {}, []⟩ : Detector).scan "setup".toList misleading.text []).1 =
      [{ name := "Name".toList, id := "Git.Git".toList, installer := .winget,
         script := "setup".toList, scope := "user".toList },
       { name := "choco install".toList, id := "choco install".toList, installer := .winget,
         script := "setup".toList, scope := "user".toList }] := by
  have hahead : (misleading.pipeline.length : Int) ≤ ({} : ScanOptions).loopLookahead := by decide
  refine ⟨hahead, ?_⟩
  rw [scan_writtenContainer misleading {} [] "setup".toList hahead]
  decide

end SetupCatalog.Rule.Container
