import SetupCatalog.Proofs.Rule.LiveLine
import SetupCatalog.Proofs.Rule.NestedBody

/-!
# A list with a row commented out

A list of literals can be written with one literal on each row, and a row can be commented out. The
rule for piped arrays knows no comments: a hash sign ends the run of literals above it, and as no
pipe follows there, nothing is found so far. The search goes on inside the comment. There it finds a
loop over the literal in the comment and those below, which starts on a comment line and is not
counted.

So nothing is left of the list (`scan_commentedRow`), while without the row the others are found.
What carries the first half is that a text in which a hash sign starts a line before any pipe stays
one while the rule reads it (`HashFirst`).
-/

namespace SetupCatalog.Rule.PipedArray

open Text Pattern Script

/-! ## Rows -/

/-- Blank characters on one line, or none. -/
abbrev Gap :=
  { t : Text // t.all (fun c => isBlank c && c != '\n') = true }

/-- A literal on a row of its own, with a comma after it. -/
structure Row where
  /-- The blanks before the literal. -/
  indent : Gap
  /-- The literal. -/
  literal : Quoted
  /-- The blanks before the comma. -/
  beforeComma : Gap
  /-- The blanks after the comma. -/
  afterComma : Gap

/-- A row as it is written, up to the end of its line. -/
def Row.text (r : Row) : Text :=
  r.indent.val ++ (r.literal.text ++ (r.beforeComma.val ++ ',' :: (r.afterComma.val ++ ['\n'])))

/-- A list in parentheses as it is written after the opening one, and the loop over it. -/
def WrittenLoop.listText (w : WrittenLoop) (opening closing : Blanks) (inside : Text) : Text :=
  opening.val ++ (w.run ++ (closing.val ++ ')' :: w.loopTextWith inside))

/-- The text of an array whose elements start on the next line. -/
def arrayText (start : Gap) (rows : Text) : Text :=
  '@' :: '(' :: (start.val ++ '\n' :: rows)

/-- A gap between rows is blank throughout, its line breaks included. -/
theorem Gap.all_isBlank (gap : Gap) : gap.val.all isBlank = true := by
  refine List.all_eq_true.mpr fun c hc => ?_
  have := List.all_eq_true.mp gap.property c hc
  rw [Bool.and_eq_true] at this
  exact this.1

/-- A gap, with no regard to its lying on one line. -/
def Gap.toBlanks (gap : Gap) : Blanks :=
  ⟨gap.val, gap.all_isBlank⟩

/-- A gap at the end of a line and the blanks that the next line starts with. -/
def Gap.onTo (gap : Gap) (next : Blanks) : Blanks :=
  ⟨gap.val ++ '\n' :: next.val, by
    rw [List.all_append, gap.all_isBlank, List.all_cons, next.property]
    decide⟩

/-- The list with another row above it. Its own first row starts with `opening`. -/
def WrittenLoop.addRow (w : WrittenLoop) (row : Row) (opening : Blanks) : WrittenLoop :=
  { w with
    first := row.literal
    others := ⟨row.beforeComma.toBlanks, row.afterComma.onTo opening, w.first⟩ :: w.others }

/-- One more row in front only puts its text in front of the list that the rest writes. -/
theorem listText_addRow (w : WrittenLoop) (row : Row) (opening closing : Blanks) (inside : Text) :
    (w.addRow row opening).listText row.indent.toBlanks closing inside =
      row.text ++ w.listText opening closing inside := by
  simp only [WrittenLoop.listText, WrittenLoop.addRow, WrittenLoop.run, WrittenLoop.loopTextWith,
    Row.text, Further.text, Gap.toBlanks, Gap.onTo, List.flatMap_cons, List.append_assoc,
    List.cons_append, List.nil_append]

/-- Rows above a list make a longer list. -/
theorem exists_listText (rows : List Row) (w : WrittenLoop) (opening closing : Blanks) :
    ∃ (longer : WrittenLoop) (first : Blanks),
      longer.literals = rows.map (fun r => r.literal.value) ++ w.literals ∧
      ∀ inside, longer.listText first closing inside =
        rows.flatMap Row.text ++ w.listText opening closing inside := by
  induction rows with
  | nil => exact ⟨w, opening, rfl, fun _ => rfl⟩
  | cons r rows ih =>
    obtain ⟨longer, first, hliterals, htext⟩ := ih
    refine ⟨longer.addRow r first, r.indent.toBlanks, ?_, fun inside => ?_⟩
    · rw [List.map_cons, List.cons_append, ← hliterals]
      rfl
    · rw [listText_addRow, htext, List.flatMap_cons, List.append_assoc]

/-- An array of rows is a written one. -/
theorem exists_textWith_arrayText (start : Gap) (rows : List Row) (w : WrittenLoop)
    (opening closing : Blanks) :
    ∃ longer : WrittenLoop,
      longer.literals = rows.map (fun r => r.literal.value) ++ w.literals ∧
      ∀ inside, longer.textWith inside =
        arrayText start (rows.flatMap Row.text ++ w.listText opening closing inside) := by
  obtain ⟨longer, first, hliterals, htext⟩ := exists_listText rows w opening closing
  refine ⟨{ longer with parentheses := some (start.onTo first, closing) }, hliterals,
    fun inside => ?_⟩
  rw [arrayText, ← htext]
  simp only [WrittenLoop.textWith, WrittenLoop.listText, WrittenLoop.run, WrittenLoop.loopTextWith,
    Gap.onTo, List.append_assoc, List.cons_append]

/-! ## A hash sign that comes first -/

/-- Before any pipe there is a hash sign that starts a line. -/
def HashFirst (t : Text) : Prop :=
  ∃ above below, t = above ++ '#' :: below ∧ '|' ∉ above ∧ ∀ c ∈ above.getLast?, c = '\n'

/-- Reading on keeps such a text, if what is read has no hash sign or is one line that does not
start with it. -/
theorem HashFirst.of_append {read rest : Text} (h : HashFirst (read ++ rest))
    (hread : '#' ∉ read ∨ read.OneLine ∧ read.head? ≠ some '#') : HashFirst rest := by
  obtain ⟨above, below, hsplit, hpipe, hlast⟩ := h
  rcases List.append_eq_append_iff.mp hsplit with ⟨more, rfl, rfl⟩ | ⟨more, rfl, hbelow⟩
  · refine ⟨more, below, rfl, fun hmem => hpipe (List.mem_append_right read hmem), ?_⟩
    intro c hc
    exact hlast c (by rw [List.getLast?_append, Option.mem_def.mp hc, Option.some_or]; rfl)
  · cases more with
    | nil => exact ⟨[], below, hbelow.symm, List.not_mem_nil, nofun⟩
    | cons c more =>
      obtain rfl := (List.cons.inj hbelow).1
      rcases hread with hhash | ⟨hline, hhead⟩
      · exact absurd (by simp) hhash
      · rcases List.eq_nil_or_concat above with rfl | ⟨above, d, rfl⟩
        · exact absurd rfl hhead
        · have hd : d = '\n' := hlast d (by simp)
          have := hline d (by simp)
          rw [hd] at this
          cases this

/-- Trimming keeps such a text: no blank is a hash sign. -/
theorem HashFirst.trimmed {t : Text} (h : HashFirst t) : HashFirst (trimStart t) := by
  have hsplit : t.takeWhile isBlank ++ trimStart t = t := List.takeWhile_append_dropWhile
  rw [← hsplit] at h
  exact h.of_append (Or.inl fun hmem => isBlank_ne_hash (List.mem_takeWhile_imp hmem) rfl)

/-- Reading another symbol keeps such a text. -/
theorem HashFirst.of_symbol {s : Char} {t rest : Text} (h : HashFirst t) (hs : s ≠ '#')
    (hrest : symbol s t = some rest) : HashFirst rest := by
  rw [symbol_eq_some_iff.mp hrest, ← List.singleton_append] at h
  exact h.of_append (Or.inl (by simpa using hs.symm))

/-- Such a text does not start with a pipe. -/
theorem HashFirst.symbol_pipe {t : Text} (h : HashFirst t) : symbol '|' t = none := by
  obtain ⟨above, below, rfl, hpipe, -⟩ := h
  cases above with
  | nil => rfl
  | cons c above => exact symbol_cons_of_ne (fun hc => hpipe (by simp [hc])) _

/-- Reading a literal keeps such a text: a literal is on one line. -/
theorem HashFirst.of_literal {t value rest : Text} (h : HashFirst t)
    (hvalue : literal none t = some (value, rest)) : HashFirst rest := by
  obtain ⟨q, hq, -, -, hline, rfl⟩ := literal_eq_some_iff.mp hvalue
  have hquote := isLineEnd_of_isQuote hq
  have hread : Text.OneLine (q :: (value ++ [q])) :=
    .cons hquote (hline.append (.cons hquote oneLine_nil))
  have hsplit : HashFirst (q :: (value ++ [q]) ++ rest) := by simpa using h
  exact hsplit.of_append (Or.inr ⟨hread, by simpa using isQuote_ne_hash hq⟩)

/-- A run of literals ends before the hash sign. -/
theorem HashFirst.of_literalRun {most : Nat} {t rest : Text} {found : List Text} (h : HashFirst t)
    (hrun : literalRun most t = some (found, rest)) : HashFirst rest := by
  refine literalRun_induction (P := fun t _ rest => HashFirst t → HashFirst rest) ?_ ?_ hrun h
  · exact fun t value rest hvalue ht => ht.of_literal hvalue
  · intro t value after t' others rest hvalue hcomma ih ht
    exact ih ((ht.of_literal hvalue).trimmed.of_symbol (by decide) hcomma).trimmed

/-- No loop starts before the hash sign. -/
theorem HashFirst.loop_eq_none {t : Text} (h : HashFirst t) (prev : Option Char) :
    loop prev t = none := by
  rw [Option.eq_none_iff_forall_ne_some]
  rintro ⟨found, after⟩ hread
  simp only [loop, bind, Option.bind_eq_some_iff, Prod.exists] at hread
  obtain ⟨-, -, literals, t', hrun, body, rest, hloop, -⟩ := hread
  have hopening : HashFirst (arrayOpening t) := by
    obtain ⟨opening, ht, hhash, -⟩ := exists_arrayOpening t
    rw [ht] at h
    exact h.of_append (Or.inl hhash)
  have hrest := (hopening.of_literalRun hrun).trimmed
  have hclosed : HashFirst ((symbol ')' (trimStart t')).getD (trimStart t')) := by
    cases hsymbol : symbol ')' (trimStart t') with
    | none => exact hrest
    | some u => exact hrest.of_symbol (by decide) hsymbol
  simp only [pipedLoop, hclosed.trimmed.symbol_pipe, bind, Option.bind_none] at hloop
  cases hloop

/-! ## The row in the comment -/

/-- The search passes over what stands above a row that is a comment, if it has no pipe. -/
theorem passesOver_above {above rest : Text} (hpipe : '|' ∉ above)
    (hlast : above.getLast? = some '\n') : loop.PassesOver above ('#' :: rest) := by
  rintro u c v rfl prev
  refine HashFirst.loop_eq_none ⟨c :: v, rest, rfl, ?_, fun d hd => ?_⟩ prev
  · exact fun hmem => hpipe (List.mem_append_right u hmem)
  · rw [List.getLast?_append, Option.mem_def.mp hd, Option.some_or] at hlast
    exact Option.some.inj hlast

/-- A match behind a hash sign and blanks is on a comment line. -/
theorem isComment_lineBefore {above : Text} (habove : above.getLast? = some '\n') (indent : Gap)
    (found : Loop) (after : Text) :
    isComment (lineBefore (⟨(above ++ '#' :: indent.val).reverse, found, after⟩ : Hit Loop)) =
      true := by
  obtain ⟨lines, rfl⟩ := List.getLast?_eq_some_iff.mp habove
  have hindent : ∀ c ∈ (indent.val).reverse ++ ['#'], (c != '\n') = true := by
    intro c hc
    rcases List.mem_append.mp hc with hc | hc
    · have := List.all_eq_true.mp indent.property c (List.mem_reverse.mp hc)
      rw [Bool.and_eq_true] at this
      exact this.2
    · rw [List.mem_singleton.mp hc]
      decide
  have hbefore : (lines ++ ['\n'] ++ '#' :: indent.val).reverse =
      (indent.val).reverse ++ ['#'] ++ '\n' :: lines.reverse := by
    simp only [List.reverse_append, List.reverse_cons, List.append_assoc, List.cons_append,
      List.nil_append]
  -- the line before the hit goes back to the feed above, and the hash sign is the first of it
  rw [lineBefore, hbefore, List.takeWhile_append_of_pos hindent,
    List.takeWhile_cons_of_neg (by decide), List.append_nil, List.reverse_append,
    List.reverse_reverse, isComment_eq]
  rfl

/-- Where the first row of a list is a comment, the only loop is the one that starts in the comment,
and it is not counted. -/
theorem candidates_commented {above : Text} (hpipe : '|' ∉ above)
    (habove : above.getLast? = some '\n') (row : Row) (w : WrittenLoop) (opening closing : Blanks)
    {inside : Text} (hclosed : '}' ∈ inside) (hlast : loop.occursIn (unreadPart inside) = false)
    (script : Text) :
    candidates script (above ++ '#' :: (row.text ++ w.listText opening closing inside)) = [] := by
  let list := w.addRow row opening
  let tail := closing.val ++ ')' :: w.loopTextWith inside
  have hrow : row.text ++ w.listText opening closing inside =
      row.indent.val ++ (list.run ++ tail) := by
    rw [← listText_addRow]
    rfl
  have hread : ∀ prev, loop prev (list.run ++ tail) =
      some (⟨list.run, readPart inside⟩, unreadPart inside) := by
    obtain ⟨hcomma, hloop⟩ := pipedLoop_of_parenthesis w hclosed closing
    exact loop_of_run list (arrayOpening_run list tail) hcomma hloop
  -- nothing matches above the row nor in its indent, so the one match starts at its literal
  have hpassed : loop.PassesOver (above ++ '#' :: row.indent.val) (list.run ++ tail) := by
    refine PassesOver.append (passesOver_above hpipe habove) ?_
    refine passesOver_of_forall_mem (fun c hc prev t => ?_) _
    rcases List.mem_cons.mp hc with rfl | hc
    · exact loop_cons_eq_none (by decide) (by decide) prev t
    · have hblank := List.all_eq_true.mp row.indent.all_isBlank c hc
      refine loop_cons_eq_none ?_ (eq_false_of_ne_true fun hquote => ?_) prev t
      · rintro rfl
        exact absurd hblank (by decide)
      · rw [isBlank_eq_false_of_isQuote hquote] at hblank
        cases hblank
  have htext : above ++ '#' :: (row.text ++ w.listText opening closing inside) =
      above ++ '#' :: row.indent.val ++ (list.run ++ tail) := by
    rw [hrow, List.append_assoc, List.cons_append]
  obtain ⟨read, hsplit⟩ := exists_of_loop_eq_some (hread none)
  rw [hsplit] at hread hpassed htext
  obtain ⟨later, hall, hlater⟩ := exists_all_eq_cons hpassed (by simp) (hread _)
  rw [candidates, htext, hall, hlater (passesOver_of_occursIn (fun _ _ => rfl) hlast),
    List.flatMap_singleton, declared, if_pos (isComment_lineBefore habove row.indent _ _)]

/-- No gap holds a pipe. -/
theorem pipe_not_mem_gap (gap : Gap) : '|' ∉ gap.val := by
  intro hmem
  have := List.all_eq_true.mp gap.all_isBlank '|' hmem
  exact absurd this (by decide)

/-- A row whose literal has no pipe has none at all. -/
theorem pipe_not_mem_row {row : Row} (h : '|' ∉ row.literal.value) : '|' ∉ row.text := by
  have hquote : '|' ≠ row.literal.quote := by
    intro heq
    have := row.literal.isQuote_quote
    rw [← heq] at this
    exact absurd this (by decide)
  simp [Row.text, Quoted.text, pipe_not_mem_gap, h, hquote]

/-- An array whose literals have no pipe has none before its closing parenthesis, so no loop starts
inside it. -/
theorem pipe_not_mem_arrayText (start : Gap) {rows : List Row}
    (h : ∀ row ∈ rows, '|' ∉ row.literal.value) :
    '|' ∉ arrayText start (rows.flatMap Row.text) := by
  have hrows : '|' ∉ rows.flatMap Row.text := by
    rw [List.mem_flatMap]
    rintro ⟨row, hrow, hmem⟩
    exact pipe_not_mem_row (h row hrow) hmem
  simp [arrayText, pipe_not_mem_gap, hrows]

/-- The rows end with a line feed, and so does the start of the array. -/
theorem getLast?_arrayText (start : Gap) (rows : List Row) :
    (arrayText start (rows.flatMap Row.text)).getLast? = some '\n' := by
  rw [List.getLast?_eq_some_iff]
  rcases List.eq_nil_or_concat rows with rfl | ⟨rows, row, rfl⟩
  · exact ⟨'@' :: '(' :: start.val, rfl⟩
  · refine ⟨'@' :: '(' :: (start.val ++ '\n' :: (rows.flatMap Row.text ++ (row.indent.val ++
      (row.literal.text ++ (row.beforeComma.val ++ ',' :: row.afterComma.val))))), ?_⟩
    simp [arrayText, Row.text]

/-- **A row in a comment takes the whole list with it.** Of a list with a row commented out nothing
is found, whatever stands in the rows above, below and in it, if there is no pipe in a value above;
and without the row the other values are found. -/
theorem scan_commentedRow (start : Gap) (above : List Row) (row : Row) (w : WrittenLoop)
    (opening closing : Blanks) {inside : Text} {installer : Installer}
    (hpipe : ∀ r ∈ above, '|' ∉ r.literal.value) (hclosed : '}' ∈ inside)
    (hlast : loop.occursIn (unreadPart inside) = false)
    (hinstaller : installerIn (readPart inside) = some installer) (options : ScanOptions)
    (earlier : List Text) (script : Text) :
    let scanned rows := ((⟨.pipedArray, options, earlier⟩ : Detector).scan script
      (arrayText start (above.flatMap Row.text ++ rows)) []).1
    let below := w.listText opening closing inside
    let others := values (above.map (fun r => r.literal.value) ++ w.literals)
    scanned ('#' :: (row.text ++ below)) = [] ∧
      scanned below = others.eraseDups.map (plainPackage installer script) ∧
      (scanned ('#' :: (row.text ++ below)) = scanned below ↔ others = []) := by
  intro scanned below others
  have hcommented : scanned ('#' :: (row.text ++ below)) = [] := by
    let top := arrayText start (above.flatMap Row.text)
    have hnone := candidates_commented (pipe_not_mem_arrayText start hpipe)
      (getLast?_arrayText start above) row w opening closing hclosed hlast script
    have htext : arrayText start (above.flatMap Row.text ++ '#' :: (row.text ++ below)) =
        top ++ '#' :: (row.text ++ below) := by
      simp only [top, arrayText, List.cons_append, List.append_assoc]
    show newPackages [] (candidates script (arrayText start _)) = []
    rw [htext, hnone]
    rfl
  -- without the row the rows above and the list below are one longer array
  have hdeleted : scanned below = others.eraseDups.map (plainPackage installer script) := by
    obtain ⟨longer, hliterals, htext⟩ := exists_textWith_arrayText start above w opening closing
    obtain ⟨later, hfound, hlater⟩ := exists_newPackages_textWith longer hclosed script
    rw [hlater hlast, List.append_nil, hinstaller, hliterals, htext] at hfound
    exact hfound
  refine ⟨hcommented, hdeleted, ?_⟩
  rw [hcommented, hdeleted]
  cases others with
  | nil => exact iff_of_true rfl rfl
  | cons value others => simp [List.eraseDups_cons]

/-- A row with a literal in single quotes and the same blanks in all three places. -/
def quotedRow (gap : Gap) (value : Text) (hne : value ≠ []) (hquote : '\'' ∉ value)
    (hline : value.OneLine) : Row :=
  ⟨gap, ⟨'\'', value, isQuote_single, hne, hquote, hline⟩, gap, gap⟩

/-- Nothing is left of two literals if a third one between them is in a comment. -/
theorem scan_commentedRow_gitLoop :
    let scanned rows :=
      ((⟨.pipedArray, {}, []⟩ : Detector).scan [] (arrayText ⟨[], by decide⟩ rows) []).1
    scanned "'fd',\n#'jq',\n'git') | % \x7b choco install $_ \x7d".toList = [] ∧
      scanned "'fd',\n'git') | % \x7b choco install $_ \x7d".toList =
        [plainPackage .choco [] "fd".toList, plainPackage .choco [] "git".toList] := by
  intro scanned
  have hpipe : ∀ row ∈ [quotedRow ⟨[], by decide⟩ "fd".toList (by decide) (by decide) (by decide)],
      '|' ∉ row.literal.value := by
    decide
  have hclosed : '}' ∈ " choco install $_ \x7d".toList := by decide
  have hinstaller : installerIn (readPart " choco install $_ \x7d".toList) = some .choco := by
    decide
  obtain ⟨hcommented, hdeleted, -⟩ := scan_commentedRow ⟨[], by decide⟩ _
    (quotedRow ⟨[], by decide⟩ "jq".toList (by decide) (by decide) (by decide)) gitLoop
    ⟨[], by decide⟩ ⟨[], by decide⟩ hpipe hclosed (by decide) hinstaller {} [] []
  exact ⟨hcommented, hdeleted⟩

/-- Commenting out an element is not the same as deleting it. -/
theorem scan_commentedRow_ne :
    let scanned text := ((⟨.pipedArray, {}, []⟩ : Detector).scan [] text []).1
    scanned "@(\n'a',\n#'b',\n'c'\n) | % \x7b choco install $_ \x7d".toList = [] ∧
      scanned "@(\n'a',\n'c'\n) | % \x7b choco install $_ \x7d".toList =
        [plainPackage .choco [] "a".toList, plainPackage .choco [] "c".toList] := by
  decide

end SetupCatalog.Rule.PipedArray
