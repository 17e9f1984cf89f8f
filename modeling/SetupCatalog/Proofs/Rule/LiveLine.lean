import SetupCatalog.Proofs.Detector.Scan
import SetupCatalog.Proofs.Rule.ArrayReading
import SetupCatalog.Proofs.Rule.Declaration
import SetupCatalog.Proofs.Rule.Occurrence
import SetupCatalog.Proofs.Script.Comment
import SetupCatalog.Proofs.Script.Nesting

/-!
# Comments declare nothing

The rules that go through a script line by line pass over comments, and what they find stands on the
line that they look at. Two rules do not go through the script like that, and see the start of a
line only where they look for it:

* the first line of a container is what the opener leaves of its line, so a comment that the whole
  container stands on is not seen. A script that `OpensInCode` has no such container;
* what stands before a piped array is read back to a line feed, so a comment that starts after some
  other line break is not seen. In a script with `PlainBreaks` there is no other.

Under these conditions `exists_live_line_of_mem_scan` says of every rule but the one for sideloads
that what it finds stands on a line that is no comment; `exists_commented_of_mem_scan` shows that
neither condition can be left out.
-/

namespace SetupCatalog

open Text Pattern Script

/-! ## The two conditions -/

/-- No container of a script opens on a comment line: the line up to the brace is none. -/
def Script.OpensInCode (text : Text) : Prop :=
  ∀ hit ∈ blockStart.all text, Live (text.take (text.length - hit.after.length))

instance (text : Text) : Decidable (OpensInCode text) :=
  inferInstanceAs (Decidable (∀ hit ∈ blockStart.all text, isComment _ = false))

/-- Every line break of a text is a line feed, or a carriage return before one. -/
def Text.PlainBreaks (t : Text) : Prop :=
  ∀ u c v, t = u ++ c :: v → isLineBreak c = true → c = '\n' ∨ c = '\r' ∧ v.head? = some '\n'

/-- A text whose only line breaks are line feeds has plain breaks. -/
theorem Text.plainBreaks_of_all {t : Text}
    (h : t.all (fun c => c == '\n' || !isLineBreak c) = true) : t.PlainBreaks := by
  rintro u c v rfl hc
  have hmem : c ∈ u ++ c :: v := List.mem_append_right u List.mem_cons_self
  have hplain := List.all_eq_true.mp h c hmem
  rw [hc, Bool.not_true, Bool.or_false, beq_iff_eq] at hplain
  exact Or.inl hplain

theorem Text.PlainBreaks.isLineEnd_of_mem {t : Text} (h : t.PlainBreaks) {c : Char} (hc : c ∈ t)
    (hbreak : isLineBreak c = true) : isLineEnd c = true := by
  obtain ⟨u, v, ht⟩ := List.append_of_mem hc
  rcases h u c v ht hbreak with rfl | ⟨rfl, -⟩
  · decide
  · decide

namespace Rule

/-! ## Containers -/

/-- A container that opens in code opens at a live spot. -/
theorem Container.live_of_standsAt {text : Text} {b : Block} {start : Nat} (h : OpensInCode text)
    (hstands : b.StandsAt text start) :
    ∃ upTo after, text = upTo ++ (b.body ++ '}' :: after) ∧ Live upTo ∧
      ∃ c ∈ lineUpTo upTo, isBlank c = false := by
  obtain ⟨before, opener, after, htext, hopener, -⟩ := hstands
  obtain ⟨front, rfl, -⟩ := hopener.form
  have hhit : ⟨before.reverse, b.variableName, b.body ++ '}' :: after⟩ ∈ blockStart.all text := by
    refine mem_all_blockStart_iff.mpr ⟨_, hopener, ?_⟩
    rw [List.reverse_reverse]
    exact htext
  have hbrace : before ++ '$' :: (front ++ ['{']) = (before ++ '$' :: front) ++ ['{'] := by simp
  refine ⟨before ++ '$' :: (front ++ ['{']), after, by rw [htext, List.append_assoc], ?_,
    hbrace ▸ exists_visible_append_singleton (by decide) _⟩
  have hlive := h _ hhit
  -- the spot behind the opener is where its hit ends
  have hlength : text.length - (b.body ++ '}' :: after).length =
      (before ++ '$' :: (front ++ ['{'])).length := by
    rw [htext]
    simp only [List.length_append, List.length_cons]
    omega
  rw [hlength, htext, ← List.append_assoc, List.take_left] at hlive
  exact hlive

/-- The identity of an entry stands on a line that is no comment. -/
theorem Container.IsEntry.exists_line {text : Text} {b : Block} {line value : Text}
    (entry : IsEntry text b line value) (h : OpensInCode text) :
    ∃ l ∈ lines text, isComment l = false ∧ strip value <:+: l := by
  have hvisible := entry.legible_id.visible
  obtain ⟨x, y, hline⟩ := entry.id_isInfix
  have hbreaks : ∀ c ∈ x ++ strip value, isLineBreak c = false := fun c hc =>
    isLineBreak_eq_false_of_mem_lines entry.line_mem (hline ▸ List.mem_append_left y hc)
  have hid : ∀ c ∈ strip value, isLineBreak c = false := fun c hc =>
    hbreaks c (List.mem_append_right x hc)
  have hplaced : ∃ start, b.StandsAt text start := by
    have hb := entry.block_mem
    rw [← map_snd_placedBlocks] at hb
    obtain ⟨⟨start, b⟩, hplaced, rfl⟩ := List.mem_map.mp hb
    exact ⟨start, mem_placedBlocks_iff.mp hplaced⟩
  obtain ⟨start, hstands⟩ := hplaced
  obtain ⟨upTo, after, htext, hlive, hopener⟩ := live_of_standsAt h hstands
  rcases stands_of_mem_lines entry.line_mem with
    ⟨rest, hbody, -⟩ | ⟨passed, br, rest, hbody, hbr, -⟩
  · -- the line goes on after the opener
    have hspot : Live (upTo ++ x ++ strip value) := by
      rw [List.append_assoc]
      exact hlive.append_onLine hopener hbreaks
    obtain ⟨l, hl, hfound⟩ := hspot.exists_line hvisible hid (y ++ rest ++ '}' :: after)
    refine ⟨l, ?_, hfound⟩
    rw [htext, hbody, ← hline]
    simpa using hl
  · -- the line starts after a line break of the body, and is no comment by itself
    have hspot : Live (upTo ++ passed ++ [br] ++ x ++ strip value) := by
      obtain ⟨c, hc, hblank⟩ := hvisible
      have hstart := lineUpTo_append_break hbr (upTo ++ passed)
      rw [Live, List.append_assoc _ x, lineUpTo_append hbreaks, hstart, List.nil_append,
        ← isComment_append ⟨c, List.mem_append_right x hc, hblank⟩ y, hline]
      exact entry.not_comment
    obtain ⟨l, hl, hfound⟩ := hspot.exists_line hvisible hid (y ++ rest ++ '}' :: after)
    refine ⟨l, ?_, hfound⟩
    rw [htext, hbody, ← hline]
    simpa using hl

/-! ## Piped arrays -/

namespace PipedArray

/-- A literal stands behind its quote, on a line that is no comment there if none has started before
it; and none has started after it. -/
theorem live_of_literal {before t value rest : Text} (h : literal none t = some (value, rest))
    (hlive : Live before) (hbreaks : ∀ c ∈ t, isLineBreak c = true → isLineEnd c = true) :
    ∃ front back, t = front ++ (value ++ back) ∧
      (Live (before ++ front) ∧ (∃ c ∈ lineUpTo (before ++ front), isBlank c = false) ∧
        ∀ c ∈ value, isLineBreak c = false) ∧
      ∃ read, t = read ++ rest ∧ Live (before ++ read) := by
  obtain ⟨q, hq, -, -, hline, rfl⟩ := literal_eq_some_iff.mp h
  -- a literal ends before any line end, so the value stands on the line of its quote
  have hinside : ∀ c ∈ value, isLineBreak c = false := by
    intro c hc
    by_contra hbreak
    have hend := hbreaks c (by simp [hc]) (eq_true_of_ne_false hbreak)
    rw [hline c hc] at hend
    cases hend
  have hopened : Live (before ++ [q]) := hlive.append_singleton (isQuote_ne_hash hq)
  have hvisible :=
    exists_visible_append_singleton (isBlank_eq_false_of_isQuote hq) before
  have hclosed : Live (before ++ [q] ++ value ++ [q]) :=
    (hopened.append_onLine hvisible hinside).append_singleton (isQuote_ne_hash hq)
  exact ⟨[q], q :: rest, rfl, ⟨hopened, hvisible, hinside⟩, q :: (value ++ [q]), by simp,
    by simpa using hclosed⟩

/-- Each literal of a run stands behind its quote, on a line that is no comment there if none has
started before the run. -/
theorem live_of_literalRun {most : Nat} {before t : Text} {found : List Text} {rest : Text}
    (h : literalRun most t = some (found, rest)) (hlive : Live before)
    (hbreaks : ∀ c ∈ t, isLineBreak c = true → isLineEnd c = true) :
    ∀ value ∈ found, ∃ front back, t = front ++ (value ++ back) ∧ Live (before ++ front) ∧
      (∃ c ∈ lineUpTo (before ++ front), isBlank c = false) ∧
        ∀ c ∈ value, isLineBreak c = false := by
  refine literalRun_induction (P := fun t found _ => ∀ before, Live before →
    (∀ c ∈ t, isLineBreak c = true → isLineEnd c = true) →
    ∀ value ∈ found, ∃ front back, t = front ++ (value ++ back) ∧ Live (before ++ front) ∧
      (∃ c ∈ lineUpTo (before ++ front), isBlank c = false) ∧
        ∀ c ∈ value, isLineBreak c = false) ?_ ?_ h before hlive hbreaks
  · intro t value rest hvalue before hlive hbreaks other hother
    obtain ⟨front, back, hsplit, hfirst, -⟩ := live_of_literal hvalue hlive hbreaks
    rw [List.mem_singleton.mp hother]
    exact ⟨front, back, hsplit, hfirst⟩
  · intro t value after t' others rest hvalue hcomma ih before hlive hbreaks other hother
    obtain ⟨front, back, hsplit, hfirst, read, rfl, hclosed⟩ :=
      live_of_literal hvalue hlive hbreaks
    obtain ⟨blanks, hblanks, rfl⟩ := (symbol_trimStart_eq_some_iff (by decide)).mp hcomma
    have htrim : t'.takeWhile isBlank ++ trimStart t' = t' := List.takeWhile_append_dropWhile
    -- no hash sign is between two literals, so the spot behind the comma is in code if the first
    -- literal is
    have hgap : '#' ∉ blanks ++ ',' :: t'.takeWhile isBlank := by
      intro hmem
      rcases List.mem_append.mp hmem with hmem | hmem
      · exact isBlank_ne_hash (hblanks _ hmem) rfl
      · rcases List.mem_cons.mp hmem with hmem | hmem
        · exact absurd hmem (by decide)
        · exact isBlank_ne_hash (List.mem_takeWhile_imp hmem) rfl
    rcases List.mem_cons.mp hother with rfl | hother
    · exact ⟨front, back, hsplit, hfirst⟩
    · obtain ⟨front, back, hback, hfound⟩ := ih _ (hclosed.append hgap) (fun c hc =>
        hbreaks c (by rw [← htrim]; simp [hc])) other hother
      refine ⟨read ++ (blanks ++ ',' :: t'.takeWhile isBlank) ++ front, back, ?_, ?_⟩
      · conv_lhs => rw [← htrim, hback]
        simp
      · simpa using hfound

/-- What the rule takes for the start of a line is one where all line breaks are plain, unless the
match starts with a line feed. -/
theorem lineBefore_eq {α : Type} {text rest : Text} {hit : Hit α} (h : text.PlainBreaks)
    (htext : text = hit.before.reverse ++ rest) (hrest : rest.head? ≠ some '\n') :
    lineBefore hit = lineUpTo hit.before.reverse := by
  have hline : ∀ c ∈ (lineUpTo hit.before.reverse).reverse, (c != '\n') = true := by
    intro c hc
    rw [bne_iff_ne]
    rintro rfl
    exact absurd (isLineBreak_eq_false_of_mem_lineUpTo (List.mem_reverse.mp hc)) (by decide)
  rcases eq_lineUpTo_or hit.before.reverse with heq | ⟨passed, b, hb, heq⟩
  · rw [← heq, List.reverse_reverse] at hline
    rw [← heq, lineBefore, List.takeWhile_eq_self_iff.mpr hline]
  · -- the line starts behind a break, and with plain breaks this is a feed or a return with a feed
    -- behind it
    have hplain := h passed b (lineUpTo hit.before.reverse ++ rest) (by
      conv_lhs => rw [htext, heq]
      simp) hb
    have hfeed : b = '\n' := by
      rcases hplain with hfeed | ⟨-, hnext⟩
      · exact hfeed
      · cases hup : lineUpTo hit.before.reverse with
        | nil =>
          rw [hup] at hnext
          exact absurd hnext hrest
        | cons c l =>
          rw [hup] at hnext
          obtain rfl := Option.some.inj hnext
          have hc : '\n' ∈ lineUpTo hit.before.reverse := hup ▸ List.mem_cons_self
          exact absurd (isLineBreak_eq_false_of_mem_lineUpTo hc) (by decide)
    have hbefore : hit.before =
        (lineUpTo hit.before.reverse).reverse ++ '\n' :: passed.reverse := by
      rw [← List.reverse_reverse hit.before]
      conv_lhs => rw [heq]
      simp [hfeed]
    have htake : hit.before.takeWhile (fun c => c != '\n') =
        (lineUpTo hit.before.reverse).reverse := by
      conv_lhs => rw [hbefore]
      rw [List.takeWhile_append_of_pos hline, List.takeWhile_cons_of_neg (by decide),
        List.append_nil]
    rw [lineBefore, htake, List.reverse_reverse]

/-- The value of a literal stands on a line that is no comment. -/
theorem exists_line {text : Text} {hit : Hit Loop} (h : text.PlainBreaks)
    (hhit : hit ∈ loop.all text) (hbefore : isComment (lineBefore hit) = false) {value : Text}
    (hvalue : value ∈ literalValues hit.found.run) :
    ∃ line ∈ lines text, isComment line = false ∧ value <:+: line := by
  have hlegible := legible_of_mem_values hhit hvalue
  obtain ⟨rest, htext, hread⟩ := exists_of_mem_all hhit
  obtain ⟨literals, t, hrun, hagree, hquote, -⟩ := exists_literalRun_of_loop hread
  obtain ⟨opening, hopening, hhash, hat⟩ := exists_arrayOpening rest
  -- the match starts with a quote or an at sign, so it does not start inside of a pair
  have hstart : rest.head? ≠ some '\n' := by
    intro hfeed
    rcases hat with rfl | hat
    · rw [List.nil_append] at hopening
      rw [← hopening, hfeed] at hquote
      exact absurd hquote (by decide)
    · rw [hopening, List.head?_append, hat, Option.some_or] at hfeed
      exact absurd hfeed (by decide)
  have hlive : Live (hit.before.reverse ++ opening) := by
    refine Live.append ?_ hhash
    rw [Live, ← lineBefore_eq h htext hstart]
    exact hbefore
  have hbreaks : ∀ c ∈ arrayOpening rest, isLineBreak c = true → isLineEnd c = true := by
    intro c hc
    refine h.isLineEnd_of_mem ?_
    rw [htext, hopening]
    exact List.mem_append_right _ (List.mem_append_right _ hc)
  rw [hagree] at hvalue
  simp only [values, List.mem_filter, List.mem_map] at hvalue
  obtain ⟨⟨literal, hliteral, rfl⟩, -⟩ := hvalue
  obtain ⟨front, back, hsplit, hspot, hvisible, hinside⟩ :=
    live_of_literalRun hrun hlive hbreaks literal hliteral
  obtain ⟨x, y, hstrip⟩ := strip_isInfix literal
  have hupTo : ∀ c ∈ x ++ strip literal, isLineBreak c = false := fun c hc =>
    hinside c (hstrip ▸ List.mem_append_left y hc)
  have hvalue : Live (hit.before.reverse ++ opening ++ front ++ x ++ strip literal) := by
    rw [List.append_assoc _ x]
    exact hspot.append_onLine hvisible hupTo
  obtain ⟨line, hline, hfound⟩ := hvalue.exists_line hlegible.visible
    (fun c hc => hupTo c (List.mem_append_right x hc)) (y ++ back)
  refine ⟨line, ?_, hfound⟩
  rw [htext, hopening, hsplit]
  conv in literal ++ back => rw [← hstrip]
  simpa using hline

end PipedArray

/-! ## Every rule -/

/-- **Comments declare nothing.** Whatever a detector of any rule but the one for sideloads finds in
a script stands on a line that is no comment: one of the lines of the script has the identity in it,
and its first visible character is no hash sign. For containers, this takes a script where no
container opens on a comment line, and for piped arrays, one where no line break is other than a
line feed, alone or after a carriage return. -/
theorem exists_live_line_of_mem_scan {d : Detector} (hrule : d.rule ≠ .sideload)
    {script text : Text} (hopen : d.rule = .container → OpensInCode text)
    (hbreaks : d.rule = .pipedArray → text.PlainBreaks) {seen : Seen} {p : Package}
    (hp : p ∈ (d.scan script text seen).1) :
    ∃ line ∈ lines text, isComment line = false ∧ p.id <:+: line := by
  rw [Detector.scan_packages] at hp
  have hcandidate : p ∈ d.rule.candidates d.options script text := (mem_newPackages hp).1
  have hfree : ∀ {line}, line ∈ freeLines text → line ∈ lines text ∧ isComment line = false := by
    intro line hline
    rw [freeLines, List.mem_filter, Bool.and_eq_true, Bool.not_eq_true'] at hline
    exact ⟨hline.1, hline.2.1⟩
  -- the container and the array rule need their spot in code; the line rules drop commented lines
  -- themselves
  cases hcase : d.rule with
  | container =>
    rw [hcase] at hcandidate
    obtain ⟨b, line, value, entry, -, rfl⟩ := Container.mem_candidates_iff.mp hcandidate
    exact entry.exists_line (hopen hcase)
  | pipedArray =>
    rw [hcase] at hcandidate
    obtain ⟨hit, hhit, hbefore, installer, -, value, hvalue, rfl⟩ :=
      PipedArray.mem_candidates_iff.mp hcandidate
    exact PipedArray.exists_line (hbreaks hcase) hhit hbefore hvalue
  | choco =>
    rw [hcase] at hcandidate
    obtain ⟨line, hline, arguments, hcall, name, hname, rfl⟩ :=
      Choco.mem_candidates_iff.mp hcandidate
    obtain ⟨hmem, hcode⟩ := hfree hline
    exact ⟨line, hmem, hcode,
      (Choco.isInfix_of_packageOf hname).trans (isInfix_of_find?_withArguments hcall)⟩
  | winget =>
    rw [hcase] at hcandidate
    obtain ⟨line, hline, arguments, hcall, id, hid, rfl⟩ := Winget.mem_candidates_iff.mp hcandidate
    obtain ⟨hmem, hcode⟩ := hfree hline
    exact ⟨line, hmem, hcode,
      (Winget.isInfix_of_idOf hid).trans (isInfix_of_find?_withArguments hcall)⟩
  | psModule =>
    rw [hcase] at hcandidate
    obtain ⟨line, hline, hcode, arguments, hcall, name, hname, rfl⟩ :=
      PsModule.mem_candidates_iff.mp hcandidate
    obtain ⟨c, others, -, -, -, hinfix⟩ := PsModule.exists_of_moduleOf hname
    exact ⟨line, hline, hcode, hinfix.trans (PsModule.isInfix_of_find?_moduleCall hcall)⟩
  | sideload => exact absurd hcase hrule

/-- A container on one line, and the loop that installs its only entry. The line starts with the
given text. -/
def oneLineContainer (start : String) : Text :=
  (start ++ "$P = @\x7b 'a' = @\x7b Id = 'X.Y' \x7d \x7d\n" ++
    "$P.Values | % \x7b winget install --id $_.Id \x7d").toList

/-- The record of the entry. -/
def onlyEntry : Package where
  name := "X.Y".toList
  id := "X.Y".toList
  installer := .winget
  script := []
  scope := "machine".toList

/-- A piped array on a line of its own. The line starts with the given text. -/
def onePipe (start : String) : Text :=
  (start ++ "'git' | % \x7b choco install $_ \x7d").toList

/-- The record of the only literal. -/
def onlyLiteral : Package :=
  plainPackage .choco [] "git".toList

/-- Behind a statement on the same line, neither is a comment. -/
theorem exists_live_line_statement :
    (OpensInCode (oneLineContainer "$x = 1; ") ∧
      onlyEntry ∈ ((⟨.container, {}, []⟩ : Detector).scan [] (oneLineContainer "$x = 1; ") []).1 ∧
      ∃ line ∈ lines (oneLineContainer "$x = 1; "), isComment line = false ∧
        onlyEntry.id <:+: line) ∧
    (onePipe "$x = 1; ").PlainBreaks ∧
      onlyLiteral ∈ ((⟨.pipedArray, {}, []⟩ : Detector).scan [] (onePipe "$x = 1; ") []).1 ∧
      ∃ line ∈ lines (onePipe "$x = 1; "), isComment line = false ∧ onlyLiteral.id <:+: line := by
  have hopen : OpensInCode (oneLineContainer "$x = 1; ") := by decide +kernel
  have hentry : onlyEntry ∈
      ((⟨.container, {}, []⟩ : Detector).scan [] (oneLineContainer "$x = 1; ") []).1 := by
    decide +kernel
  have hbreaks : (onePipe "$x = 1; ").PlainBreaks := plainBreaks_of_all (by decide +kernel)
  have hliteral : onlyLiteral ∈
      ((⟨.pipedArray, {}, []⟩ : Detector).scan [] (onePipe "$x = 1; ") []).1 := by
    decide +kernel
  refine ⟨⟨hopen, hentry, ?_⟩, hbreaks, hliteral, ?_⟩
  · exact exists_live_line_of_mem_scan (by decide) (fun _ => hopen) (fun h => by cases h) hentry
  · exact exists_live_line_of_mem_scan (by decide) (fun h => by cases h) (fun _ => hbreaks) hliteral

/-- Neither condition can be left out. A container on one comment line declares its entry, and so
does a piped array behind a hash sign if the line starts after a carriage return. -/
theorem exists_commented_of_mem_scan :
    (onlyEntry ∈ ((⟨.container, {}, []⟩ : Detector).scan [] (oneLineContainer "# ") []).1 ∧
      ∀ line ∈ lines (oneLineContainer "# "), onlyEntry.id <:+: line → isComment line = true) ∧
    onlyLiteral ∈ ((⟨.pipedArray, {}, []⟩ : Detector).scan [] (onePipe "x\r# ") []).1 ∧
      ∀ line ∈ lines (onePipe "x\r# "), onlyLiteral.id <:+: line → isComment line = true := by
  refine ⟨⟨?_, ?_⟩, ?_, ?_⟩
  · decide +kernel
  · decide +kernel
  · decide +kernel
  · decide +kernel

end Rule

end SetupCatalog
