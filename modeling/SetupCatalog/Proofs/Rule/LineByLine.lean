import SetupCatalog.Proofs.Rule.Declaration
import SetupCatalog.Proofs.Text.LineAround

/-!
# Rules that go line by line

Three of the rules look at one line at a time: what they recognise in a text is what they recognise
on each of its lines (`candidates_eq_filterMap`). So a text in two parts is scanned like the two
parts, one after the other, and a line on which nothing can be recognised may be anywhere or nowhere
(`scan_lineByLine`).
-/

namespace SetupCatalog.Rule

open Text Script

/-- The rules that look at one line at a time. -/
def lineRules : List Rule :=
  [choco, winget, psModule]

/-- What such a rule recognises on a line. -/
def onLine (rule : Rule) (options : ScanOptions) (script line : Text) : Option Package :=
  match rule with
  | .choco =>
    if !isComment line && !usesLoopVariable line then Choco.declared? script line else none
  | .winget =>
    if !isComment line && !usesLoopVariable line then Winget.declared? options script line else none
  | .psModule => PsModule.declared? script line
  | _ => none

variable {rule : Rule}

/-- Each of the line rules reads a text one line at a time. -/
theorem candidates_eq_filterMap (hrule : rule ∈ lineRules) (options : ScanOptions)
    (script text : Text) :
    rule.candidates options script text = (lines text).filterMap (rule.onLine options script) := by
  simp only [lineRules, List.mem_cons, List.not_mem_nil, or_false] at hrule
  rcases hrule with rfl | rfl | rfl
  · exact List.filterMap_filter
  · exact List.filterMap_filter
  · rfl

/-- Nothing is recognised on an empty line. -/
theorem onLine_nil (rule : Rule) (options : ScanOptions) (script : Text) :
    rule.onLine options script [] = none := by
  cases rule <;> rfl

/-- A commented line declares nothing. -/
theorem onLine_of_isComment {line : Text} (h : isComment line = true) (options : ScanOptions)
    (script : Text) : rule.onLine options script line = none := by
  cases rule with
  | choco | winget =>
    simp only [onLine, h, Bool.not_true, Bool.false_and, Bool.false_eq_true, if_false]
  | psModule =>
    rw [onLine, PsModule.declared?, h]
    rfl
  | _ => rfl

/-- A line with a loop variable declares nothing, except to the module rule. -/
theorem onLine_of_usesLoopVariable {line : Text} (hrule : rule ≠ psModule)
    (h : usesLoopVariable line = true) (options : ScanOptions) (script : Text) :
    rule.onLine options script line = none := by
  cases rule with
  | choco | winget =>
    simp only [onLine, h, Bool.not_true, Bool.and_false, Bool.false_eq_true, if_false]
  | psModule => exact absurd rfl hrule
  | _ => rfl

/-! ## A line that is the whole script -/

/-- The packages that a rule finds in a script of one line. -/
def foundOn (rule : Rule) (options : ScanOptions) (script line : Text) : List Package :=
  ((⟨rule, options, []⟩ : Detector).scan script line []).1

/-- They are what the rule recognises there, as nothing comes twice. -/
theorem mem_foundOn_iff (hrule : rule ∈ lineRules) (options : ScanOptions) (script : Text)
    {line : Text} (hline : ∀ c ∈ line, isLineBreak c = false) {p : Package} :
    p ∈ rule.foundOn options script line ↔ p ∈ rule.candidates options script line := by
  have hcandidates : rule.candidates options script line =
      (rule.onLine options script line).toList := by
    rw [candidates_eq_filterMap hrule]
    by_cases hne : line = []
    · rw [hne, onLine_nil]
      rfl
    · rw [lines_of_line hline hne, List.filterMap_cons, List.filterMap_nil]
      cases rule.onLine options script line <;> rfl
  rw [foundOn, Detector.scan_packages, Detector.recognised, hcandidates]
  cases rule.onLine options script line with
  | none => exact Iff.rfl
  | some q => exact Iff.rfl

/-- The free lines of a single line: the line itself, or none. -/
theorem mem_freeLines_of_line {line l : Text} (hline : ∀ c ∈ line, isLineBreak c = false)
    (hne : line ≠ []) :
    l ∈ freeLines line ↔ isComment line = false ∧ usesLoopVariable line = false ∧ l = line := by
  rw [freeLines, lines_of_line hline hne, List.mem_filter, List.mem_singleton]
  constructor
  · rintro ⟨rfl, hfree⟩
    simpa using hfree
  · rintro ⟨hcomment, hloop, rfl⟩
    simp [hcomment, hloop]

/-! ## A script of several lines -/

/-- A rule that goes line by line scans a text in two parts like the two parts, one after the other,
and comments make no difference to it, wherever they are put in or taken out; neither do lines with
the variable of a loop, if it is a rule for single installations. -/
theorem scan_lineByLine {d : Detector} (hd : d.rule ∈ lineRules) (script : Text) :
    (∀ (first second : Text) (b : Char) (seen : Seen), isLineBreak b = true →
      (d.scan script (first ++ b :: second) seen).1 =
          (d.scan script first seen).1 ++
            (d.scan script second (d.scan script first seen).2.1).1 ∧
        (d.scan script (first ++ b :: second) seen).2.1 =
          (d.scan script second (d.scan script first seen).2.1).2.1) ∧
    ∀ (text longer line : Text) (above below : List Text) (seen : Seen),
      lines text = above ++ below → lines longer = above ++ line :: below →
      isComment line = true ∨ d.rule ≠ psModule ∧ usesLoopVariable line = true →
      (d.scan script longer seen).1 = (d.scan script text seen).1 ∧
        (d.scan script longer seen).2.1 = (d.scan script text seen).2.1 := by
  constructor
  · intro first second b seen hb
    have hsplit : d.recognised script (first ++ b :: second) =
        d.recognised script first ++ d.recognised script second := by
      rw [Detector.recognised, Detector.recognised, Detector.recognised,
        candidates_eq_filterMap hd, candidates_eq_filterMap hd, candidates_eq_filterMap hd,
        filterMap_lines_append (onLine_nil d.rule d.options script) hb]
    simp only [Detector.scan_packages, Detector.scan_seen, hsplit, newPackages_append,
      seenAfter_append, and_self]
  · intro text longer line above below seen htext hlonger hline
    -- a line that declares nothing makes no difference wherever it stands
    have hnone : d.rule.onLine d.options script line = none := by
      rcases hline with hcomment | ⟨hrule, hloop⟩
      · exact onLine_of_isComment hcomment d.options script
      · exact onLine_of_usesLoopVariable hrule hloop d.options script
    have hsame : d.recognised script longer = d.recognised script text := by
      rw [Detector.recognised, Detector.recognised, candidates_eq_filterMap hd,
        candidates_eq_filterMap hd, htext, hlonger, List.filterMap_append, List.filterMap_append,
        List.filterMap_cons_none hnone]
    simp only [Detector.scan_packages, Detector.scan_seen, hsame, and_self]

/-- Two texts that install the same package, and a line of a loop between their lines. -/
theorem scan_lineByLine_winget :
    let d : Detector := ⟨.winget, {}, []⟩
    let first := "winget install A.B".toList
    let second := "winget install a.b\nwinget install C.D".toList
    let longer := first ++ "\nwinget install $_\n".toList ++ second
    ((d.scan [] (first ++ '\n' :: second) []).1 =
        (d.scan [] first []).1 ++ (d.scan [] second (d.scan [] first []).2.1).1 ∧
      (d.scan [] (first ++ '\n' :: second) []).2.1 =
        (d.scan [] second (d.scan [] first []).2.1).2.1) ∧
    (d.scan [] longer []).1 = (d.scan [] (first ++ '\n' :: second) []).1 ∧
      (d.scan [] longer []).2.1 = (d.scan [] (first ++ '\n' :: second) []).2.1 := by
  intro d first second longer
  obtain ⟨hparts, hline⟩ := @scan_lineByLine d (by decide) []
  refine ⟨hparts first second '\n' [] (by decide), ?_⟩
  exact hline _ longer "winget install $_".toList [first]
    ["winget install a.b".toList, "winget install C.D".toList] [] (by decide) (by decide)
    (Or.inr (by decide))

end SetupCatalog.Rule
