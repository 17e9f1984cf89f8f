import SetupCatalog.Proofs.Rule.IdSearch
import SetupCatalog.Proofs.Rule.LineByLine
import SetupCatalog.Proofs.Rule.ModuleArguments
import SetupCatalog.Proofs.Script.Semicolon

/-!
# Declarations with a statement behind them

A line may go on with a semicolon and a further statement. The rules that go line by line take all
of it as arguments of the call that they find, so the further statement can change what the first
one declares. `mem_foundOn_append_semicolon` says when it does: a package of Chocolatey stays; an
identity of winget stays if it is found in the words that stand clear of the semicolon and in the
words behind it; a module stays, and its arguments stay if the further statement neither allows
prereleases nor touches the repository.
-/

namespace SetupCatalog.Rule

open Text Pattern Script

/-! ## Chocolatey -/

/-- The first name decides, so the words at the end may be others if they give what the first ones
give. -/
theorem Choco.packageIn_append {tail tail' : List Text}
    (htail : ∀ {skipping name}, packageIn skipping tail = some name →
      packageIn skipping tail' = some name)
    {skipping : Bool} {words : List Text} {name : Text}
    (h : packageIn skipping (words ++ tail) = some name) :
    packageIn skipping (words ++ tail') = some name := by
  induction words generalizing skipping with
  | nil => exact htail h
  | cons word words ih =>
    rw [List.cons_append, packageIn] at h ⊢
    split at h
    · next hskip => rw [if_pos hskip, ih h]
    · next hskip =>
      rw [if_neg hskip]
      split at h
      · next hflag => rw [if_pos hflag, ih h]
      · next hflag => rw [if_neg hflag, h]

/-- No name has a semicolon in it, so the last word may go on with one. -/
theorem Choco.packageIn_append_semicolon {skipping : Bool} {word name : Text}
    (h : packageIn skipping [word] = some name) (more : Text) (others : List Text) :
    packageIn skipping ((word ++ ';' :: more) :: others) = some name := by
  rw [packageIn] at h ⊢
  split at h
  · cases h
  · next hskip =>
    rw [if_neg hskip]
    split at h
    · cases h
    · next hflag =>
      cases word with
      | nil => cases h
      | cons c word =>
        have hword : ¬ isFlag (c :: word ++ ';' :: more) = true := hflag
        rw [nameAtStart] at h
        rw [if_neg hword, List.cons_append, nameAtStart, takeWhile_append_stop (by decide), h]

/-- Text after a semicolon cannot change the package of arguments that close what they open: the
name is already found, and a first pass that found one is never repeated. -/
theorem Choco.packageOf_append_semicolon {arguments name : Text} (hclosed : ¬ LeavesOpen arguments)
    (h : packageOf arguments = some name) (second : Text) :
    packageOf (arguments ++ ';' :: second) = some name := by
  obtain ⟨front, words, word, rfl, hfront, hword⟩ := exists_splitsInto_append hclosed
  rw [packageOf, hfront.arguments_append] at h
  rw [packageOf, hfront.arguments_append_cons hword (by decide) (by decide)]
  refine packageIn_append (fun {skipping name} hlast => ?_) h
  by_cases hne : word = []
  · rw [hne] at hlast
    cases hlast
  · have hwords : Script.arguments word = [word] := by
      have := @arguments_bare word [] hne hword rfl
      rwa [List.append_nil] at this
    rw [hwords] at hlast
    exact packageIn_append_semicolon hlast _ _

/-! ## The rules on a line with two statements -/

/-- What the rule for modules finds on a line. -/
theorem mem_foundOn_psModule_iff {options : ScanOptions} {script line : Text} {p : Package}
    (hline : ∀ c ∈ line, isLineBreak c = false) :
    p ∈ psModule.foundOn options script line ↔
      isComment line = false ∧
        ∃ arguments, PsModule.moduleCall.find? line = some arguments ∧
          ∃ name, PsModule.moduleOf arguments = some name ∧
            p = { plainPackage .psModule script name with
              extraArgs := PsModule.keptArguments arguments } := by
  have hcandidates := @PsModule.mem_candidates_iff script line p
  rw [mem_foundOn_iff (by decide) options script hline]
  by_cases hne : line = []
  · subst hne
    refine iff_of_false (fun h => ?_) ?_
    · cases h
    · rintro ⟨-, arguments, hcall, -⟩
      cases hcall
  · simp only [lines_of_line hline hne, List.mem_singleton, exists_eq_left] at hcandidates
    exact hcandidates

section Line

variable {first second : Text} (hfirst : ∀ c ∈ first, isLineBreak c = false)
  (hsecond : ∀ c ∈ second, isLineBreak c = false)

include hfirst hsecond

/-- Two statements on one line, with the semicolon between them, are one line. -/
theorem isLineBreak_append_semicolon : ∀ c ∈ first ++ ';' :: second, isLineBreak c = false := by
  intro c hc
  rcases List.mem_append.mp hc with hc | hc
  · exact hfirst c hc
  · rcases List.mem_cons.mp hc with rfl | hc
    · decide
    · exact hsecond c hc

theorem mem_freeLines_append_semicolon (hloop : usesLoopVariable second = false) {line : Text}
    (h : line ∈ freeLines first) :
    line = first ∧ first ++ ';' :: second ∈ freeLines (first ++ ';' :: second) := by
  have hne : first ≠ [] := by
    rintro rfl
    cases h
  obtain ⟨hcomment, hfree, rfl⟩ := (mem_freeLines_of_line hfirst hne).mp h
  refine ⟨rfl, (mem_freeLines_of_line (isLineBreak_append_semicolon hfirst hsecond)
    (by simp)).mpr ⟨isComment_append_semicolon hcomment second, ?_, rfl⟩⟩
  rw [usesLoopVariable_append_semicolon, hfree, hloop]
  rfl

variable {options : ScanOptions} {script : Text} {r : Package}

/-- A `choco` record stays when another statement follows on its line, unless its arguments leave a
quote open. -/
theorem mem_foundOn_choco_append (hloop : usesLoopVariable second = false)
    (h : r ∈ choco.foundOn options script first)
    (hclosed : ∀ arguments, chocoCall.find? first = some arguments → ¬ LeavesOpen arguments) :
    r ∈ choco.foundOn options script (first ++ ';' :: second) := by
  have hboth := isLineBreak_append_semicolon hfirst hsecond
  obtain ⟨line, hline, arguments, hcall, name, hname, rfl⟩ :=
    Choco.mem_candidates_iff.mp ((mem_foundOn_iff (by decide) options script hfirst).mp h)
  obtain ⟨rfl, hfree⟩ := mem_freeLines_append_semicolon hfirst hsecond hloop hline
  refine (mem_foundOn_iff (by decide) options script hboth).mpr
    (Choco.mem_candidates_iff.mpr ⟨_, hfree, arguments ++ ';' :: second, ?_, name, ?_, rfl⟩)
  · exact find?_withArguments_append (by decide) hfirst hsecond hcall
  · exact Choco.packageOf_append_semicolon (hclosed arguments hcall) hname second

/-- A `winget` record stays under another statement exactly when the identifier and the scope read
from both statements together are still its own. -/
theorem mem_foundOn_winget_append_iff (hloop : usesLoopVariable second = false)
    (h : r ∈ winget.foundOn options script first) {arguments : Text}
    (hcall : wingetCall.find? first = some arguments) {front word : Text} {words : List Text}
    (harguments : arguments = front ++ word) (hfront : SplitsInto front words)
    (hword : IsBare word) :
    r ∈ winget.foundOn options script (first ++ ';' :: second) ↔
      Winget.idAround words (Script.arguments (second.dropWhile fun c => !isBlank c)) =
        some r.id ∧
      ((scopeFlag.find? arguments).or (scopeFlag.find? second)).getD options.defaultScope =
        r.scope := by
  have hboth := isLineBreak_append_semicolon hfirst hsecond
  obtain ⟨line, hline, others, hothers, id, hid, rfl⟩ :=
    Winget.mem_candidates_iff.mp ((mem_foundOn_iff (by decide) options script hfirst).mp h)
  obtain ⟨rfl, hfree⟩ := mem_freeLines_append_semicolon hfirst hsecond hloop hline
  obtain rfl : arguments = others := Option.some.inj (hcall.symm.trans hothers)
  have hcallBoth : wingetCall.find? (line ++ ';' :: second) = some (arguments ++ ';' :: second) :=
    find?_withArguments_append (by decide) hfirst hsecond hcall
  -- the semicolon joins the last word of the first statement to the first word of the second
  have hidBoth : Winget.idOf (arguments ++ ';' :: second) =
      Winget.idAround words (Script.arguments (second.dropWhile fun c => !isBlank c)) := by
    rw [harguments]
    exact Winget.idOf_of_arguments (Winget.isInert_append_semicolon word _)
      (hfront.arguments_append_cons hword (by decide) (by decide))
  rw [mem_foundOn_iff (by decide) options script hboth, ← scopeOf_append_semicolon, ← hidBoth]
  constructor
  · intro hmem
    obtain ⟨line', hline', others', hothers', id', hid', hr⟩ := Winget.mem_candidates_iff.mp hmem
    obtain ⟨-, -, rfl⟩ := (mem_freeLines_of_line hboth (by simp)).mp hline'
    obtain rfl := Option.some.inj (hcallBoth.symm.trans hothers')
    have hsame : id = id' := congrArg Package.id hr
    exact ⟨hsame ▸ hid', (congrArg Package.scope hr).symm⟩
  · rintro ⟨hsame, hscope⟩
    refine Winget.mem_candidates_iff.mpr ⟨_, hfree, _, hcallBoth, id, hsame, ?_⟩
    rw [hscope]

/-- The module stays, and what is kept of the arguments is what is kept of the arguments of both
statements. -/
theorem mem_foundOn_psModule_append (h : r ∈ psModule.foundOn options script first) :
    ∃ arguments, PsModule.moduleCall.find? first = some arguments ∧
      r.extraArgs = PsModule.keptArguments arguments ∧
      ∀ q, q ∈ psModule.foundOn options script (first ++ ';' :: second) ↔
        q = { r with extraArgs := PsModule.keptArguments (arguments ++ ';' :: second) } := by
  have hboth := isLineBreak_append_semicolon hfirst hsecond
  obtain ⟨hcomment, arguments, hcall, name, hname, rfl⟩ :=
    (mem_foundOn_psModule_iff hfirst).mp h
  have hcallBoth := PsModule.find?_moduleCall_append hfirst hsecond hcall
  have hnameBoth := PsModule.moduleOf_append_semicolon hname second
  refine ⟨arguments, hcall, rfl, fun q => ?_⟩
  rw [mem_foundOn_psModule_iff hboth]
  constructor
  · rintro ⟨-, others, hothers, name', hname', rfl⟩
    obtain rfl := Option.some.inj (hcallBoth.symm.trans hothers)
    obtain rfl := Option.some.inj (hnameBoth.symm.trans hname')
    rfl
  · rintro rfl
    exact ⟨isComment_append_semicolon hcomment second, _, hcallBoth, name, hnameBoth, rfl⟩

/-- A module's record stays under another statement exactly when that statement brings no prerelease
flag that was not there, and leaves the repository as it is. -/
theorem mem_foundOn_psModule_append_iff (h : r ∈ psModule.foundOn options script first)
    {arguments : Text} (hcall : PsModule.moduleCall.find? first = some arguments) :
    r ∈ psModule.foundOn options script (first ++ ';' :: second) ↔
      (PsModule.prereleaseFlag.occursIn second = true →
        PsModule.prereleaseFlag.occursIn arguments = true) ∧
      PsModule.RepositoryStays arguments second := by
  obtain ⟨others, hothers, hargs, hfound⟩ := mem_foundOn_psModule_append hfirst hsecond h
  obtain rfl : arguments = others := Option.some.inj (hcall.symm.trans hothers)
  -- the record differs in the kept arguments alone
  have hsame : r = { r with extraArgs := PsModule.keptArguments (arguments ++ ';' :: second) } ↔
      PsModule.keptArguments (arguments ++ ';' :: second) = PsModule.keptArguments arguments := by
    rw [← hargs]
    constructor
    · exact fun heq => (congrArg Package.extraArgs heq).symm
    · intro heq
      rw [heq]
  rw [hfound r, hsame, PsModule.keptArguments_eq_iff, PsModule.repositoryStays_iff,
    PsModule.occursIn_prereleaseFlag_append]
  refine and_congr_left fun _ => ?_
  cases PsModule.prereleaseFlag.occursIn arguments <;>
    cases PsModule.prereleaseFlag.occursIn second <;> decide

end Line

/-- What a line declares with a semicolon and a further statement behind it, compared with what it
declares alone. -/
theorem mem_foundOn_append_semicolon {first second : Text}
    (hfirst : ∀ c ∈ first, isLineBreak c = false) (hsecond : ∀ c ∈ second, isLineBreak c = false)
    (hloop : usesLoopVariable second = false) (options : ScanOptions) (script : Text)
    {r : Package} :
    (r ∈ choco.foundOn options script first →
      (∀ arguments, chocoCall.find? first = some arguments → ¬ LeavesOpen arguments) →
      r ∈ choco.foundOn options script (first ++ ';' :: second)) ∧
    (r ∈ winget.foundOn options script first →
      ∀ arguments, wingetCall.find? first = some arguments → ¬ LeavesOpen arguments →
      ∃ front words word,
        arguments = front ++ word ∧ SplitsInto front words ∧ IsBare word ∧
        (r ∈ winget.foundOn options script (first ++ ';' :: second) ↔
          Winget.idAround words (Script.arguments (second.dropWhile fun c => !isBlank c)) =
            some r.id ∧
          ((scopeFlag.find? arguments).or (scopeFlag.find? second)).getD options.defaultScope =
            r.scope)) ∧
    (r ∈ psModule.foundOn options script first →
      (∃ r' ∈ psModule.foundOn options script (first ++ ';' :: second),
        r'.id = r.id ∧ r'.scope = r.scope) ∧
      ∀ arguments, PsModule.moduleCall.find? first = some arguments →
        (r ∈ psModule.foundOn options script (first ++ ';' :: second) ↔
          (PsModule.prereleaseFlag.occursIn second = true →
            PsModule.prereleaseFlag.occursIn arguments = true) ∧
          PsModule.RepositoryStays arguments second)) := by
  refine ⟨fun h hclosed => ?_, fun h arguments hcall hclosed => ?_, fun h => ?_⟩
  · exact mem_foundOn_choco_append hfirst hsecond hloop h hclosed
  · -- a quote that is left open would take the second statement in, so the arguments are split here
    obtain ⟨front, words, word, harguments, hfront, hword⟩ := exists_splitsInto_append hclosed
    exact ⟨front, words, word, harguments, hfront, hword,
      mem_foundOn_winget_append_iff hfirst hsecond hloop h hcall harguments hfront hword⟩
  · refine ⟨?_, fun arguments hcall => mem_foundOn_psModule_append_iff hfirst hsecond h hcall⟩
    obtain ⟨arguments, -, -, hfound⟩ := mem_foundOn_psModule_append hfirst hsecond h
    exact ⟨_, (hfound _).mpr rfl, rfl, rfl⟩

/-- Three calls with the same statement behind them. -/
theorem mem_foundOn_append_semicolon_ls :
    plainPackage .choco [] "git".toList ∈
      choco.foundOn {} [] ("choco install -y git".toList ++ ';' :: "ls".toList) ∧
    (∃ front words word,
      " Git.Git -e".toList = front ++ word ∧ SplitsInto front words ∧ IsBare word ∧
      ({ plainPackage .winget [] "Git.Git".toList with scope := "machine".toList } ∈
          winget.foundOn {} [] ("winget install Git.Git -e".toList ++ ';' :: "ls".toList) ↔
        Winget.idAround words [] = some "Git.Git".toList ∧
          ((scopeFlag.find? " Git.Git -e".toList).or (scopeFlag.find? "ls".toList)).getD
            "machine".toList = "machine".toList)) ∧
    (∃ r' ∈ psModule.foundOn {} [] ("Install-Module Pester".toList ++ ';' :: "ls".toList),
      r'.id = "Pester".toList ∧ r'.scope = []) ∧
    (plainPackage .psModule [] "Pester".toList ∈
        psModule.foundOn {} [] ("Install-Module Pester".toList ++ ';' :: "ls".toList) ↔
      (PsModule.prereleaseFlag.occursIn "ls".toList = true →
        PsModule.prereleaseFlag.occursIn " Pester".toList = true) ∧
      PsModule.RepositoryStays " Pester".toList "ls".toList) := by
  have hls : ∀ c ∈ "ls".toList, isLineBreak c = false := any_eq_false_iff.mp (by decide)
  have hchoco := @mem_foundOn_append_semicolon "choco install -y git".toList "ls".toList
    (any_eq_false_iff.mp (by decide)) hls (by decide) {} [] (plainPackage .choco [] "git".toList)
  have hwinget := @mem_foundOn_append_semicolon "winget install Git.Git -e".toList "ls".toList
    (any_eq_false_iff.mp (by decide)) hls (by decide) {} []
    { plainPackage .winget [] "Git.Git".toList with scope := "machine".toList }
  have hmodule := @mem_foundOn_append_semicolon "Install-Module Pester".toList "ls".toList
    (any_eq_false_iff.mp (by decide)) hls (by decide) {} []
    (plainPackage .psModule [] "Pester".toList)
  -- no quote is in the arguments of the first statements, so none is left open
  refine ⟨?_, ?_, ?_⟩
  · refine hchoco.1 (by decide) fun arguments h => ?_
    obtain rfl : " -y git".toList = arguments := Option.some.inj ((by decide : _ = _).trans h)
    exact not_leavesOpen (any_eq_false_iff.mp (by decide))
  · exact hwinget.2.1 (by decide) " Git.Git -e".toList (by decide)
      (not_leavesOpen (any_eq_false_iff.mp (by decide)))
  · obtain ⟨hstays, hiff⟩ := hmodule.2.2 (by decide)
    exact ⟨hstays, hiff " Pester".toList (by decide)⟩

/-- Three declarations that change with the statement behind them: one is lost, one is made for
another scope, and one allows prereleases. -/
theorem foundOn_ne_append_semicolon :
    (winget.foundOn {} [] "winget install Git.Git".toList =
        [{ plainPackage .winget [] "Git.Git".toList with scope := "machine".toList }] ∧
      winget.foundOn {} [] "winget install Git.Git;ls".toList = []) ∧
    (winget.foundOn {} [] "winget install Git.Git -e".toList =
        [{ plainPackage .winget [] "Git.Git".toList with scope := "machine".toList }] ∧
      winget.foundOn {} [] "winget install Git.Git -e;winget install X.Y --scope user".toList =
        [{ plainPackage .winget [] "Git.Git".toList with scope := "user".toList }]) ∧
    psModule.foundOn {} [] "Install-Module Pester".toList =
        [plainPackage .psModule [] "Pester".toList] ∧
      psModule.foundOn {} [] "Install-Module Pester;Install-Module Az -AllowPrerelease".toList =
        [{ plainPackage .psModule [] "Pester".toList with
          extraArgs := "-AllowPrerelease".toList }] := by
  refine ⟨⟨?_, ?_⟩, ⟨?_, ?_⟩, ?_, ?_⟩ <;> decide

end SetupCatalog.Rule
