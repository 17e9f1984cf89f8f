import SetupCatalog.Proofs.Rule.ModuleArguments

/-!
# Kept arguments in their canonical form

Of the arguments of `Install-Module` at most two are kept, in one order and one spelling. What is
kept is `Canonical`, and the canonical texts are exactly those that are kept as they are. So keeping
twice is keeping once.

The case to look at is a repository whose name has the flag for prereleases in it. In what is kept,
the name has a space before it and nothing after it; in the arguments it can stand in quotes. Either
way it stands between characters that the flag does not go across, so the flag is found in the
arguments as well (`occursIn_of_repository`), and then it is kept in front of the repository.
-/

namespace SetupCatalog.Rule.PsModule

open Text Pattern

/-- A text can be the name of a repository: it is not empty, and no character of it is blank or a
quote. -/
def IsRepository (v : Text) : Prop :=
  v ≠ [] ∧ ∀ c ∈ v, isBlank c = false ∧ isQuote c = false

/-- The forms of what is kept. A repository stands alone only if its name does not have the flag for
prereleases in it. -/
inductive Canonical : Text → Prop
  | nothing : Canonical []
  | prerelease : Canonical "-AllowPrerelease".toList
  | repository {v : Text} (hv : IsRepository v) (hflag : prereleaseFlag.occursIn v = false) :
      Canonical ("-Repository ".toList ++ v)
  | both {v : Text} (hv : IsRepository v) : Canonical ("-AllowPrerelease -Repository ".toList ++ v)

/-! ## The texts of the two arguments -/

theorem repository_append (v : Text) :
    "-Repository ".toList ++ v = "-Repository".toList ++ ' ' :: v := by
  have hspace : "-Repository ".toList = "-Repository".toList ++ [' '] := by decide
  rw [hspace, List.append_assoc, List.singleton_append]

theorem prerelease_append (t : Text) :
    "-AllowPrerelease ".toList ++ t = "-AllowPrerelease".toList ++ ' ' :: t := by
  have hspace : "-AllowPrerelease ".toList = "-AllowPrerelease".toList ++ [' '] := by decide
  rw [hspace, List.append_assoc, List.singleton_append]

theorem prerelease_repository_append (v : Text) :
    "-AllowPrerelease -Repository ".toList ++ v =
      "-AllowPrerelease ".toList ++ ("-Repository ".toList ++ v) := by
  have hparts : "-AllowPrerelease -Repository ".toList =
      "-AllowPrerelease ".toList ++ "-Repository ".toList := by
    decide
  rw [hparts, List.append_assoc]

/-! ## Names of repositories -/

/-- A repository's name goes on exactly over what is neither blank nor a quote. -/
theorem isRepositoryChar_iff {c : Char} :
    isRepositoryChar c = true ↔ isBlank c = false ∧ isQuote c = false := by
  rw [isRepositoryChar, Bool.and_eq_true, Bool.not_eq_true', Bool.not_eq_true']

/-- A repository's name stops exactly at a blank or a quote. -/
theorem isRepositoryChar_eq_false_iff {c : Char} :
    isRepositoryChar c = false ↔ isBlank c = true ∨ isQuote c = true := by
  rw [isRepositoryChar, Bool.and_eq_false_iff, Bool.not_eq_false', Bool.not_eq_false']

/-- Blank characters end with one. -/
theorem exists_of_someBlanks {t rest : Text} (h : someBlanks t = some rest) :
    ∃ front b, isBlank b = true ∧ t = front ++ b :: rest := by
  unfold someBlanks at h
  split at h
  · next c u =>
    split at h
    · next hc =>
      obtain rfl := Option.some.inj h
      have hne : c :: u.takeWhile isBlank ≠ [] := List.cons_ne_nil _ _
      have hall : ∀ b ∈ c :: u.takeWhile isBlank, isBlank b = true := by
        intro b hb
        rcases List.mem_cons.mp hb with rfl | hb
        · exact hc
        · exact List.mem_takeWhile_imp hb
      refine ⟨(c :: u.takeWhile isBlank).dropLast, _, hall _ (List.getLast_mem hne), ?_⟩
      rw [List.append_cons, List.dropLast_append_getLast hne, List.cons_append, trimStart,
        List.takeWhile_append_dropWhile]
    · cases h
  · cases h

/-- The parameter that names a repository, and where the name stands: right behind a character that
no name has in it, and before another one or the end of the text. -/
theorem exists_of_repositoryParameter {prev : Option Char} {t v after : Text}
    (h : repositoryParameter prev t = some (v, after)) :
    IsRepository v ∧ after.head?.any isRepositoryChar = false ∧
      ∃ front stop, isRepositoryChar stop = false ∧ t = front ++ stop :: (v ++ after) := by
  simp only [repositoryParameter, bind, Option.bind_eq_some_iff, Option.guard_eq_some',
    exists_const] at h
  obtain ⟨-, t₁, hword, t₂, hblanks, hname⟩ := h
  obtain ⟨hne, hchars, hquote, hafter⟩ := someOf_eq_some_iff.mp hname
  refine ⟨⟨hne, fun c hc => isRepositoryChar_iff.mp (hchars c hc)⟩, hafter, ?_⟩
  obtain ⟨spelt, rfl⟩ := suffix_of_keyword hword
  obtain ⟨blanks, b, hb, rfl⟩ := exists_of_someBlanks hblanks
  cases t₂ with
  | nil => exact absurd hquote.symm (List.append_ne_nil_of_left_ne_nil hne after)
  | cons c t₂ =>
    -- before the name stands a quote or the last of the blanks
    rw [optionalQuote] at hquote
    split at hquote
    · next hc =>
      refine ⟨spelt ++ (blanks ++ [b]), c, isRepositoryChar_eq_false_iff.mpr (.inr hc), ?_⟩
      rw [← hquote]
      simp
    · refine ⟨spelt ++ blanks, b, isRepositoryChar_eq_false_iff.mpr (.inl hb), ?_⟩
      rw [← hquote]
      simp

/-- The repository that arguments name. -/
theorem exists_of_find?_repositoryParameter {arguments v : Text}
    (h : repositoryParameter.find? arguments = some v) :
    IsRepository v ∧ ∃ front stop after, isRepositoryChar stop = false ∧
      after.head?.any isRepositoryChar = false ∧ arguments = front ++ stop :: (v ++ after) := by
  obtain ⟨before, t, after, rfl, hread, -⟩ := find?_eq_some_iff.mp h
  obtain ⟨hv, hafter, front, stop, hstop, rfl⟩ := exists_of_repositoryParameter hread
  exact ⟨hv, before ++ front, stop, after, hstop, hafter, (List.append_assoc _ _ _).symm⟩

/-- A name is found behind its parameter, whatever stands before. -/
theorem repositoryParameter_text {v : Text} (hv : IsRepository v) {prev : Option Char}
    (hprev : flagStarts prev = true) :
    repositoryParameter prev ("-Repository ".toList ++ v) = some (v, []) := by
  have hword : keyword "-Repository".toList ("-Repository ".toList ++ v) = some (' ' :: v) := by
    rw [repository_append, keyword_self]
  obtain ⟨c, u, rfl⟩ := List.exists_cons_of_ne_nil hv.1
  obtain ⟨hblank, hquote⟩ := hv.2 c List.mem_cons_self
  have hblanks : someBlanks (' ' :: c :: u) = some (c :: u) := by
    rw [someBlanks, if_pos (by decide), trimStart, List.dropWhile_cons_of_neg (by simp [hblank])]
  have hname : someOf isRepositoryChar (c :: u) = some (c :: u, []) :=
    someOf_eq_some_iff.mpr
      ⟨hv.1, fun d hd => isRepositoryChar_iff.mpr (hv.2 d hd), (List.append_nil _).symm, rfl⟩
  simp only [repositoryParameter, bind, hprev, guard, if_true, pure, Option.bind_some, hword,
    hblanks, optionalQuote, hquote, Bool.false_eq_true, if_false, hname]

/-! ## The flag for prereleases between other characters -/

section Between

variable {stop : Char} (h : isRepositoryChar stop = false)

include h

/-- The flag does not go across a character that no name of a repository has in it. -/
theorem prereleaseFlag_stopsAt_of_not_name : prereleaseFlag.StopsAt stop := by
  rcases isRepositoryChar_eq_false_iff.mp h with hblank | hquote
  · have hletters : ∀ w ∈ "-AllowPrerelease".toList, isBlank (lowerChar w) = false :=
      List.forall_mem_iff_forall_getElem.mpr (by decide)
    refine prereleaseFlag_stopsAt ?_ (isWord_eq_false_of_isBlank hblank)
    exact any_eq_false_iff.mpr fun w hw => sameLetter_eq_false_of_isBlank (hletters w hw) hblank
  · simp only [isQuote, Bool.or_eq_true, beq_iff_eq] at hquote
    rcases hquote with rfl | rfl <;> exact prereleaseFlag_stopsAt (by decide) (by decide)

/-- The flag can start behind such a character as at the start of a text. -/
theorem prereleaseFlag_behind (t : Text) :
    prereleaseFlag (some stop) t = prereleaseFlag none t := by
  have hstarts : flagStarts (some stop) = true := by
    rcases isRepositoryChar_eq_false_iff.mp h with hblank | hquote
    · have hhyphen : stop ≠ '-' := by
        rintro rfl
        exact absurd hblank (by decide)
      simp [flagStarts, isWord_eq_false_of_isBlank hblank, hhyphen]
    · simp only [isQuote, Bool.or_eq_true, beq_iff_eq] at hquote
      rcases hquote with rfl | rfl <;> decide
  rw [prereleaseFlag, hstarts]
  rfl

/-- The flag occurs in a text with such a character in it if it occurs before the character or after
it. -/
theorem occursIn_prereleaseFlag_around (t more : Text) :
    prereleaseFlag.occursIn (t ++ stop :: more) =
      (prereleaseFlag.occursIn t || prereleaseFlag.occursIn more) :=
  (prereleaseFlag_stopsAt_of_not_name h).occursIn (prereleaseFlag_behind h) t more

end Between

/-- Arguments allow prereleases if the name of their repository has the flag in it. -/
theorem occursIn_of_repository {arguments v : Text}
    (h : repositoryParameter.find? arguments = some v) (hflag : prereleaseFlag.occursIn v = true) :
    prereleaseFlag.occursIn arguments = true := by
  obtain ⟨-, front, stop, after, hstop, hafter, rfl⟩ := exists_of_find?_repositoryParameter h
  have hname : prereleaseFlag.occursIn (v ++ after) = true := by
    cases after with
    | nil => rw [List.append_nil, hflag]
    | cons c after => rw [occursIn_prereleaseFlag_around hafter, hflag, Bool.true_or]
  rw [occursIn_prereleaseFlag_around hstop, hname, Bool.or_true]

/-! ## What is kept -/

/-- What is kept where a repository is named. -/
theorem keptArguments_of_repository {arguments v : Text} {prerelease : Bool}
    (hflag : prereleaseFlag.occursIn arguments = prerelease)
    (hrepository : repositoryParameter.find? arguments = some v) :
    keptArguments arguments =
      if prerelease then "-AllowPrerelease -Repository ".toList ++ v
      else "-Repository ".toList ++ v := by
  rw [keptArguments, hflag, hrepository]
  cases prerelease <;> rfl

/-- What is kept where no repository is named. -/
theorem keptArguments_of_none {arguments : Text} {prerelease : Bool}
    (hflag : prereleaseFlag.occursIn arguments = prerelease)
    (hrepository : repositoryParameter.find? arguments = none) :
    keptArguments arguments = if prerelease then "-AllowPrerelease".toList else [] := by
  rw [keptArguments, hflag, hrepository]
  cases prerelease <;> rfl

/-- The kept arguments always have one of the four canonical forms. -/
theorem canonical_keptArguments (arguments : Text) : Canonical (keptArguments arguments) := by
  cases hrepository : repositoryParameter.find? arguments with
  | none =>
    rw [keptArguments_of_none rfl hrepository]
    split
    · exact .prerelease
    · exact .nothing
  | some v =>
    have hv := (exists_of_find?_repositoryParameter hrepository).1
    rw [keptArguments_of_repository rfl hrepository]
    split
    · exact .both hv
    · next hprerelease =>
      refine .repository hv (eq_false_of_ne_true fun hflag => ?_)
      exact hprerelease (occursIn_of_repository hrepository hflag)

/-- The parameter for the repository is not found in the flag for prereleases. -/
theorem repositoryParameter_passesOver_flag (rest : Text) :
    repositoryParameter.PassesOver "-AllowPrerelease ".toList rest := by
  have hothers : ∀ c ∈ "AllowPrerelease ".toList, c ≠ '-' :=
    List.forall_mem_iff_forall_getElem.mpr (by decide)
  refine PassesOver.cons (fun prev => ?_) (passesOver_of_forall_mem (fun c hc prev t => ?_) rest)
  · have hword : keyword "-Repository".toList ("-AllowPrerelease ".toList ++ rest) = none := rfl
    show repositoryParameter prev ("-AllowPrerelease ".toList ++ rest) = none
    simp only [repositoryParameter, bind, hword, Option.bind_none, Option.bind_eq_none_iff,
      implies_true]
  · exact repositoryParameter_eq_none (by simpa using hothers c hc)

/-- Canonical texts are kept as they are. -/
theorem Canonical.keptArguments_eq {t : Text} (h : Canonical t) : keptArguments t = t := by
  have hspace : isRepositoryChar ' ' = false := by decide
  -- the first two forms are fixed texts; in the others the flag is looked for in the name as well
  cases h with
  | nothing => decide
  | prerelease => decide
  | @repository v hv hflag =>
    have hprerelease : prereleaseFlag.occursIn ("-Repository ".toList ++ v) = false := by
      rw [repository_append, occursIn_prereleaseFlag_around hspace, hflag]
      decide
    have hrepository : repositoryParameter.find? ([] ++ ("-Repository ".toList ++ v)) = some v :=
      find?_of_passesOver (passesOver_nil _ _) (repositoryParameter_text hv rfl)
    rw [List.nil_append] at hrepository
    rw [keptArguments_of_repository hprerelease hrepository, if_neg Bool.false_ne_true]
  | @both v hv =>
    rw [prerelease_repository_append]
    have hprerelease : prereleaseFlag.occursIn
        ("-AllowPrerelease ".toList ++ ("-Repository ".toList ++ v)) = true := by
      have hflag : prereleaseFlag.occursIn "-AllowPrerelease".toList = true := by decide
      rw [prerelease_append, occursIn_prereleaseFlag_around hspace, hflag, Bool.true_or]
    have hrepository : repositoryParameter.find?
        ("-AllowPrerelease ".toList ++ ("-Repository ".toList ++ v)) = some v :=
      find?_of_passesOver (repositoryParameter_passesOver_flag _) (repositoryParameter_text hv rfl)
    rw [keptArguments_of_repository hprerelease hrepository, if_pos rfl,
      prerelease_repository_append]

/-- **What is kept of arguments is canonical.** It is nothing, the flag for prereleases, a
repository or both, and the name of the repository stands in the arguments. Keeping it once more
changes nothing: the canonical texts, and no others, are kept as they are. -/
theorem keptArguments_canonical (arguments : Text) :
    let kept := keptArguments arguments
    (kept = [] ∨ kept = "-AllowPrerelease".toList ∨
      ∃ v, IsRepository v ∧ v <:+: arguments ∧
        (kept = "-Repository ".toList ++ v ∨ kept = "-AllowPrerelease -Repository ".toList ++ v)) ∧
    keptArguments kept = kept ∧ ∀ t, keptArguments t = t ↔ Canonical t := by
  intro kept
  refine ⟨?_, (canonical_keptArguments arguments).keptArguments_eq, fun t => ?_⟩
  · cases hrepository : repositoryParameter.find? arguments with
    | none =>
      have hkept : kept = _ := keptArguments_of_none rfl hrepository
      rw [hkept]
      split
      · exact .inr (.inl rfl)
      · exact .inl rfl
    | some v =>
      obtain ⟨hv, front, stop, after, -, -, harguments⟩ :=
        exists_of_find?_repositoryParameter hrepository
      -- the name is a part of what was written
      have hinfix : v <:+: arguments := ⟨front ++ [stop], after, by simp [harguments]⟩
      have hkept : kept = _ := keptArguments_of_repository rfl hrepository
      refine .inr (.inr ⟨v, hv, hinfix, ?_⟩)
      rw [hkept]
      split
      · exact .inr rfl
      · exact .inl rfl
  · constructor
    · intro h
      rw [← h]
      exact canonical_keptArguments t
    · exact Canonical.keptArguments_eq

/-- A name with the flag in it, in quotes, and another spelling of the parameter. -/
example : keptArguments " X -repoſitory '-allowprerelease;1'".toList =
    "-AllowPrerelease -Repository -allowprerelease;1".toList := by decide

end SetupCatalog.Rule.PsModule
