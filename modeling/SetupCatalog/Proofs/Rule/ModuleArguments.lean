import SetupCatalog.Proofs.Script.Semicolon
import SetupCatalog.Rule.PsModule

/-!
# Arguments of a module's installation that go on behind a semicolon

The arguments of `Install-Module` are searched for a name, for the flag that allows prereleases and
for a repository. Behind a semicolon the search goes on in the next statement. A name stays the same
(`moduleOf_append_semicolon`), and the flag counts wherever it stands
(`occursIn_prereleaseFlag_append`). For the repository the semicolon is a character like any other:
a name that stands right before it goes on with it, and where a name is due it starts one
(`find?_repositoryParameter_append`).
-/

namespace SetupCatalog.Rule.PsModule

open Text Pattern Script

/-! ## The call and the name -/

/-- The words that start the installation of a module. -/
def moduleWords : Pattern Unit := fun prev t => do
  guard (wordStarts prev)
  let t ← keyword "Install-Module".toList t
  guard (wordEnds t)
  return ((), t)

/-- What these words take as arguments, and what is left then. -/
def moduleRest (t : Text) : Text × Text :=
  (t.takeWhile fun c => c != '\n', t.dropWhile fun c => c != '\n')

/-- The words of a call end before a semicolon. -/
theorem moduleWords_stopsAt : moduleWords.StopsAt ';' := by
  intro prev t more
  simp only [moduleWords, bind, pure,
    keyword_append_cons (show "Install-Module".toList.any (sameLetter · ';') = false by decide),
    wordEnds_append_stop (show isWord ';' = false by decide), Option.bind_map, Option.map_bind,
    Function.comp_def, Option.map_some]

/-- They leave an end of the text. -/
theorem suffix_of_moduleWords {prev : Option Char} {t rest : Text}
    (h : moduleWords prev t = some ((), rest)) : rest <:+ t := by
  simp only [moduleWords, bind, Option.bind_eq_some_iff, Option.guard_eq_some', exists_const, pure,
    Option.some.injEq, Prod.mk.injEq, true_and] at h
  obtain ⟨-, u, hword, -, rfl⟩ := h
  exact suffix_of_keyword hword

/-- A call that is found stays found, and has one more statement among its arguments. -/
theorem find?_moduleCall_append {first second arguments : Text}
    (hfirst : ∀ c ∈ first, isLineBreak c = false) (hsecond : ∀ c ∈ second, isLineBreak c = false)
    (h : moduleCall.find? first = some arguments) :
    moduleCall.find? (first ++ ';' :: second) = some (arguments ++ ';' :: second) := by
  have hcall : ∀ prev t, moduleCall prev t = (moduleWords prev t).map fun found =>
      moduleRest found.2 := by
    intro prev t
    simp only [moduleCall, moduleWords, moduleRest, bind, pure, Option.map_bind, Function.comp_def,
      Option.map_some]
  refine find?_append_semicolon moduleRest hcall moduleWords_stopsAt suffix_of_moduleWords
    (fun {t} ht => ?_) hfirst hsecond h
  refine List.takeWhile_eq_self_iff.mpr fun c hc => ?_
  rw [bne_iff_ne]
  rintro rfl
  exact absurd (ht _ hc) (by decide)

/-- A name ends before a semicolon. -/
theorem nameAfterBlanks_append_stop {starts : Char → Bool} (hstarts : starts ';' = false)
    (t more : Text) :
    nameAfterBlanks starts (t ++ ';' :: more) =
      (nameAfterBlanks starts t).map fun (name, rest) => (name, rest ++ ';' :: more) := by
  simp only [nameAfterBlanks, bind, someBlanks_append_stop (show isBlank ';' = false by decide),
    Option.bind_map, Option.map_bind, Function.comp_def]
  refine congrArg _ (funext fun t => ?_)
  rw [optionalQuote_append_stop (by decide)]
  cases optionalQuote t with
  | nil => simp only [List.nil_append, hstarts, Bool.false_eq_true, if_false, Option.map_none]
  | cons c t =>
    simp only [List.cons_append, takeWhile_append_stop (show isNameChar ';' = false by decide),
      dropWhile_append_stop (show isNameChar ';' = false by decide)]
    split <;> rfl

/-- So does the parameter with the name. -/
theorem nameParameter_stopsAt : nameParameter.StopsAt ';' := by
  intro prev t more
  simp only [nameParameter, bind,
    keyword_append_cons (show "-Name".toList.any (sameLetter · ';') = false by decide),
    nameAfterBlanks_append_stop (show isAlnumAnyCase ';' = false by decide), Option.bind_map,
    Option.map_bind, Function.comp_def]

/-- The module that the arguments name is the one that they name with the next statement behind
them. -/
theorem moduleOf_append_semicolon {arguments name : Text} (h : moduleOf arguments = some name)
    (second : Text) : moduleOf (arguments ++ ';' :: second) = some name := by
  have hposition : (nameAfterBlanks isAsciiAlnum (arguments ++ ';' :: second)).map (·.1) =
      (nameAfterBlanks isAsciiAlnum arguments).map (·.1) := by
    rw [nameAfterBlanks_append_stop (by decide), Option.map_map]
    rfl
  rw [moduleOf, Option.orElse_eq_or] at h ⊢
  rw [hposition, nameParameter_stopsAt.find? fun _ => rfl, ← Option.or_assoc, h, Option.some_or]

/-! ## Prereleases -/

/-- The flag ends before every character that is neither in it nor in a word. -/
theorem prereleaseFlag_stopsAt {stop : Char}
    (hletters : "-AllowPrerelease".toList.any (sameLetter · stop) = false)
    (hword : isWord stop = false) : prereleaseFlag.StopsAt stop := by
  intro prev t more
  simp only [prereleaseFlag, bind, pure, keyword_append_cons hletters, wordEnds_append_stop hword,
    Option.bind_map, Option.map_bind, Function.comp_def, Option.map_some]

/-- The flag occurs in one of the two statements. -/
theorem occursIn_prereleaseFlag_append (arguments second : Text) :
    prereleaseFlag.occursIn (arguments ++ ';' :: second) =
      (prereleaseFlag.occursIn arguments || prereleaseFlag.occursIn second) :=
  (prereleaseFlag_stopsAt (by decide) (by decide)).occursIn (fun _ => rfl) arguments second

/-! ## The repository -/

/-- What the name of a repository comes after: the parameter, blanks and perhaps a quote. -/
def repositoryFlag : Pattern Unit := fun prev t => do
  guard (flagStarts prev)
  let t ← keyword "-Repository".toList t
  let t ← someBlanks t
  return ((), optionalQuote t)

/-- The end of a text at which the name of a repository is due. -/
def repositoryDue : Pattern Unit := fun prev t => do
  let (_, t) ← repositoryFlag prev t
  guard t.isEmpty
  return ((), t)

/-- The parameter with the repository is a flag and a value. -/
theorem repositoryParameter_eq (prev : Option Char) (t : Text) :
    repositoryParameter prev t =
      (repositoryFlag prev t).bind fun found => someOf isRepositoryChar found.2 := by
  simp only [repositoryParameter, repositoryFlag, bind, pure, Option.bind_assoc, Option.bind_some]

/-- Its flag ends before a semicolon. -/
theorem repositoryFlag_stopsAt : repositoryFlag.StopsAt ';' := by
  intro prev t more
  simp only [repositoryFlag, bind, pure,
    keyword_append_cons (show "-Repository".toList.any (sameLetter · ';') = false by decide),
    someBlanks_append_stop (show isBlank ';' = false by decide),
    optionalQuote_append_stop (show isQuote ';' = false by decide), Option.bind_map,
    Option.map_bind, Function.comp_def, Option.map_some]

/-- The parameter starts with a hyphen. -/
theorem repositoryFlag_eq_none {t : Text} (h : t.head? ≠ some '-') (prev : Option Char) :
    repositoryFlag prev t = none := by
  have hword : keyword "-Repository".toList t = none := by
    cases t with
    | nil => rfl
    | cons c t =>
      refine keyword_cons_eq_none (eq_false_of_ne_true fun hc => ?_)
      rw [eq_hyphen_of_sameLetter hc] at h
      exact h rfl
  simp only [repositoryFlag, bind, hword, Option.bind_none, Option.bind_eq_none_iff, implies_true]

/-- It starts with a hyphen. -/
theorem repositoryParameter_eq_none {prev : Option Char} {t : Text} (h : t.head? ≠ some '-') :
    repositoryParameter prev t = none := by
  rw [repositoryParameter_eq, repositoryFlag_eq_none h]
  rfl

/-- So there is none in a text without hyphens. -/
theorem firstFrom_repositoryParameter_eq_none {t : Text} (h : '-' ∉ t) (before : Text) :
    repositoryParameter.firstFrom before t = none := by
  induction t generalizing before with
  | nil =>
    rw [firstFrom, repositoryParameter_eq_none (by simp)]
    rfl
  | cons c t ih =>
    rw [List.mem_cons, not_or] at h
    have hhead : (c :: t).head? ≠ some '-' := by simpa using Ne.symm h.1
    rw [firstFrom, repositoryParameter_eq_none hhead]
    exact ih h.2 _

/-- Where a name is due at the end, no other parameter comes after the one that it is due for. -/
theorem hyphen_not_mem_of_repositoryFlag {prev : Option Char} {c : Char} {t : Text}
    (h : repositoryFlag prev (c :: t) = some ((), [])) : '-' ∉ t := by
  intro hmem
  obtain ⟨passed, more, rfl⟩ := List.append_of_mem hmem
  have hword : keyword "-Repository".toList (c :: (passed ++ '-' :: more)) =
      (keyword "-Repository".toList (c :: passed)).map (· ++ '-' :: more) := by
    rw [show "-Repository".toList = '-' :: "Repository".toList from rfl, keyword, keyword]
    split
    · exact keyword_append_cons (by decide) _ _
    · rfl
  simp only [repositoryFlag, bind, pure, hword,
    someBlanks_append_stop (show isBlank '-' = false by decide),
    optionalQuote_append_stop (show isQuote '-' = false by decide), Option.bind_map,
    Function.comp_def, Option.bind_eq_some_iff, Option.some.injEq, Prod.mk.injEq,
    List.append_eq_nil_iff, reduceCtorEq, and_false, exists_false] at h

/-- The repository that is found with a further statement behind a semicolon, if `found` is what is
found without: a name goes on with the semicolon if it stands right before it; the semicolon starts
a name if one is due there; or else the further statement names the repository. -/
def repositoryWith (second : Text) (due : Bool) : Option (Hit Text) → Option Text
  | some hit =>
    some (if hit.after.isEmpty then hit.found ++ ';' :: second.takeWhile isRepositoryChar
      else hit.found)
  | none =>
    if due then some (';' :: second.takeWhile isRepositoryChar)
    else repositoryParameter.find? second

/-- The repository of both statements: the value of the first one may go on, or its flag may take a
value from the second. -/
theorem find?_repositoryParameter_append (arguments second : Text) :
    repositoryParameter.find? (arguments ++ ';' :: second) =
      repositoryWith second (repositoryDue.occursIn arguments)
        (repositoryParameter.first? arguments) := by
  have hsemicolon : isRepositoryChar ';' = true := by decide
  have hfrom : ∀ before,
      (repositoryParameter.firstFrom before (arguments ++ ';' :: second)).map (·.found) =
        repositoryWith second (repositoryDue.firstFrom before arguments).isSome
          (repositoryParameter.firstFrom before arguments) := by
    induction arguments with
    | nil =>
      intro before
      have hdue : repositoryDue before.head? [] = none := by
        rw [repositoryDue, repositoryFlag_eq_none (by simp)]
        rfl
      rw [List.nil_append, firstFrom, firstFrom, firstFrom, repositoryParameter_eq_none (by simp),
        repositoryParameter_eq_none (by simp), hdue]
      exact map_found_firstFrom_stop (fun _ => rfl) before second
    | cons c t ih =>
      intro before
      have hflag := repositoryFlag_stopsAt before.head? (c :: t) second
      rw [List.cons_append] at hflag
      rw [List.cons_append, firstFrom, firstFrom, firstFrom, repositoryParameter_eq,
        repositoryParameter_eq, repositoryDue, hflag]
      cases hread : repositoryFlag before.head? (c :: t) with
      | none => exact ih _
      | some found =>
        obtain ⟨⟨⟩, rest⟩ := found
        cases rest with
        | nil =>
          -- the semicolon starts the name, and behind the parameter there is no other one
          have hnone := firstFrom_repositoryParameter_eq_none
            (hyphen_not_mem_of_repositoryFlag hread) (c :: before)
          simp only [Option.map_some, Option.bind_some, List.nil_append, someOf_cons,
            hsemicolon, if_true, show someOf isRepositoryChar [] = none from rfl, hnone]
          rfl
        | cons d rest =>
          cases hd : isRepositoryChar d with
          | false =>
            simp only [Option.map_some, Option.bind_some, List.cons_append, someOf_cons, hd,
              Bool.false_eq_true, if_false]
            exact ih _
          | true =>
            simp only [Option.map_some, Option.bind_some, List.cons_append, someOf_cons, hd,
              if_true, takeWhile_append_eq, List.takeWhile_cons_of_pos hsemicolon, repositoryWith]
            split <;> rfl
  exact hfrom []

/-- The next statement leaves the repository as it is: the name does not end at the semicolon, or
there is none, neither due before the semicolon nor in the next statement. -/
def RepositoryStays (arguments second : Text) : Prop :=
  match repositoryParameter.first? arguments with
  | some hit => hit.after ≠ []
  | none => repositoryDue.occursIn arguments = false ∧ repositoryParameter.find? second = none

/-- That is the repository of the first statement exactly in the cases of `RepositoryStays`. -/
theorem repositoryStays_iff {arguments second : Text} :
    repositoryParameter.find? (arguments ++ ';' :: second) = repositoryParameter.find? arguments ↔
      RepositoryStays arguments second := by
  have hhere : repositoryParameter.find? arguments =
      (repositoryParameter.first? arguments).map (·.found) := rfl
  rw [find?_repositoryParameter_append, RepositoryStays, hhere, repositoryWith.eq_def]
  cases repositoryParameter.first? arguments with
  | none =>
    rw [Option.map_none]
    cases repositoryDue.occursIn arguments with
    | true => simp
    | false => simp
  | some hit =>
    obtain ⟨before, name, after⟩ := hit
    cases after with
    | nil => simp
    | cons c after => simp

/-! ## What is kept of the arguments -/

/-- The same is kept of two argument texts only if both allow prereleases or neither does, and both
name the same repository or none. -/
theorem keptArguments_eq_iff {arguments others : Text} :
    keptArguments others = keptArguments arguments ↔
      prereleaseFlag.occursIn others = prereleaseFlag.occursIn arguments ∧
        repositoryParameter.find? others = repositoryParameter.find? arguments := by
  constructor
  · intro h
    rw [keptArguments, keptArguments] at h
    cases hother : prereleaseFlag.occursIn others <;>
      cases hhere : prereleaseFlag.occursIn arguments <;>
      cases hothers : repositoryParameter.find? others <;>
      cases hrepository : repositoryParameter.find? arguments <;>
      simp_all [joined]
  · rintro ⟨hprerelease, hrepository⟩
    rw [keptArguments, hprerelease, hrepository, keptArguments]

end SetupCatalog.Rule.PsModule
