import SetupCatalog.Proofs.Pattern.Extension
import SetupCatalog.Proofs.Pattern.Uncased
import SetupCatalog.Script.Invocation

/-!
# Install calls in a part of a text

The words of an install call and its flags are read as well where the text goes on, unless the text
ends inside a word: all three patterns read on. For the scope this holds of the first flag, too. A
flag that only the longer text has is read over its end, so up to there it has no hyphen but the two
that it starts with; and a flag in the shorter text has a hyphen.
-/

namespace SetupCatalog.Script

open Text Pattern

/-! ## What is left after a reading -/

/-- The second word of a call is read at the end of the text that is left by then. -/
theorem exists_of_installWords {tool : Text} {suffix : Bool} {prev : Option Char} {t rest : Text}
    (h : installWords tool suffix prev t = some ((), rest)) :
    ∃ u, u <:+ t ∧ keyword "install".toList u = some rest ∧ wordEnds rest = true := by
  simp only [installWords, bind, Option.bind_eq_some_iff, Option.guard_eq_some', exists_const, pure,
    Option.some.injEq, Prod.mk.injEq, true_and] at h
  obtain ⟨-, afterTool, htool, beforeInstall, hblanks, u, hinstall, hends, rfl⟩ := h
  have hending : (if suffix then (keyword ".exe".toList afterTool).getD afterTool
      else afterTool) <:+ afterTool := by
    split
    · cases hexe : keyword ".exe".toList afterTool with
      | none => exact List.suffix_refl afterTool
      | some u => exact suffix_of_keyword hexe
    · exact List.suffix_refl afterTool
  exact ⟨beforeInstall, (suffix_of_someBlanks hblanks).trans
    (hending.trans (suffix_of_keyword htool)), hinstall, hends⟩

/-- The words of a call leave an end of the text. -/
theorem suffix_of_installWords {tool : Text} {suffix : Bool} {prev : Option Char} {t rest : Text}
    (h : installWords tool suffix prev t = some ((), rest)) : rest <:+ t := by
  obtain ⟨u, hu, hinstall, -⟩ := exists_of_installWords h
  exact (suffix_of_keyword hinstall).trans hu

/-- So does what stands before a value. -/
theorem suffix_of_beforeValue {t rest : Text} (h : beforeValue t = some rest) : rest <:+ t := by
  obtain ⟨⟨word, u⟩, hword, rfl⟩ := Option.map_eq_some_iff.mp h
  obtain ⟨-, -, rfl⟩ := of_someOf_eq_some hword
  exact (optionalQuote_suffix u).trans (List.suffix_append word u)

/-! ## Texts that go on -/

/-- Where a word that ends with an l or an e is read to the end of a text, the text ends with a
character of a word. -/
theorem any_isWord_of_keyword (word : Text) {t u : Text} {w : Char} (hw : w = 'l' ∨ w = 'e')
    (hu : u <:+ t) (h : keyword (word ++ [w]) u = some []) : t.getLast?.any isWord = true := by
  obtain ⟨c, hlast, hc⟩ := getLast?_of_keyword h
  obtain ⟨read, rfl⟩ := hu
  rw [List.getLast?_append, hlast, Option.some_or, Option.any_some]
  rw [← isWord_toLower]
  rcases hw with rfl | rfl
  · rw [toLower_of_sameLetter (by decide) (by decide) hc]
    decide
  · rw [toLower_of_sameLetter (by decide) (by decide) hc]
    decide

/-- A word is not read off nothing. -/
theorem ne_nil_of_keyword_cons {w : Char} {word t rest : Text}
    (h : keyword (w :: word) t = some rest) : t ≠ [] := by
  rintro rfl
  cases h

/-- Where there are blanks there is no ending of a program, whatever comes after them. -/
theorem keyword_exe_of_someBlanks {t rest : Text} (h : someBlanks t = some rest) :
    ∀ more, keyword ".exe".toList (t ++ more) = none := by
  unfold someBlanks at h
  split at h
  · split at h
    · next hblank =>
      exact fun more => keyword_cons_eq_none (sameLetter_eq_false_of_isBlank (by decide) hblank)
    · cases h
  · cases h

/-- The words of a call are read with more text behind them too. -/
theorem installWords_readsOn (tool : Text) (suffix : Bool) :
    (installWords tool suffix).ReadsOn := by
  intro prev t a rest more h hcut
  obtain ⟨u, hu, hlast, -⟩ := exists_of_installWords h
  simp only [installWords, bind, Option.bind_eq_some_iff, Option.guard_eq_some', exists_const, pure,
    Option.some.injEq, Prod.mk.injEq] at h ⊢
  obtain ⟨hprev, t₁, htool, t₂, hblanks, t₃, hinstall, hends, -, rfl⟩ := h
  refine ⟨hprev, t₁ ++ more, keyword_append_right htool more, t₂ ++ more, ?_, t₃ ++ more,
    keyword_append_right hinstall more, wordEnds_append hends hcut fun hnil => ?_, trivial, rfl⟩
  · -- the file extension may be cut at the end of the text, but then no blank would follow
    have hending : (if suffix then (keyword ".exe".toList (t₁ ++ more)).getD (t₁ ++ more)
        else t₁ ++ more) =
        (if suffix then (keyword ".exe".toList t₁).getD t₁ else t₁) ++ more := by
      cases suffix with
      | false => rfl
      | true =>
        rw [if_pos rfl, if_pos rfl]
        cases hexe : keyword ".exe".toList t₁ with
        | some u => rw [keyword_append_right hexe more, Option.getD_some, Option.getD_some]
        | none =>
          rw [if_pos rfl, hexe, Option.getD_none] at hblanks
          rw [keyword_exe_of_someBlanks hblanks, Option.getD_none, Option.getD_none]
    rw [hending]
    exact someBlanks_append hblanks (ne_nil_of_keyword_cons hinstall) more
  · rw [hnil] at hlast
    exact any_isWord_of_keyword "instal".toList (Or.inl rfl) hu hlast

/-- So is what stands before a value, if there is something of the value. -/
theorem beforeValue_append {t rest : Text} (h : beforeValue t = some rest) (hne : rest ≠ [])
    (more : Text) : beforeValue (t ++ more) = some (rest ++ more) := by
  obtain ⟨⟨word, u⟩, hword, rfl⟩ := Option.map_eq_some_iff.mp h
  have hu : u ≠ [] := by
    rintro rfl
    exact hne rfl
  rw [beforeValue, someOf_append hword fun hnil => absurd hnil hu, Option.map_some]
  exact congrArg some (optionalQuote_append hu more)

/-- A hyphen has no other case. -/
theorem eq_hyphen_of_sameLetter {c : Char} (h : sameLetter '-' c = true) : c = '-' := by
  have hlower := toLower_of_sameLetter (by decide) (by decide) h
  exact (toLower_eq_iff (by decide)).mp hlower

/-- Where the short flag for a source is read, no text that goes on has the long one. -/
theorem keyword_source_of_short {t rest : Text} (h : keyword "-s".toList t = some rest)
    (more : Text) : keyword "--source".toList (t ++ more) = none := by
  rw [show "-s".toList = "-".toList ++ ['s'] from rfl, keyword_append,
    Option.bind_eq_some_iff] at h
  obtain ⟨u, hhyphen, hletter⟩ := h
  rw [show "--source".toList = "-".toList ++ '-' :: "source".toList from rfl, keyword_append,
    keyword_append_right hhyphen, Option.bind_some]
  cases u with
  | nil => cases hletter
  | cons c u =>
    refine keyword_cons_eq_none (eq_false_of_ne_true fun hc => ?_)
    rw [eq_hyphen_of_sameLetter hc] at hletter
    cases hletter

/-- The flag for a source is read with more text behind it: of the two spellings neither starts the
other. -/
theorem storeFlag_append {t rest : Text}
    (h : anyKeyword ["--source".toList, "-s".toList] t = some rest) (more : Text) :
    anyKeyword ["--source".toList, "-s".toList] (t ++ more) = some (rest ++ more) := by
  rw [anyKeyword, Option.orElse_eq_or, Option.or_eq_some_iff] at h
  rcases h with hlong | ⟨-, hshort⟩
  · rw [anyKeyword, keyword_append_right hlong more, Option.orElse_some]
  · rw [anyKeyword, anyKeyword, Option.orElse_eq_or, Option.or_none] at hshort
    rw [anyKeyword, keyword_source_of_short hshort, Option.orElse_none, anyKeyword,
      keyword_append_right hshort more, Option.orElse_some]

/-- So is the flag for the store. -/
theorem storeSource_readsOn : storeSource.ReadsOn := by
  intro prev t a rest more h hcut
  simp only [storeSource, bind, Option.bind_eq_some_iff, Option.guard_eq_some', exists_const, pure,
    Option.some.injEq, Prod.mk.injEq] at h ⊢
  obtain ⟨t₁, hflag, t₂, hvalue, t₃, hstore, hends, -, rfl⟩ := h
  refine ⟨t₁ ++ more, storeFlag_append hflag more, t₂ ++ more,
    beforeValue_append hvalue (ne_nil_of_keyword_cons hstore) more, t₃ ++ more,
    keyword_append_right hstore more, wordEnds_append hends hcut fun hnil => ?_, trivial, rfl⟩
  rw [hnil] at hstore
  exact any_isWord_of_keyword "msstor".toList (Or.inr rfl)
    ((suffix_of_beforeValue hvalue).trans (suffix_of_anyKeyword hflag)) hstore

/-- So is the flag for a scope, up to the end of a word. -/
theorem scopeFlag_readsOn : scopeFlag.ReadsOn := by
  intro prev t a rest more h hcut
  simp only [scopeFlag, bind, Option.bind_eq_some_iff] at h ⊢
  obtain ⟨t₁, hflag, t₂, hvalue, hword⟩ := h
  obtain ⟨hne, hchars, rfl, hrest⟩ := someOf_eq_some_iff.mp hword
  refine ⟨t₁ ++ more, keyword_append_right hflag more, a ++ rest ++ more,
    beforeValue_append hvalue (by simp [hne]) more, someOf_append hword fun hnil => ?_⟩
  -- the value ends where the text does, so the text ends with a character of a word
  replace hcut := hcut hnil
  obtain ⟨read, hread⟩ := (suffix_of_beforeValue hvalue).trans (suffix_of_keyword hflag)
  obtain ⟨front, c, rfl⟩ := (List.eq_nil_or_concat a).resolve_left hne
  rw [cutsWord, ← hread, hnil, List.append_nil, List.concat_eq_append, ← List.append_assoc,
    List.getLast?_concat, Option.any_some, hchars c (by simp), Bool.true_and] at hcut
  exact hcut

/-! ## The first flag -/

/-- Two hyphens are read as they stand. -/
theorem keyword_hyphens_eq_some_iff {t rest : Text} :
    keyword "--".toList t = some rest ↔ t = '-' :: '-' :: rest := by
  constructor
  · intro h
    rw [show "--".toList = ['-'] ++ ['-'] from rfl, keyword_append, Option.bind_eq_some_iff] at h
    obtain ⟨u, hfirst, hsecond⟩ := h
    have hhyphen : ∀ {t rest : Text}, keyword ['-'] t = some rest → t = '-' :: rest := by
      intro t rest h
      cases t with
      | nil => cases h
      | cons c t =>
        rw [keyword] at h
        split at h
        · next hc =>
          rw [Option.some.inj h, eq_hyphen_of_sameLetter hc]
        · cases h
    rw [hhyphen hfirst, hhyphen hsecond]
  · rintro rfl
    rfl

/-- What is read of a flag for the scope after its hyphens. -/
def scopeRest (t : Text) : Option (Text × Text) := do
  let t ← keyword "scope".toList t
  let t ← beforeValue t
  someOf isWord t

/-- The flag for a scope is two hyphens and the rest. -/
theorem scopeFlag_eq (prev : Option Char) (t : Text) :
    scopeFlag prev t = (keyword "--".toList t).bind scopeRest := by
  show (keyword ("--".toList ++ "scope".toList) t).bind _ = _
  rw [keyword_append, Option.bind_assoc]
  rfl

/-- What stands before a value ends at a character that separates nothing. -/
theorem beforeValue_append_stop {stop : Char} (hvalue : separatesValue stop = false)
    (hquote : isQuote stop = false) (t more : Text) :
    beforeValue (t ++ stop :: more) = (beforeValue t).map (· ++ stop :: more) := by
  rw [beforeValue, someOf_append_stop hvalue, Option.map_map, beforeValue, Option.map_map]
  exact congrArg (Option.map · _) (funext fun _ => optionalQuote_append_stop hquote _ _)

/-- A character that has no place there is not read. -/
theorem scopeRest_append_stop {stop : Char}
    (hscope : "scope".toList.any (sameLetter · stop) = false) (hvalue : separatesValue stop = false)
    (hquote : isQuote stop = false) (hword : isWord stop = false) (t more : Text) :
    scopeRest (t ++ stop :: more) =
      (scopeRest t).map fun (word, rest) => (word, rest ++ stop :: more) := by
  simp only [scopeRest, keyword_append_cons hscope, bind, beforeValue_append_stop hvalue hquote,
    someOf_append_stop hword, Option.bind_map, Option.map_bind, Function.comp_def]

/-- The rest of the flag ends before a hyphen. -/
theorem scopeRest_append_hyphen (t more : Text) :
    scopeRest (t ++ '-' :: more) =
      (scopeRest t).map fun (word, rest) => (word, rest ++ '-' :: more) :=
  scopeRest_append_stop (by decide) (by decide) (by decide) (by decide) t more

/-- A flag that is not in a text but in the one that goes on is read over the end of the text, so
there is no other flag behind its start. -/
theorem scopeFlag_eq_none_append {prev prev' : Option Char} {c : Char} {t t' : Text}
    {found : Text × Text} (h : scopeFlag prev (c :: t ++ t') = none)
    (hlater : scopeFlag prev' t' = some found) (more : Text) :
    scopeFlag prev (c :: t ++ t' ++ more) = none := by
  rw [scopeFlag_eq, Option.bind_eq_some_iff] at hlater
  obtain ⟨u, hhyphens, -⟩ := hlater
  rw [keyword_hyphens_eq_some_iff.mp hhyphens] at h ⊢
  rw [scopeFlag_eq, Option.bind_eq_none_iff] at h ⊢
  simp only [keyword_hyphens_eq_some_iff] at h ⊢
  intro rest hrest
  cases t with
  | nil =>
    -- the flag would go on with the second hyphen of the other one
    obtain rfl : '-' :: u ++ more = rest := (List.cons.inj (List.cons.inj hrest).2).2
    exact scopeRest_append_hyphen [] _
  | cons d t =>
    obtain ⟨rfl, htail⟩ := List.cons.inj hrest
    obtain ⟨rfl, hmore⟩ := List.cons.inj htail
    have hshort := h (t ++ '-' :: '-' :: u) rfl
    rw [scopeRest_append_hyphen, Option.map_eq_none_iff] at hshort
    obtain rfl : t ++ '-' :: ('-' :: u ++ more) = rest := by
      rw [← hmore]
      exact (List.append_assoc t ('-' :: '-' :: u) more).symm
    rw [scopeRest_append_hyphen, hshort]
    rfl

/-- The first flag of a text is the first one of a text that goes on. -/
theorem find?_scopeFlag_append {t more scope : Text} (h : scopeFlag.find? t = some scope)
    (hcut : cutsWord t more = false) : scopeFlag.find? (t ++ more) = some scope := by
  obtain ⟨before, rest, after, rfl, hread, hno⟩ := find?_eq_some_iff.mp h
  have hrest := cutsWord_of_suffix (List.suffix_append before rest) hcut
  refine find?_eq_some_iff.mpr ⟨before, rest ++ more, after ++ more, List.append_assoc _ _ _,
    scopeFlag_readsOn hread fun _ => hrest, fun u c v hsplit => ?_⟩
  rw [← List.append_assoc]
  exact scopeFlag_eq_none_append (hno u c v hsplit) hread more

end SetupCatalog.Script
