import SetupCatalog.Proofs.Pattern.Reading
import SetupCatalog.Proofs.Pattern.Search
import SetupCatalog.Proofs.Text.Legible
import SetupCatalog.Proofs.Text.Line
import SetupCatalog.Rule.Container

/-!
# Fields of a container

A container is looked at twice: as a whole, to see whether it has an identity field at all, and then
line by line. The two looks see different texts. A field of the whole container may run over a line
break between its parts, and the word boundary before a field at the start of a line is a line break
in the one text and nothing in the other.

`occursIn_of_find?_line` says that the first look misses nothing: a field that is found on some line
is a field of the whole. The forms of the fields, `quotedValue_eq_some_iff` to
`idField_eq_some_iff`, are exact.
-/

namespace SetupCatalog.Rule.Container

open Text Pattern Script

/-! ## The forms of the fields -/

/-- A quoted value is read exactly where the text is a quote, the value without that quote and
without a line feed, and the same quote again. -/
theorem quotedValue_eq_some_iff {t value rest : Text} :
    quotedValue t = some (value, rest) ↔
      ∃ q, isQuote q = true ∧ q ∉ value ∧ '\n' ∉ value ∧ t = q :: (value ++ q :: rest) := by
  constructor
  · intro h
    cases t with
    | nil => cases h
    | cons q t =>
      rw [quotedValue] at h
      split at h
      · next hq =>
        obtain ⟨rest', hrest, heq⟩ := Option.map_eq_some_iff.mp h
        obtain ⟨rfl, rfl⟩ := Prod.mk.inj heq
        rw [symbol_eq_some_iff] at hrest
        refine ⟨q, hq, fun hmem => ?_, fun hmem => ?_, ?_⟩
        · simpa using List.mem_takeWhile_imp hmem
        · simpa using List.mem_takeWhile_imp hmem
        · rw [← hrest, List.takeWhile_append_dropWhile]
      · cases h
  · rintro ⟨q, hq, hqv, hnv, rfl⟩
    have hinside : ∀ c ∈ value, (c != q && c != '\n') = true := by
      intro c hc
      rw [Bool.and_eq_true, bne_iff_ne, bne_iff_ne]
      exact ⟨fun e => hqv (e ▸ hc), fun e => hnv (e ▸ hc)⟩
    rw [quotedValue, if_pos hq]
    dsimp only
    rw [List.dropWhile_append_of_pos hinside, List.takeWhile_append_of_pos hinside]
    simp [symbol]

/-- The value of a field is read exactly where the text is an equals sign and a quoted value, with
blanks before each. -/
theorem fieldValue_eq_some_iff {t value rest : Text} :
    fieldValue t = some (value, rest) ↔
      ∃ blanks blanks' quoted,
        (∀ b ∈ blanks, isBlank b = true) ∧ (∀ b ∈ blanks', isBlank b = true) ∧
        t = blanks ++ '=' :: (blanks' ++ quoted) ∧ quotedValue quoted = some (value, rest) := by
  simp only [fieldValue, bind, Option.bind_eq_some_iff,
    symbol_trimStart_eq_some_iff (show isBlank '=' = false by decide)]
  constructor
  · rintro ⟨t', ⟨blanks, hblanks, rfl⟩, hvalue⟩
    obtain ⟨q, hq, hqv, hnv, ht'⟩ := quotedValue_eq_some_iff.mp hvalue
    obtain ⟨-, blanks', hblanks', rfl⟩ := trimStart_eq_cons_iff.mp ht'
    exact ⟨blanks, blanks', _, hblanks, hblanks', rfl,
      quotedValue_eq_some_iff.mpr ⟨q, hq, hqv, hnv, rfl⟩⟩
  · rintro ⟨blanks, blanks', quoted, hblanks, hblanks', rfl, hvalue⟩
    refine ⟨blanks' ++ quoted, ⟨blanks, hblanks, rfl⟩, ?_⟩
    obtain ⟨q, hq, hqv, hnv, rfl⟩ := quotedValue_eq_some_iff.mp hvalue
    rw [trimStart_eq_cons_iff.mpr ⟨isBlank_eq_false_of_isQuote hq, blanks', hblanks', rfl⟩]
    exact hvalue

/-- No text starts both with a letter P and with a letter I. -/
theorem keyword_id_eq_none {t rest : Text} (h : keyword "Package".toList t = some rest) :
    keyword "Id".toList t = none := by
  cases t with
  | nil => cases h
  | cons c t =>
    have hP : sameLetter 'P' c = true := by
      by_contra hc
      rw [show "Package".toList = 'P' :: "ackage".toList from rfl, keyword, if_neg hc] at h
      cases h
    have hlow : lowerChar c = 'p' := by
      simp [sameLetter, letterVariants, show lowerChar 'P' = 'p' by decide] at hP
      exact hP.symm
    have hI : sameLetter 'I' c = false := by
      simp [sameLetter, letterVariants, hlow, show lowerChar 'I' = 'i' by decide]
    rw [show "Id".toList = ['I', 'd'] from rfl, keyword, hI]
    rfl

/-- With the optional word in front, what is read is one of two words. -/
theorem keyword_id_optional {t after : Text} :
    keyword "Id".toList ((keyword "Package".toList t).getD t) = some after ↔
      keyword "PackageId".toList t = some after ∨ keyword "Id".toList t = some after := by
  have hword : keyword "PackageId".toList t =
      (keyword "Package".toList t).bind (keyword "Id".toList) :=
    keyword_append "Package".toList "Id".toList t
  rw [hword]
  cases hpackage : keyword "Package".toList t with
  | none =>
    rw [Option.getD_none, Option.bind_none]
    exact (or_iff_right (Option.some_ne_none after).symm).symm
  | some rest =>
    rw [Option.getD_some, Option.bind_some, keyword_id_eq_none hpackage]
    exact (or_iff_left (Option.some_ne_none after).symm).symm

/-- An identity field is read exactly where a word starts with `PackageId` or `Id` and the value of
a field comes after it. -/
theorem idField_eq_some_iff {prev : Option Char} {t value rest : Text} :
    idField prev t = some (value, rest) ↔
      wordStarts prev = true ∧ ∃ after,
        (keyword "PackageId".toList t = some after ∨ keyword "Id".toList t = some after) ∧
          fieldValue after = some (value, rest) := by
  simp only [idField, bind, Option.bind_eq_some_iff, Option.guard_eq_some', exists_const,
    keyword_id_optional]

/-! ## Reading on a line and reading in the whole -/

/-- A reading goes through whatever the text goes on with. -/
theorem idField_append {prev : Option Char} {t value rest : Text}
    (h : idField prev t = some (value, rest)) (more : Text) :
    idField prev (t ++ more) = some (value, rest ++ more) := by
  obtain ⟨hstart, after, hword, hvalue⟩ := idField_eq_some_iff.mp h
  obtain ⟨blanks, blanks', quoted, hblanks, hblanks', rfl, hquoted⟩ :=
    fieldValue_eq_some_iff.mp hvalue
  obtain ⟨q, hq, hqv, hnv, rfl⟩ := quotedValue_eq_some_iff.mp hquoted
  refine idField_eq_some_iff.mpr ⟨hstart, _, hword.imp (keyword_append_right · more)
    (keyword_append_right · more), fieldValue_eq_some_iff.mpr
      ⟨blanks, blanks', q :: (value ++ q :: (rest ++ more)), hblanks, hblanks', ?_,
        quotedValue_eq_some_iff.mpr ⟨q, hq, hqv, hnv, rfl⟩⟩⟩
  simp

/-- Where a reading goes through after some character, it does so wherever a word can start. -/
theorem idField_of_wordStarts {prev prev' : Option Char} {t value rest : Text}
    (h : idField prev t = some (value, rest)) (hprev' : wordStarts prev' = true) :
    idField prev' t = some (value, rest) := by
  rw [idField_eq_some_iff] at h ⊢
  exact ⟨hprev', h.2⟩

/-- A word can start after a line break. -/
theorem wordStarts_of_isLineBreak {b : Char} (hb : isLineBreak b = true) :
    wordStarts (some b) = true := by
  simp [wordStarts, isWord_eq_false_of_isBlank (isBlank_of_isLineBreak hb)]

/-- **The look at the whole misses nothing.** An identity field that is found on a line of a text is
an identity field of the text. -/
theorem occursIn_of_find?_line {t line value : Text} (hline : line ∈ lines t)
    (h : idField.find? line = some value) : idField.occursIn t = true := by
  obtain ⟨before, found, rest, rfl, hread, -⟩ := find?_eq_some_iff.mp h
  rcases stands_of_mem_lines hline with ⟨more, rfl, -⟩ | ⟨passed, b, more, rfl, hb, -⟩
  · rw [occursIn_iff]
    exact ⟨before, found ++ more, value, rest ++ more, by simp, idField_append hread more⟩
  · rw [occursIn_iff]
    refine ⟨passed ++ b :: before, found ++ more, value, rest ++ more, by simp, ?_⟩
    refine idField_append ?_ more
    -- the character before the field is on the line, or it is the line break before the line
    cases hlast : before.getLast? with
    | none =>
      rw [List.getLast?_append, List.getLast?_cons, hlast]
      exact idField_of_wordStarts hread (wordStarts_of_isLineBreak hb)
    | some c =>
      rw [List.getLast?_append, List.getLast?_cons, hlast]
      rw [hlast] at hread
      exact hread

end SetupCatalog.Rule.Container
