import SetupCatalog.Pattern.Element
import SetupCatalog.Proofs.Text.Uncased

/-!
# Patterns without letter case

A pattern `ReadsUncased` if it reads an uncased text as it reads the text itself: it matches at the
same spots, and what it finds and what it leaves are the same but for the case of letters. What
becomes of the things found is a parameter, since some patterns find texts and others records.

The elements of patterns commute with `uncased` one by one, so patterns made of them do. A search
with such a pattern finds the same in an uncased text (`first?_uncased`, `find?_uncased`,
`all_uncased`).
-/

namespace SetupCatalog

open Text

/-- A match with uncased texts around it. -/
def Hit.uncased {α : Type} (onFound : α → α) (h : Hit α) : Hit α :=
  ⟨Text.uncased h.before, onFound h.found, Text.uncased h.after⟩

/-- A match stands at the same offset. -/
@[simp] theorem Hit.offset_uncased {α : Type} (onFound : α → α) (h : Hit α) :
    (h.uncased onFound).offset = h.offset :=
  length_uncased h.before

namespace Pattern

variable {α : Type}

/-- A pattern reads an uncased text as it reads the text. -/
def ReadsUncased (onFound : α → α) (p : Pattern α) : Prop :=
  ∀ prev t, p (prev.map Char.toLower) (uncased t) = (p prev t).map (Prod.map onFound uncased)

/-! ## Elements -/

/-- Whether a letter of a text counts as the one asked for does not depend on its case. -/
theorem sameLetter_toLower_right (w c : Char) : sameLetter w c.toLower = sameLetter w c := by
  simp only [sameLetter, lowerChar_toLower c]

/-- Nor does it depend on the case of the letter asked for. -/
theorem sameLetter_toLower_left (w c : Char) : sameLetter w.toLower c = sameLetter w c := by
  simp only [sameLetter, lowerChar_toLower w]

/-- A word of any case is read off an uncased text. -/
theorem keyword_uncased (w t : Text) : keyword w (uncased t) = (keyword w t).map uncased := by
  induction w generalizing t with
  | nil => rfl
  | cons w ws ih =>
    cases t with
    | nil => rfl
    | cons c t =>
      rw [uncased_cons, keyword, keyword, sameLetter_toLower_right, ih]
      split <;> rfl

/-- The case of the word itself makes no difference either. -/
theorem keyword_uncased_word (w t : Text) : keyword (uncased w) t = keyword w t := by
  induction w generalizing t with
  | nil => rfl
  | cons w ws ih =>
    cases t with
    | nil => rfl
    | cons c t => rw [uncased_cons, keyword, keyword, sameLetter_toLower_left, ih]

/-- So is the first of several words that is there. -/
theorem anyKeyword_uncased (ws : List Text) (t : Text) :
    anyKeyword ws (uncased t) = (anyKeyword ws t).map uncased := by
  induction ws with
  | nil => rfl
  | cons w ws ih =>
    rw [anyKeyword, anyKeyword, keyword_uncased, ih]
    cases keyword w t <;> rfl

/-- A character that is no letter is read off an uncased text. -/
theorem symbol_uncased {s : Char} (hs : s.isAlpha = false) (t : Text) :
    symbol s (uncased t) = (symbol s t).map uncased := by
  cases t with
  | nil => rfl
  | cons c t =>
    rw [uncased_cons, symbol, symbol]
    by_cases hc : c = s
    · rw [if_pos hc, if_pos ((toLower_eq_iff hs).mpr hc), Option.map_some]
    · rw [if_neg hc, if_neg fun h => hc ((toLower_eq_iff hs).mp h), Option.map_none]

/-- What is read of a text is uncased with it. -/
theorem consumed_uncased (t rest : Text) :
    consumed (uncased t) (uncased rest) = uncased (consumed t rest) := by
  rw [consumed, length_uncased, length_uncased, take_uncased, consumed]

/-- Blanks have no case. -/
theorem someBlanks_uncased (t : Text) : someBlanks (uncased t) = (someBlanks t).map uncased := by
  cases t with
  | nil => rfl
  | cons c t =>
    rw [uncased_cons, someBlanks, someBlanks, isBlank_toLower c, trimStart_uncased]
    split <;> rfl

/-- No quote is a letter. -/
theorem isQuote_toLower : CaseBlind isQuote :=
  caseBlind_of_letters (by decide)

/-- No end of a line is a letter. -/
theorem isLineEnd_toLower : CaseBlind isLineEnd :=
  caseBlind_of_letters (by decide)

/-- Letters and digits are told apart from the rest in either case. -/
theorem isAlnumAnyCase_toLower : CaseBlind isAlnumAnyCase :=
  caseBlind_of_letters (by decide)

/-- A quote is no letter. -/
theorem isAlpha_eq_false_of_isQuote {q : Char} (hq : isQuote q = true) : q.isAlpha = false := by
  simp only [isQuote, Bool.or_eq_true, beq_iff_eq] at hq
  rcases hq with rfl | rfl <;> rfl

/-- A quote is passed over in an uncased text too. -/
theorem optionalQuote_uncased (t : Text) :
    optionalQuote (uncased t) = uncased (optionalQuote t) := by
  cases t with
  | nil => rfl
  | cons c t =>
    rw [uncased_cons, optionalQuote, optionalQuote, isQuote_toLower c]
    split <;> rfl

/-- A word of a case-blind class ends at the same place in an uncased text. -/
theorem someOf_uncased {p : Char → Bool} (hp : CaseBlind p) (t : Text) :
    someOf p (uncased t) = (someOf p t).map (Prod.map uncased uncased) := by
  rw [someOf, someOf, takeWhile_uncased hp, dropWhile_uncased hp]
  cases t.takeWhile p <;> rfl

/-- The rest of a line ends at the same place in an uncased text. -/
theorem restOfLine_uncased (t : Text) :
    restOfLine (uncased t) = Prod.map uncased uncased (restOfLine t) := by
  have hinside : CaseBlind fun c => !isLineEnd c := isLineEnd_toLower.comp not
  rw [restOfLine, restOfLine, takeWhile_uncased hinside, dropWhile_uncased hinside]
  rfl

/-- Whether a word may start depends on the class of the character before it alone. -/
theorem wordStarts_map (prev : Option Char) :
    wordStarts (prev.map Char.toLower) = wordStarts prev := by
  cases prev with
  | none => rfl
  | some c => exact congrArg not (isWord_toLower c)

/-- Whether a word may end depends on the class of the next character alone. -/
theorem wordEnds_uncased (t : Text) : wordEnds (uncased t) = wordEnds t := by
  cases t with
  | nil => rfl
  | cons c t => exact congrArg not (isWord_toLower c)

/-- Whether a flag may start depends on the class of the character before it alone. -/
theorem flagStarts_map (prev : Option Char) :
    flagStarts (prev.map Char.toLower) = flagStarts prev := by
  cases prev with
  | none => rfl
  | some c => exact congrArg not ((isWord_toLower.or (caseBlind_beq (by decide))) c)

/-! ## Searches -/

variable {p : Pattern α} {onFound : α → α} (h : p.ReadsUncased onFound)

include h

/-- A search goes through an uncased text as through the text, given what it has passed. -/
theorem firstFrom_uncased (before t : Text) :
    firstFrom p (uncased before) (uncased t) =
      (firstFrom p before t).map (Hit.uncased onFound) := by
  induction t generalizing before with
  | nil =>
    have := h before.head? []
    rw [uncased_nil] at this
    rw [uncased_nil, firstFrom, firstFrom, head?_uncased, this, Option.map_map, Option.map_map]
    rfl
  | cons c t ih =>
    rw [uncased_cons, firstFrom, firstFrom, head?_uncased, ← uncased_cons, h]
    cases p before.head? (c :: t) with
    | none => exact ih (c :: before)
    | some found => rfl

/-- The first match in an uncased text is that in the text. -/
theorem first?_uncased (t : Text) :
    p.first? (uncased t) = (p.first? t).map (Hit.uncased onFound) :=
  firstFrom_uncased h [] t

/-- What is found first in an uncased text is what is found in the text, up to case. -/
theorem find?_uncased (t : Text) : p.find? (uncased t) = (p.find? t).map onFound := by
  rw [find?, first?_uncased h, find?, Option.map_map, Option.map_map]
  rfl

/-- A pattern occurs in an uncased text exactly if it occurs in the text. -/
theorem occursIn_uncased (t : Text) : p.occursIn (uncased t) = p.occursIn t := by
  rw [occursIn, first?_uncased h, Option.isSome_map, occursIn]

/-- A sweep over an uncased text stops where the sweep over the text does, given what it has passed
and what it still skips. -/
theorem allFrom_uncased (skip : Nat) (before t : Text) :
    allFrom p skip (uncased before) (uncased t) =
      (allFrom p skip before t).map (Hit.uncased onFound) := by
  induction t generalizing skip before with
  | nil => rfl
  | cons c t ih =>
    cases skip with
    | succ skip => exact ih skip (c :: before)
    | zero =>
      rw [uncased_cons, allFrom, allFrom, head?_uncased, ← uncased_cons, h]
      cases p before.head? (c :: t) with
      | none => exact ih 0 (c :: before)
      | some found =>
        obtain ⟨a, rest⟩ := found
        have := ih (t.length - rest.length) (c :: before)
        simp only [Option.map_some, Prod.map, length_uncased, List.map_cons]
        exact congrArg (List.cons _) this

/-- The matches in an uncased text are those in the text. -/
theorem all_uncased (t : Text) :
    p.all (uncased t) = (p.all t).map (Hit.uncased onFound) :=
  allFrom_uncased h 0 [] t

end Pattern

end SetupCatalog
