import SetupCatalog.Text.Basic

/-!
# Shell words

A command line is made of words with spaces between them. A word of harmless characters stands for
itself; any other word is put in single quotes, between which every character but the quote stands
for itself, so a quote is written outside of them.

* `line` writes words, and `words?` reads a command line as a shell does.
* `words?_line` says that a shell reads exactly the words that were written.
-/

namespace SetupCatalog.Shell

/-! ## Writing -/

/-- Whether a character has no meaning to a shell. -/
def isHarmless (c : Char) : Bool :=
  c.isAlphanum || "_@%+=:,./-".toList.contains c

/-- A quoted character: the quote itself leaves the quotes and is put between double quotes. -/
def quotedChar (c : Char) : Text :=
  if c = '\'' then "'\"'\"'".toList else [c]

/-- A word as it is written on a command line. -/
def word (w : Text) : Text :=
  if !w.isEmpty && w.all isHarmless then w else '\'' :: w.flatMap quotedChar ++ ['\'']

/-- The command line with the given words. -/
def line (words : List Text) : Text :=
  Text.joined [' '] (words.map word)

/-! ## Reading -/

/-- Whether a character separates words. -/
def isSeparator (c : Char) : Bool :=
  c == ' ' || c == '\t'

/-- Whether a character opens a quoted part of a word, which the same character closes. -/
def isQuote (c : Char) : Bool :=
  c == '\'' || c == '"'

/-- The characters that do not simply stand for themselves outside of quotes. -/
def specialChars : Text :=
  "\n|&;<>()$\x60\\*?[#~!\x7b\x7d".toList

/-- Whether a character outside of quotes does not simply stand for itself. -/
def isSpecial (c : Char) : Bool :=
  specialChars.contains c

/-- Whether a character between double quotes does not simply stand for itself. -/
def isSpecialQuoted (c : Char) : Bool :=
  "$\x60\\".toList.contains c

/-- The words of a command line from some spot on. `quote` is the quote that is open there, and
`word` is what has been read of the word there, if one has started. Characters that do not stand for
themselves are not read. -/
def wordsFrom (quote : Option Char) (word : Option Text) : Text → Option (List Text)
  | [] => if quote.isSome then none else some word.toList
  | c :: t =>
    match quote with
    | some q =>
      if c = q then wordsFrom none word t
      else if q = '"' && isSpecialQuoted c then none
      else wordsFrom quote (some (word.getD [] ++ [c])) t
    | none =>
      if isQuote c then wordsFrom (some c) (some (word.getD [])) t
      else if isSeparator c then (wordsFrom none none t).map (word.toList ++ ·)
      else if isSpecial c then none
      else wordsFrom none (some (word.getD [] ++ [c])) t

/-- The words that a shell reads from a command line. -/
def words? (line : Text) : Option (List Text) :=
  wordsFrom none none line

/-- A harmless character stands for itself wherever it is read. -/
theorem plain_of_isHarmless {c : Char} (h : isHarmless c) :
    isQuote c = false ∧ isSeparator c = false ∧ isSpecial c = false := by
  have special : specialChars.all (fun d => !isHarmless d) = true := by decide
  simp only [Bool.eq_false_iff]
  refine ⟨fun hc => ?_, fun hc => ?_, fun hc => ?_⟩
  · simp only [isQuote, Bool.or_eq_true, beq_iff_eq] at hc
    rcases hc with rfl | rfl <;> exact absurd h (by decide)
  · simp only [isSeparator, Bool.or_eq_true, beq_iff_eq] at hc
    rcases hc with rfl | rfl <;> exact absurd h (by decide)
  · have harmful := List.all_eq_true.1 special c (List.contains_iff_mem.1 hc)
    simp [h] at harmful

theorem wordsFrom_harmless {w : Text} (h : ∀ c ∈ w, isHarmless c) (u rest : Text) :
    wordsFrom none (some u) (w ++ rest) = wordsFrom none (some (u ++ w)) rest := by
  induction w generalizing u with
  | nil => simp
  | cons c w ih =>
    obtain ⟨hq, hs, hp⟩ := plain_of_isHarmless (h c List.mem_cons_self)
    have hw := ih (fun d hd => h d (List.mem_cons_of_mem _ hd)) (u ++ [c])
    simpa [wordsFrom, hq, hs, hp] using hw

theorem wordsFrom_quoted (w u rest : Text) :
    wordsFrom (some '\'') (some u) (w.flatMap quotedChar ++ '\'' :: rest) =
      wordsFrom none (some (u ++ w)) rest := by
  induction w generalizing u with
  | nil => simp [wordsFrom]
  | cons c w ih =>
    by_cases hc : c = '\''
    · subst hc
      have hw := ih (u ++ ['\''])
      simpa [wordsFrom, quotedChar, isQuote, isSpecialQuoted] using hw
    · have hw := ih (u ++ [c])
      simpa [wordsFrom, quotedChar, hc] using hw

/-- A written word is read as one word. -/
theorem wordsFrom_word (w rest : Text) :
    wordsFrom none none (word w ++ rest) = wordsFrom none (some w) rest := by
  unfold word
  split
  · next h =>
    cases w with
    | nil => simp at h
    | cons c w =>
      have harmless : ∀ d ∈ c :: w, isHarmless d := by simpa using h
      obtain ⟨hq, hs, hp⟩ := plain_of_isHarmless (harmless c List.mem_cons_self)
      have hw := wordsFrom_harmless (fun d hd => harmless d (List.mem_cons_of_mem _ hd)) [c] rest
      simpa [wordsFrom, hq, hs, hp] using hw
  · simpa [wordsFrom, isQuote] using wordsFrom_quoted w [] rest

/-- A shell reads exactly the words that were written. -/
theorem words?_line (ws : List Text) : words? (line ws) = some ws := by
  unfold words? line
  induction ws with
  | nil => rfl
  | cons w ws ih =>
    cases ws with
    | nil => simpa [Text.joined, wordsFrom] using wordsFrom_word w []
    | cons v ws =>
      simp only [List.map_cons, Text.joined, List.append_assoc] at ih ⊢
      rw [wordsFrom_word]
      simp [wordsFrom, isQuote, isSeparator, ih]

end SetupCatalog.Shell
