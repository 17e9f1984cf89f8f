import Mathlib.Data.List.Forall2
import Mathlib.Data.List.TakeWhile
import Mathlib.Data.Option.Basic
import SetupCatalog.Pattern.Element
import SetupCatalog.Proofs.Text.Legible

/-!
# What the elements of patterns read

Each element reads something at the start of a text and hands back the rest. The statements here say
what the text looked like: it is the thing that was read followed by the rest. Said like this, a
reading does not depend on how the text goes on, which the elements themselves, as functions on
whole texts, do not show.

`keyword_eq_some_iff` is the one that carries the letter case: a word is read where the text spells
it.
-/

namespace SetupCatalog.Pattern

open Text

/-- Whether a text spells a word: letter by letter, without regard to case. -/
def Spells (word t : Text) : Prop :=
  List.Forall₂ (fun w c => sameLetter w c = true) word t

/-- A word is read exactly where the text spells it. -/
theorem keyword_eq_some_iff {word t rest : Text} :
    keyword word t = some rest ↔ ∃ spelt, Spells word spelt ∧ t = spelt ++ rest := by
  -- the text gives up one character for each letter of the keyword
  induction word generalizing t with
  | nil =>
    simp only [keyword, Option.some.injEq, Spells, List.forall₂_nil_left_iff]
    constructor
    · rintro rfl
      exact ⟨[], rfl, rfl⟩
    · rintro ⟨spelt, rfl, rfl⟩
      rfl
  | cons w word ih =>
    simp only [Spells, List.forall₂_cons_left_iff]
    constructor
    · intro h
      cases t with
      | nil => cases h
      | cons c t =>
        rw [keyword] at h
        split at h
        · next hc =>
          obtain ⟨spelt, hspelt, rfl⟩ := ih.mp h
          exact ⟨c :: spelt, ⟨c, spelt, hc, hspelt, rfl⟩, rfl⟩
        · cases h
    · rintro ⟨_, ⟨c, spelt, hc, hspelt, rfl⟩, rfl⟩
      rw [List.cons_append, keyword, if_pos hc]
      exact ih.mpr ⟨spelt, hspelt, rfl⟩

/-- Each character that spells a word is one of its letters. -/
theorem Spells.exists_sameLetter {word spelt : Text} {c : Char} (h : Spells word spelt)
    (hc : c ∈ spelt) : ∃ w ∈ word, sameLetter w c = true := by
  induction h with
  | nil => cases hc
  | @cons w d word spelt hd _ ih =>
    rcases List.mem_cons.mp hc with rfl | hc
    · exact ⟨w, List.mem_cons_self, hd⟩
    · obtain ⟨v, hv, hsame⟩ := ih hc
      exact ⟨v, List.mem_cons_of_mem w hv, hsame⟩

/-- What is left of a text after a word is an end of it. -/
theorem suffix_of_keyword {word t rest : Text} (h : keyword word t = some rest) : rest <:+ t := by
  obtain ⟨spelt, -, rfl⟩ := keyword_eq_some_iff.mp h
  exact List.suffix_append spelt rest

/-- One keyword of several reads forward. -/
theorem suffix_of_anyKeyword {words : List Text} {t rest : Text}
    (h : anyKeyword words t = some rest) : rest <:+ t := by
  induction words with
  | nil => cases h
  | cons word words ih =>
    rw [anyKeyword, Option.orElse_eq_or, Option.or_eq_some_iff] at h
    rcases h with h | ⟨-, h⟩
    · exact suffix_of_keyword h
    · exact ih h

/-- Blanks read forward. -/
theorem suffix_of_someBlanks {t rest : Text} (h : someBlanks t = some rest) : rest <:+ t := by
  unfold someBlanks at h
  split at h
  · split at h
    · obtain rfl := Option.some.inj h
      exact (List.dropWhile_suffix isBlank).trans (List.suffix_cons _ _)
    · cases h
  · cases h

/-- A quote is not blank. -/
theorem isBlank_eq_false_of_isQuote {q : Char} (hq : isQuote q = true) : isBlank q = false := by
  simp only [isQuote, Bool.or_eq_true, beq_iff_eq] at hq
  rcases hq with rfl | rfl <;> decide

/-- A quote that may be there reads forward. -/
theorem optionalQuote_suffix (t : Text) : optionalQuote t <:+ t := by
  unfold optionalQuote
  split
  · split
    · exact List.suffix_cons _ _
    · exact List.suffix_refl _
  · exact List.suffix_refl _

/-- What is read of a text is read of whatever the text goes on to. -/
theorem keyword_append_right {word t rest : Text} (h : keyword word t = some rest) (more : Text) :
    keyword word (t ++ more) = some (rest ++ more) := by
  obtain ⟨spelt, hspelt, rfl⟩ := keyword_eq_some_iff.mp h
  exact keyword_eq_some_iff.mpr ⟨spelt, hspelt, List.append_assoc spelt rest more⟩

/-- Reading two words in a row is reading one word made of both. -/
theorem keyword_append (first second t : Text) :
    keyword (first ++ second) t = (keyword first t).bind (keyword second) := by
  induction first generalizing t with
  | nil => rfl
  | cons w first ih =>
    cases t with
    | nil => rfl
    | cons c t =>
      rw [List.cons_append, keyword, keyword]
      split
      · exact ih t
      · rfl

/-- A word is not read where the first letter is another. -/
theorem keyword_cons_eq_none {w c : Char} {ws t : Text} (h : sameLetter w c = false) :
    keyword (w :: ws) (c :: t) = none := by
  rw [keyword, h]
  rfl

/-- A letter is the same as itself. -/
theorem sameLetter_self (c : Char) : sameLetter c c = true := by
  rw [sameLetter, beq_self_eq_true, Bool.true_or]

/-- A word is read where it stands. -/
theorem keyword_self (word rest : Text) : keyword word (word ++ rest) = some rest :=
  keyword_eq_some_iff.mpr ⟨word, List.forall₂_same.mpr fun c _ => sameLetter_self c, rfl⟩

/-- What a text differs by from an end of it is the rest of it. -/
theorem consumed_append (read rest : Text) : consumed (read ++ rest) rest = read := by
  rw [consumed, List.length_append, Nat.add_sub_cancel, List.take_left]

/-- A character is read exactly where the text starts with it. -/
theorem symbol_eq_some_iff {s : Char} {t rest : Text} :
    symbol s t = some rest ↔ t = s :: rest := by
  cases t with
  | nil => simp [symbol]
  | cons c t => simp [symbol]

/-- A symbol reads forward. -/
theorem suffix_of_symbol {s : Char} {t rest : Text} (h : symbol s t = some rest) : rest <:+ t := by
  rw [symbol_eq_some_iff.mp h]
  exact List.suffix_cons s rest

/-- A character is not read where another one stands. -/
theorem symbol_cons_of_ne {s c : Char} (h : c ≠ s) (t : Text) : symbol s (c :: t) = none :=
  if_neg h

/-- Dropping the blanks at the start of a text leaves a text that starts with `c` exactly if the
text is blanks followed by that one. -/
theorem trimStart_eq_cons_iff {t rest : Text} {c : Char} :
    trimStart t = c :: rest ↔
      isBlank c = false ∧ ∃ blanks, (∀ b ∈ blanks, isBlank b = true) ∧ t = blanks ++ c :: rest := by
  constructor
  · intro h
    refine ⟨?_, t.takeWhile isBlank, fun b hb => ?_, ?_⟩
    · have hhead := List.head?_dropWhile_not isBlank t
      rw [← trimStart, h] at hhead
      simpa using hhead
    · exact List.mem_takeWhile_imp hb
    · rw [← h, trimStart, List.takeWhile_append_dropWhile]
  · rintro ⟨hc, blanks, hblanks, rfl⟩
    rw [trimStart, List.dropWhile_append_of_pos hblanks,
      List.dropWhile_cons_of_neg (by simp [hc])]

/-- A character that is not blank is read after blanks exactly where the text is blanks followed by
it. -/
theorem symbol_trimStart_eq_some_iff {s : Char} {t rest : Text} (hs : isBlank s = false) :
    symbol s (trimStart t) = some rest ↔
      ∃ blanks, (∀ b ∈ blanks, isBlank b = true) ∧ t = blanks ++ s :: rest := by
  rw [symbol_eq_some_iff, trimStart_eq_cons_iff]
  exact and_iff_right hs

/-- What is read by a class of characters is not empty, lies in the class and stands before the
rest. -/
theorem of_someOf_eq_some {p : Char → Bool} {t word rest : Text}
    (h : someOf p t = some (word, rest)) :
    word ≠ [] ∧ (∀ c ∈ word, p c = true) ∧ t = word ++ rest := by
  unfold someOf at h
  split at h
  · cases h
  · next c w hw =>
    cases h
    refine ⟨List.cons_ne_nil c w, ?_, ?_⟩
    · rw [← hw]
      exact fun d hd => List.mem_takeWhile_imp hd
    · rw [← hw, List.takeWhile_append_dropWhile]

/-- A word of a class is read up to a character that is not in the class. -/
theorem someOf_append_cons {p : Char → Bool} {word rest : Text} {c : Char} (hne : word ≠ [])
    (hword : ∀ d ∈ word, p d = true) (hc : p c = false) :
    someOf p (word ++ c :: rest) = some (word, c :: rest) := by
  have hnot : ¬ p c = true := by
    rw [hc]
    exact Bool.false_ne_true
  rw [someOf, List.takeWhile_append_of_pos hword, List.dropWhile_append_of_pos hword,
    List.takeWhile_cons_of_neg hnot, List.dropWhile_cons_of_neg hnot, List.append_nil]
  cases word with
  | nil => exact absurd rfl hne
  | cons d word => rfl

/-! ## Words on one line -/

/-- Whether a word can only be spelt on one line: no line end is a variant of one of its letters. -/
def isOneLineWord (word : Text) : Bool :=
  word.all fun w => !sameLetter w '\r' && !sameLetter w '\n'

/-- A text that spells such a word stays on one line. -/
theorem oneLine_of_spells {word t : Text} (h : Spells word t) (hword : isOneLineWord word = true) :
    t.OneLine := by
  induction h with
  | nil => exact oneLine_nil
  | cons hwc _ ih =>
    simp only [isOneLineWord, List.all_cons, Bool.and_eq_true, Bool.not_eq_true'] at hword
    obtain ⟨⟨hcr, hlf⟩, hword⟩ := hword
    refine (ih hword).cons ?_
    rw [isLineEnd, Bool.or_eq_false_iff, beq_eq_false_iff_ne, beq_eq_false_iff_ne]
    constructor
    · rintro rfl
      rw [hcr] at hwc
      cases hwc
    · rintro rfl
      rw [hlf] at hwc
      cases hwc

/-- A keyword without a line end is read on one line. -/
theorem keyword_oneLine {word t rest : Text} (hword : isOneLineWord word = true)
    (h : keyword word t = some rest) : ∃ read, t = read ++ rest ∧ read.OneLine := by
  obtain ⟨spelt, hspelt, rfl⟩ := keyword_eq_some_iff.mp h
  exact ⟨spelt, rfl, oneLine_of_spells hspelt hword⟩

end SetupCatalog.Pattern
