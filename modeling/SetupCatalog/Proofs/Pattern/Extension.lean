import SetupCatalog.Proofs.Pattern.Search
import SetupCatalog.Proofs.Pattern.Reading
import SetupCatalog.Proofs.Text.Uncased

/-!
# Reading a text that goes on

What is read of a text is read of a longer one that starts with it, unless the text ends inside a
word: there the longer text has more of the word. A pattern `ReadsOn` if this is the only exception.
What such a pattern finds in a part of a text is in the text.

The other way round, an element that reads a longer text reads its beginning, up to a character that
the element has no use for (`keyword_append_cons` and those after it).
-/

namespace SetupCatalog.Pattern

open Text

variable {α : Type}

/-! ## Ends inside a word -/

/-- Whether a text ends inside a word of the text that goes on with `more`. -/
def cutsWord (t more : Text) : Bool :=
  t.getLast?.any isWord && more.head?.any isWord

/-- What a text ends inside of is what its ends end inside of. -/
theorem cutsWord_of_suffix {t rest more : Text} (hrest : rest <:+ t)
    (h : cutsWord t more = false) : cutsWord rest more = false := by
  obtain ⟨read, rfl⟩ := hrest
  cases hlast : rest.getLast? with
  | none => rw [cutsWord, hlast]; rfl
  | some c =>
    rw [cutsWord, List.getLast?_append, hlast, Option.some_or] at h
    rw [cutsWord, hlast, h]

/-- It is enough to look at a beginning of what the text goes on with. -/
theorem cutsWord_takeWhile {t more : Text} (h : cutsWord t more = false) (q : Char → Bool) :
    cutsWord t (more.takeWhile q) = false := by
  cases more with
  | nil => exact h
  | cons c more =>
    rw [List.takeWhile_cons]
    split
    · exact h
    · rw [cutsWord, List.head?_nil, Option.any_none, Bool.and_false]

/-- A word that ends where the text does ends there as well if the text goes on. -/
theorem wordEnds_append {t rest more : Text} (hends : wordEnds rest = true)
    (hcut : rest = [] → cutsWord t more = false)
    (hlast : rest = [] → t.getLast?.any isWord = true) : wordEnds (rest ++ more) = true := by
  cases rest with
  | nil =>
    have hnone := hcut rfl
    rw [cutsWord, hlast rfl, Bool.true_and] at hnone
    rw [List.nil_append, wordEnds, hnone]
    rfl
  | cons c rest => exact hends

/-- A pattern reads a text that goes on as it reads the text, unless it reads to the end of the text
and the text ends inside a word. -/
def ReadsOn (p : Pattern α) : Prop :=
  ∀ {prev t a rest more}, p prev t = some (a, rest) → (rest = [] → cutsWord t more = false) →
    p prev (t ++ more) = some (a, rest ++ more)

/-- What occurs in a text occurs in a text that goes on. -/
theorem ReadsOn.occursIn {p : Pattern α} (hp : p.ReadsOn) {t more : Text}
    (h : p.occursIn t = true) (hcut : cutsWord t more = false) : p.occursIn (t ++ more) = true := by
  obtain ⟨before, rest, a, after, rfl, hread⟩ := occursIn_iff.mp h
  have hrest := cutsWord_of_suffix (List.suffix_append before rest) hcut
  exact occursIn_iff.mpr ⟨before, rest ++ more, a, after ++ more, List.append_assoc _ _ _,
    hp hread fun _ => hrest⟩

/-! ## Elements that read on -/

/-- A word of a class is read exactly where the text starts with it and goes on with a character
that is not in the class. -/
theorem someOf_eq_some_iff {q : Char → Bool} {t word rest : Text} :
    someOf q t = some (word, rest) ↔
      word ≠ [] ∧ (∀ c ∈ word, q c = true) ∧ t = word ++ rest ∧ rest.head?.any q = false := by
  constructor
  · intro h
    obtain ⟨hne, hword, ht⟩ := of_someOf_eq_some h
    refine ⟨hne, hword, ht, ?_⟩
    -- the run is as long as it can be, so what is left does not start with such a character
    have hrest : t.dropWhile q = rest := by
      unfold someOf at h
      split at h
      · cases h
      · exact congrArg Prod.snd (Option.some.inj h)
    have hhead := List.head?_dropWhile_not q t
    rw [hrest] at hhead
    cases rest with
    | nil => rfl
    | cons c rest => simpa using hhead
  · rintro ⟨hne, hword, rfl, hrest⟩
    cases rest with
    | nil =>
      obtain ⟨c, word, rfl⟩ := List.exists_cons_of_ne_nil hne
      rw [List.append_nil, someOf, List.takeWhile_eq_self_iff.mpr hword,
        List.dropWhile_eq_nil_iff.mpr hword]
    | cons c rest => exact someOf_append_cons hne hword hrest

/-- No run of a class is read exactly where the next character is not of it. -/
theorem someOf_eq_none_iff {q : Char → Bool} {t : Text} :
    someOf q t = none ↔ t.head?.any q = false := by
  cases t with
  | nil => exact iff_of_true rfl rfl
  | cons c t =>
    rw [someOf, List.takeWhile_cons, List.head?_cons, Option.any_some]
    cases q c with
    | true => simp
    | false => simp

/-- A run of a class, by the first character. -/
theorem someOf_cons (q : Char → Bool) (c : Char) (t : Text) :
    someOf q (c :: t) = if q c then some (c :: t.takeWhile q, t.dropWhile q) else none := by
  rw [someOf, List.takeWhile_cons, List.dropWhile_cons]
  cases q c <;> rfl

/-- A word of a class goes on with the text if it ends where the text does. -/
theorem takeWhile_append_eq (q : Char → Bool) (t more : Text) :
    (t ++ more).takeWhile q =
      if (t.dropWhile q).isEmpty then t.takeWhile q ++ more.takeWhile q else t.takeWhile q := by
  induction t with
  | nil => rfl
  | cons c t ih =>
    rw [List.cons_append, List.takeWhile_cons, List.takeWhile_cons, List.dropWhile_cons, ih]
    cases q c with
    | false => rfl
    | true =>
      simp only [if_true]
      split <;> rfl

/-- A run that has stopped is read in the same way when the text goes on. -/
theorem someOf_append {q : Char → Bool} {t word rest more : Text}
    (h : someOf q t = some (word, rest)) (hmore : rest = [] → more.head?.any q = false) :
    someOf q (t ++ more) = some (word, rest ++ more) := by
  obtain ⟨hne, hword, rfl, hrest⟩ := someOf_eq_some_iff.mp h
  refine someOf_eq_some_iff.mpr ⟨hne, hword, List.append_assoc _ _ _, ?_⟩
  cases rest with
  | nil => exact hmore rfl
  | cons c rest => exact hrest

/-- Trimming that has stopped is the same when the text goes on. -/
theorem trimStart_append {t : Text} (h : trimStart t ≠ []) (more : Text) :
    trimStart (t ++ more) = trimStart t ++ more := by
  rw [trimStart, List.dropWhile_append, if_neg]
  · rfl
  · rw [List.isEmpty_iff]
    exact h

/-- Blanks that have stopped are read in the same way when the text goes on. -/
theorem someBlanks_append {t rest : Text} (h : someBlanks t = some rest) (hrest : rest ≠ [])
    (more : Text) : someBlanks (t ++ more) = some (rest ++ more) := by
  unfold someBlanks at h
  split at h
  · next c t =>
    split at h
    · next hc =>
      obtain rfl := Option.some.inj h
      rw [List.cons_append, someBlanks, if_pos hc, trimStart_append hrest]
    · cases h
  · cases h

/-- A quote that may be there is decided by the next character alone. -/
theorem optionalQuote_append {t : Text} (h : t ≠ []) (more : Text) :
    optionalQuote (t ++ more) = optionalQuote t ++ more := by
  cases t with
  | nil => exact absurd rfl h
  | cons c t =>
    rw [List.cons_append, optionalQuote, optionalQuote]
    split <;> rfl

/-- Where a word is read to the end of a text, the text ends with its last letter. -/
theorem getLast?_of_keyword {word t : Text} {w : Char} (h : keyword (word ++ [w]) t = some []) :
    ∃ c, t.getLast? = some c ∧ sameLetter w c = true := by
  rw [keyword_append, Option.bind_eq_some_iff] at h
  obtain ⟨last, hlast, h⟩ := h
  obtain ⟨read, rfl⟩ := suffix_of_keyword hlast
  cases last with
  | nil => cases h
  | cons c last =>
    rw [keyword] at h
    split at h
    · next hc =>
      obtain rfl := Option.some.inj h
      exact ⟨c, by rw [List.getLast?_append]; rfl, hc⟩
    · cases h

/-! ## Characters that elements have no use for -/

/-- A keyword is not read across a character that is none of its letters. -/
theorem keyword_append_cons {word : Text} {stop : Char}
    (h : word.any (sameLetter · stop) = false) (t more : Text) :
    keyword word (t ++ stop :: more) = (keyword word t).map (· ++ stop :: more) := by
  induction word generalizing t with
  | nil => rfl
  | cons w word ih =>
    rw [List.any_cons, Bool.or_eq_false_iff] at h
    cases t with
    | nil => exact keyword_cons_eq_none h.1
    | cons c t =>
      rw [List.cons_append, keyword, keyword]
      split
      · exact ih h.2 t
      · rfl

/-- A run of a class is not read across a character outside of it. -/
theorem someOf_append_stop {q : Char → Bool} {stop : Char} (h : q stop = false) (t more : Text) :
    someOf q (t ++ stop :: more) =
      (someOf q t).map fun (word, rest) => (word, rest ++ stop :: more) := by
  cases hread : someOf q t with
  | some found => exact someOf_append hread fun _ => h
  | none =>
    refine someOf_eq_none_iff.mpr ?_
    cases t with
    | nil => exact h
    | cons c t =>
      rw [someOf_eq_none_iff] at hread
      exact hread

/-- A quote that may be there is not read across a character that is none. -/
theorem optionalQuote_append_stop {stop : Char} (h : isQuote stop = false) (t more : Text) :
    optionalQuote (t ++ stop :: more) = optionalQuote t ++ stop :: more := by
  cases t with
  | nil =>
    rw [List.nil_append, optionalQuote, h]
    rfl
  | cons c t => exact optionalQuote_append (List.cons_ne_nil c t) _

end SetupCatalog.Pattern
