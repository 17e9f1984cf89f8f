import Mathlib.Data.Option.Basic
import SetupCatalog.Proofs.Pattern.Reading
import SetupCatalog.Proofs.Pattern.Sweep
import SetupCatalog.Proofs.Text.Unified

/-!
# Patterns and line breaks

A pattern `ReadsUnified` if it reads a text with one kind of line break as it reads the text itself:
it matches at the same spots, and what it leaves is the same but for line breaks. It matches at no
line end, so that the spots inside of a line break, which a unified text does not have, are no loss.

The elements of patterns commute with `unifyBreaks` one by one, so patterns made of them do. A
search with such a pattern finds the same in a unified text (`first?_unified`, `find?_unified`). The
matches from left to right are the same if no match ends inside of a line break (`all_unified`).
-/

namespace SetupCatalog

open Text

/-- The text before a spot, the nearest character first, with one kind of line break. -/
def unifyBefore (before : Text) : Text :=
  (unifyBreaks before.reverse).reverse

/-- A match with unified texts around it. -/
def Hit.unified {α : Type} (onFound : α → α) (h : Hit α) : Hit α :=
  ⟨unifyBefore h.before, onFound h.found, unifyBreaks h.after⟩

/-! ## Spots of a text -/

/-- The character just passed is the same, or it is a line feed in place of a carriage return. -/
theorem head?_unifyBefore (before : Text) :
    (unifyBefore before).head? = before.head?.map unifyChar := by
  rw [unifyBefore, List.head?_reverse, getLast?_unifyBreaks, List.getLast?_reverse]

/-- Going on to a spot further right, from one that is not inside of a line break. -/
theorem unifyBefore_append {passed before : Text} (h : ¬ MidBreak before.head? passed) :
    unifyBefore (passed.reverse ++ before) =
      (unifyBreaks passed).reverse ++ unifyBefore before := by
  rw [← List.getLast?_reverse] at h
  rw [unifyBefore, List.reverse_append, List.reverse_reverse, unifyBreaks_append h,
    List.reverse_append, unifyBefore]

/-- No spot behind a character of a line is inside of a line break. -/
theorem not_midBreak_inside {c : Char} (hc : isLineEnd c = false) (before t : Text) :
    ¬ MidBreak (c :: before).head? t := by
  apply not_midBreak_of_ne
  rintro ⟨⟩
  cases hc

/-- No spot before a character of a line is inside of a line break. -/
theorem not_midBreak_cons {c : Char} (hc : isLineEnd c = false) (prev : Option Char) (t : Text) :
    ¬ MidBreak prev (c :: t) := by
  rintro ⟨-, hhead⟩
  obtain rfl := Option.some.inj hhead
  cases hc

/-- The spot behind a whole line break is not inside of one. -/
theorem not_midBreak_break {b t : Text} (hb : BreakBefore b t) (before : Text) :
    ¬ MidBreak (b.reverse ++ before).head? t := by
  cases hb with
  | pair | feed => exact not_midBreak_of_ne (by simp)
  | «return» h => exact fun hmid => h hmid.2

/-- A character that ends no line is passed as it is. -/
theorem unifyBefore_inside {c : Char} (hc : isLineEnd c = false) (before : Text) :
    unifyBefore (c :: before) = c :: unifyBefore before := by
  have := unifyBefore_append (not_midBreak_cons hc before.head? [])
  rwa [unifyBreaks_cons hc] at this

/-- A line break that has been passed, of one character or two, is passed as one line feed. -/
theorem unifyBefore_break {b t before : Text} (hb : BreakBefore b t)
    (h : ¬ MidBreak before.head? (b ++ t)) :
    unifyBefore (b.reverse ++ before) = '\n' :: unifyBefore before := by
  have hmid : ¬ MidBreak before.head? b := by
    intro hmid
    apply h
    cases hb <;> exact hmid
  have hbreak : unifyBreaks b = ['\n'] := by cases hb <;> rfl
  rw [unifyBefore_append hmid, hbreak]
  rfl

/-- A line has ended on the way exactly if one has in the text. -/
theorem any_isLineEnd_unifyBefore (before : Text) :
    (unifyBefore before).any isLineEnd = before.any isLineEnd := by
  rw [unifyBefore, List.any_reverse, any_isLineEnd_unifyBreaks, List.any_reverse]

/-- The line before a spot, up to the last line end, is the part of a unified text after its last
line feed. -/
theorem takeWhile_unifyBefore {p : Char → Bool} (hp : p '\n' = false) (before : Text) :
    (unifyBefore before).takeWhile p = before.takeWhile fun c => !isLineEnd c && p c := by
  induction before with
  | nil => rfl
  | cons c before ih =>
    cases hc : isLineEnd c with
    | false =>
      rw [unifyBefore_inside hc]
      by_cases hpc : p c = true
      · rw [List.takeWhile_cons_of_pos hpc, List.takeWhile_cons_of_pos (by rw [hc, hpc]; rfl), ih]
      · rw [List.takeWhile_cons_of_neg hpc, List.takeWhile_cons_of_neg (by simp [hpc])]
    | true =>
      have hhead : (unifyBefore (c :: before)).head? = some '\n' := by
        rw [head?_unifyBefore, List.head?_cons, Option.map_some, unifyChar_of_end hc]
      obtain ⟨others, hothers⟩ := List.head?_eq_some_iff.mp hhead
      rw [hothers, List.takeWhile_cons_of_neg (by simp [hp]),
        List.takeWhile_cons_of_neg (by simp [hc])]

namespace Pattern

variable {α : Type}

/-- A pattern reads a unified text as it reads the text, and matches at no line end. -/
structure ReadsUnified (onFound : α → α) (p : Pattern α) : Prop where
  reads : ∀ prev t,
    p (prev.map unifyChar) (unifyBreaks t) = (p prev t).map (Prod.map onFound unifyBreaks)
  lineEnd : ∀ prev c t, isLineEnd c = true → p prev (c :: t) = none

/-! ## Elements -/

/-- Words that can only be spelt on one line do not start at a line end. -/
theorem keyword_lineEnd {w c : Char} {ws : Text} (hword : isOneLineWord (w :: ws) = true)
    (hc : isLineEnd c = true) (t : Text) : keyword (w :: ws) (c :: t) = none := by
  simp only [isOneLineWord, List.all_cons, Bool.and_eq_true, Bool.not_eq_true'] at hword
  obtain ⟨⟨hreturn, hfeed⟩, -⟩ := hword
  apply keyword_cons_eq_none
  rcases isLineEnd_iff.mp hc with rfl | rfl
  · exact hreturn
  · exact hfeed

/-- A word on one line is read off a text with one kind of line break. -/
theorem keyword_unified {word : Text} (hword : isOneLineWord word = true) (t : Text) :
    keyword word (unifyBreaks t) = (keyword word t).map unifyBreaks := by
  induction word generalizing t with
  | nil => rfl
  | cons w ws ih =>
    have hrest : isOneLineWord ws = true := by
      simp only [isOneLineWord, List.all_cons, Bool.and_eq_true] at hword ⊢
      exact hword.2
    cases t using breaks_induction with
    | nil => rfl
    | inside c t hc _ =>
      rw [unifyBreaks_cons hc, keyword, keyword, ih hrest]
      split <;> rfl
    | lineBreak b t hb _ =>
      obtain ⟨e, u, heq, he⟩ := hb.exists_cons
      rw [unifyBreaks_break hb, heq, keyword_lineEnd hword he, keyword_lineEnd hword (by decide)]
      rfl

/-- So is the first of several words that is there. -/
theorem anyKeyword_unified {words : List Text} (hwords : ∀ word ∈ words, isOneLineWord word = true)
    (t : Text) : anyKeyword words (unifyBreaks t) = (anyKeyword words t).map unifyBreaks := by
  induction words with
  | nil => rfl
  | cons word words ih =>
    obtain ⟨hword, hothers⟩ := List.forall_mem_cons.mp hwords
    rw [anyKeyword, anyKeyword, keyword_unified hword, ih hothers]
    cases keyword word t <;> rfl

/-- No word starts with the end of a line. -/
theorem anyKeyword_lineEnd {words : List Text} {c : Char}
    (hwords : ∀ word ∈ words, word ≠ [] ∧ isOneLineWord word = true) (hc : isLineEnd c = true)
    (t : Text) : anyKeyword words (c :: t) = none := by
  induction words with
  | nil => rfl
  | cons word words ih =>
    obtain ⟨⟨hne, hword⟩, hothers⟩ := List.forall_mem_cons.mp hwords
    obtain ⟨w, ws, rfl⟩ := List.exists_cons_of_ne_nil hne
    rw [anyKeyword, keyword_lineEnd hword hc, ih hothers]
    rfl

/-- Nor does a character that ends no line. -/
theorem symbol_lineEnd {s c : Char} (hs : isLineEnd s = false)
    (hc : isLineEnd c = true) (t : Text) :
    symbol s (c :: t) = none := by
  apply symbol_cons_of_ne
  rintro rfl
  rw [hs] at hc
  cases hc

/-- A character that ends no line is read off a text with one kind of line break. -/
theorem symbol_unified {s : Char} (hs : isLineEnd s = false) (t : Text) :
    symbol s (unifyBreaks t) = (symbol s t).map unifyBreaks := by
  cases t using breaks_induction with
  | nil => rfl
  | inside c t hc _ =>
    rw [unifyBreaks_cons hc, symbol, symbol]
    split <;> rfl
  | lineBreak b t hb _ =>
    obtain ⟨e, u, heq, he⟩ := hb.exists_cons
    rw [unifyBreaks_break hb, heq, symbol_lineEnd hs he, symbol_lineEnd hs (by decide)]
    rfl

/-- What is read of a text that is left outside of a line break is unified with it. -/
theorem consumed_unifyBreaks {t rest : Text} (h : t.LeavesWhole rest) :
    consumed (unifyBreaks t) (unifyBreaks rest) = unifyBreaks (consumed t rest) := by
  obtain ⟨read, rfl, hread⟩ := h
  have hmid : ¬ MidBreak read.getLast? rest := hread []
  rw [unifyBreaks_append hmid, consumed_append, consumed_append]

/-- Reading blanks is looking at the first character and trimming. -/
theorem someBlanks_eq (t : Text) :
    someBlanks t = if t.head?.any isBlank then some (trimStart t) else none := by
  cases t with
  | nil => rfl
  | cons c t =>
    rw [someBlanks, List.head?_cons, Option.any_some]
    split
    · next hc => rw [trimStart, trimStart, List.dropWhile_cons_of_pos hc]
    · rfl

/-- Blanks, which line breaks belong to, are read off a text with one kind of line break. -/
theorem someBlanks_unified (t : Text) :
    someBlanks (unifyBreaks t) = (someBlanks t).map unifyBreaks := by
  rw [someBlanks_eq, any_head?_unifyBreaks (by decide), trimStart_unifyBreaks, someBlanks_eq]
  split <;> rfl

/-- A class that leaves the line ends out reads the same word. -/
theorem someOf_unified {p : Char → Bool} (hp : BreakBlind p) (hfeed : p '\n' = false) (t : Text) :
    someOf p (unifyBreaks t) = (someOf p t).map (Prod.map id unifyBreaks) := by
  rw [someOf, someOf, takeWhile_unifyBreaks_inside hp hfeed, dropWhile_unifyBreaks hp]
  cases t.takeWhile p <;> rfl

/-- The rest of a line is the same, and what comes after it starts with a line feed. -/
theorem restOfLine_unified (t : Text) :
    restOfLine (unifyBreaks t) = Prod.map id unifyBreaks (restOfLine t) := by
  rw [restOfLine, restOfLine, takeWhile_unifyBreaks_inside (by decide) (by decide),
    dropWhile_unifyBreaks (by decide)]
  rfl

/-- No end of a line is part of a word, so a word may start after any of them. -/
theorem wordStarts_map_unifyChar (prev : Option Char) :
    wordStarts (prev.map unifyChar) = wordStarts prev := by
  cases prev with
  | none => rfl
  | some c =>
    cases hc : isLineEnd c with
    | false => rw [Option.map_some, unifyChar_of_inside hc]
    | true =>
      rw [Option.map_some, unifyChar_of_end hc]
      rcases isLineEnd_iff.mp hc with rfl | rfl <;> decide

/-- And a word may end before any of them. -/
theorem wordEnds_unified (t : Text) : wordEnds (unifyBreaks t) = wordEnds t := by
  rw [wordEnds, any_head?_unifyBreaks (by decide), wordEnds]

/-! ## Searches -/

variable {p : Pattern α} {onFound : α → α} (h : p.ReadsUnified onFound)

include h

/-- A search passes over a line break. -/
theorem ReadsUnified.firstFrom_break {b t : Text} (hb : BreakBefore b t) (before : Text) :
    firstFrom p before (b ++ t) = firstFrom p (b.reverse ++ before) t := by
  have hcons : ∀ {c : Char} {u : Text}, isLineEnd c = true → ∀ before,
      firstFrom p before (c :: u) = firstFrom p (c :: before) u := by
    intro c u hc before
    rw [firstFrom, h.lineEnd _ c u hc]
  cases hb with
  | pair => exact (hcons (by decide) before).trans (hcons (by decide) _)
  | feed | «return» => exact hcons (by decide) before

/-- A search goes from break to break, and finds nothing inside of one. -/
theorem firstFrom_unified {before t : Text} (hmid : ¬ MidBreak before.head? t) :
    firstFrom p (unifyBefore before) (unifyBreaks t) =
      (firstFrom p before t).map (Hit.unified onFound) := by
  induction t using breaks_induction generalizing before with
  | nil =>
    have hread := h.reads before.head? []
    rw [unifyBreaks_nil] at hread
    rw [unifyBreaks_nil, firstFrom, firstFrom, head?_unifyBefore, hread, Option.map_map,
      Option.map_map]
    rfl
  | inside c t hc ih =>
    have hread := h.reads before.head? (c :: t)
    rw [unifyBreaks_cons hc] at hread
    rw [unifyBreaks_cons hc, firstFrom, firstFrom, head?_unifyBefore, hread]
    cases p before.head? (c :: t) with
    | none =>
      rw [Option.map_none, ← unifyBefore_inside hc]
      exact ih (not_midBreak_inside hc before t)
    | some found => rfl
  | lineBreak b t hb ih =>
    -- nothing is found at a line break of either spelling, so the search goes on behind it
    have hfeed := h.firstFrom_break (.feed (unifyBreaks t)) (unifyBefore before)
    rw [unifyBreaks_break hb, h.firstFrom_break hb, ← ih (not_midBreak_break hb before),
      unifyBefore_break hb hmid]
    exact hfeed

/-- The first match is the same but for the line breaks around it. -/
theorem first?_unified (t : Text) :
    p.first? (unifyBreaks t) = (p.first? t).map (Hit.unified onFound) := by
  have hstart : ¬ MidBreak ([] : Text).head? t := not_midBreak_of_ne (by simp)
  exact firstFrom_unified h hstart

/-- No match starts with a line feed. -/
theorem ReadsUnified.head?_ne {prev : Option Char} {t : Text} {found : α × Text}
    (hread : p prev t = some found) : t.head? ≠ some '\n' := by
  intro hhead
  obtain ⟨u, rfl⟩ := List.head?_eq_some_iff.mp hhead
  rw [h.lineEnd _ _ _ (by decide)] at hread
  cases hread

/-- A unified text is parted at a match as the text is. -/
theorem unifyBreaks_of_first? {t : Text} {hit : Hit α} (hhit : p.first? t = some hit) :
    ∃ rest, t = hit.before.reverse ++ rest ∧ rest.head? ≠ some '\n' ∧
      unifyBreaks t = (unifyBefore hit.before).reverse ++ unifyBreaks rest := by
  obtain ⟨rest, ht, hread, -⟩ := first?_eq_some_iff.mp hhit
  have hhead := h.head?_ne hread
  refine ⟨rest, ht, hhead, ?_⟩
  rw [ht, unifyBreaks_append fun hmid => hhead hmid.2, unifyBefore, List.reverse_reverse]

/-- What is found first is the same. -/
theorem find?_unified (t : Text) : p.find? (unifyBreaks t) = (p.find? t).map onFound := by
  rw [find?, first?_unified h, find?, Option.map_map, Option.map_map]
  rfl

/-- A pattern occurs in both texts or in none. -/
theorem occursIn_unified (t : Text) : p.occursIn (unifyBreaks t) = p.occursIn t := by
  rw [occursIn, first?_unified h, Option.isSome_map, occursIn]

omit h

/-- A pattern leaves off outside of line breaks, after at least one character. -/
def LeavesBreaksWhole (p : Pattern α) : Prop :=
  ∀ prev t a rest, p prev t = some (a, rest) → t.LeavesWhole rest ∧ rest.length < t.length

include h

/-- A sweep passes over a line break, since no match starts there. -/
theorem ReadsUnified.allFrom_break {b t : Text} (hb : BreakBefore b t) (before : Text) :
    allFrom p 0 before (b ++ t) = allFrom p 0 (b.reverse ++ before) t := by
  have hcons : ∀ {c : Char} {u : Text}, isLineEnd c = true → ∀ before,
      allFrom p 0 before (c :: u) = allFrom p 0 (c :: before) u := by
    intro c u hc before
    rw [allFrom, h.lineEnd _ c u hc]
  cases hb with
  | pair => exact (hcons (by decide) before).trans (hcons (by decide) _)
  | feed | «return» => exact hcons (by decide) before

/-- A sweep that has stopped outside of a line break goes on in both texts alike. The induction is
on the length, because a match may take any part of the text. -/
theorem allFrom_unified (hwhole : p.LeavesBreaksWhole) {before t : Text}
    (hmid : ¬ MidBreak before.head? t) :
    allFrom p 0 (unifyBefore before) (unifyBreaks t) =
      (allFrom p 0 before t).map (Hit.unified onFound) := by
  -- behind a match the sweep goes on with an end of the text
  induction hn : t.length using Nat.strong_induction_on generalizing before t with
  | _ n ih =>
    subst hn
    cases t using breaks_induction with
    | nil => rfl
    | inside c t hc _ =>
      have hread := h.reads before.head? (c :: t)
      cases hp : p before.head? (c :: t) with
      | none =>
        rw [hp, unifyBreaks_cons hc] at hread
        have hlater := ih t.length (Nat.lt_succ_self _) (not_midBreak_inside hc before t) rfl
        rw [unifyBefore_inside hc] at hlater
        rw [unifyBreaks_cons hc, allFrom, allFrom, head?_unifyBefore, hread, hp]
        exact hlater
      | some found =>
        obtain ⟨a, rest⟩ := found
        obtain ⟨⟨read, ht, hend⟩, hshorter⟩ := hwhole _ _ _ _ hp
        have hne : read ≠ [] := by
          rintro rfl
          rw [ht, List.nil_append] at hshorter
          exact absurd hshorter (Nat.lt_irrefl _)
        obtain ⟨d, passed, rfl⟩ := List.exists_cons_of_ne_nil hne
        rw [List.cons_append, List.cons.injEq] at ht
        obtain ⟨rfl, rfl⟩ := ht
        replace hend : ¬ MidBreak (c :: passed).getLast? rest := hend []
        have hunified : unifyBreaks (c :: (passed ++ rest)) =
            c :: (unifyBreaks passed ++ unifyBreaks rest) := by
          rw [← List.cons_append, unifyBreaks_append hend, unifyBreaks_cons hc, List.cons_append]
        rw [hp, hunified, ← head?_unifyBefore, Option.map_some] at hread
        have hlast : ((c :: passed).reverse ++ before).head? = (c :: passed).getLast? := by
          rw [List.head?_append, List.head?_reverse, List.getLast?_cons, Option.some_or]
        have hlater := ih rest.length hshorter (hlast ▸ hend) rfl
        rw [unifyBefore_append (not_midBreak_cons hc _ _), unifyBreaks_cons hc] at hlater
        rw [hunified, allFrom_of_read hread, allFrom_of_read hp, List.map_cons, hlater]
        rfl
    | lineBreak b t hb _ =>
      have hshorter : t.length < (b ++ t).length := by
        have hlength := hb.length_pos
        rw [List.length_append]
        omega
      have hlater := ih t.length hshorter (not_midBreak_break hb before) rfl
      have hfeed := h.allFrom_break (.feed (unifyBreaks t)) (unifyBefore before)
      rw [unifyBreaks_break hb, h.allFrom_break hb, ← hlater, unifyBefore_break hb hmid]
      exact hfeed

/-- The matches are the same but for the line breaks around them. -/
theorem all_unified (hwhole : p.LeavesBreaksWhole) (t : Text) :
    p.all (unifyBreaks t) = (p.all t).map (Hit.unified onFound) := by
  have hstart : ¬ MidBreak ([] : Text).head? t := not_midBreak_of_ne (by simp)
  exact allFrom_unified h hwhole hstart

end Pattern

end SetupCatalog
