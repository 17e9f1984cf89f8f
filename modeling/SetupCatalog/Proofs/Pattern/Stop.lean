import SetupCatalog.Proofs.Pattern.Extension
import SetupCatalog.Proofs.Text.Piece

/-!
# Readings that end before a character

Some readings have no use for a certain character: they end before it at the latest, and what comes
after it makes no difference to them. A pattern that `StopsAt` a character reads a text with this
character in it as it reads the part before the character, and leaves the rest alone. So a search
goes through the part before the character first and then through the part after it
(`StopsAt.find?`, `StopsAt.occursIn`), as if these were two texts.

Other readings have the character as the last one that they read. A pattern that `EndsAt` it matches
up to the first one there is, and the first match of a text does not depend on what comes after it
(`EndsAt.first?_of_take_eq`).
-/

namespace SetupCatalog.Pattern

open Text

variable {α β : Type} {p : Pattern α} {stop : Char}

/-! ## Elements -/

/-- A run ends at a character outside its class. -/
theorem takeWhile_append_stop {q : Char → Bool} (h : q stop = false) (t more : Text) :
    (t ++ stop :: more).takeWhile q = t.takeWhile q := by
  rw [List.takeWhile_append, List.takeWhile_cons_of_neg (by simp [h]), List.append_nil]
  split
  · next hlength =>
    exact ((List.takeWhile_prefix q).eq_of_length hlength).symm
  · rfl

/-- What a run leaves keeps the character at which it ended. -/
theorem dropWhile_append_stop {q : Char → Bool} (h : q stop = false) (t more : Text) :
    (t ++ stop :: more).dropWhile q = t.dropWhile q ++ stop :: more := by
  rw [List.dropWhile_append, List.dropWhile_cons_of_neg (by simp [h])]
  split
  · next hempty => rw [List.isEmpty_iff.mp hempty, List.nil_append]
  · rfl

/-- Blanks are not read across a character that is none. -/
theorem someBlanks_append_stop (h : isBlank stop = false) (t more : Text) :
    someBlanks (t ++ stop :: more) = (someBlanks t).map (· ++ stop :: more) := by
  cases t with
  | nil => simp [someBlanks, h]
  | cons c t =>
    rw [List.cons_append, someBlanks, someBlanks]
    split
    · rw [trimStart, dropWhile_append_stop h, Option.map_some, trimStart]
    · rfl

/-- A symbol is not read across another one. -/
theorem symbol_append_stop {s : Char} (h : stop ≠ s) (t more : Text) :
    symbol s (t ++ stop :: more) = (symbol s t).map (· ++ stop :: more) := by
  cases t with
  | nil => exact symbol_cons_of_ne h more
  | cons c t =>
    rw [List.cons_append, symbol, symbol]
    split <;> rfl

/-- A word can end before the character. -/
theorem wordEnds_append_stop (h : isWord stop = false) (t more : Text) :
    wordEnds (t ++ stop :: more) = wordEnds t := by
  cases t with
  | nil => simp [wordEnds, h]
  | cons c t => rfl

/-! ## Patterns -/

/-- A pattern reads a text that goes on with the character as it reads the text. -/
def StopsAt (p : Pattern α) (stop : Char) : Prop :=
  ∀ prev t more, p prev (t ++ stop :: more) =
    (p prev t).map fun (a, rest) => (a, rest ++ stop :: more)

/-- What is found at a spot further on depends on the character before the spot alone. -/
theorem map_found_firstFrom {before before' t : Text} (h : before.head? = before'.head?) :
    (firstFrom p before t).map (·.found) = (firstFrom p before' t).map (·.found) := by
  induction t generalizing before before' with
  | nil => rw [firstFrom, firstFrom, h, Option.map_map, Option.map_map]; rfl
  | cons c t ih =>
    rw [firstFrom, firstFrom, h]
    cases p before'.head? (c :: t) with
    | some found => rfl
    | none => exact ih rfl

/-- A search behind the character finds what it finds in the text there. -/
theorem map_found_firstFrom_stop (hp : ∀ t, p (some stop) t = p none t) (before t : Text) :
    (firstFrom p (stop :: before) t).map (·.found) = p.find? t := by
  rw [find?, first?]
  cases t with
  | nil =>
    rw [firstFrom, firstFrom, List.head?_cons, hp, Option.map_map, Option.map_map]
    rfl
  | cons c t =>
    rw [firstFrom, firstFrom, List.head?_cons, List.head?_nil, hp]
    cases p none (c :: t) with
    | some found => rfl
    | none => exact map_found_firstFrom rfl

/-- The first hit in a text that is cut at the stop is the first of the first part, or else of the
second. -/
theorem StopsAt.firstFrom (hp : p.StopsAt stop) (before t more : Text) :
    p.firstFrom before (t ++ stop :: more) =
      ((p.firstFrom before t).map fun hit =>
        { hit with after := hit.after ++ stop :: more }).or
          (p.firstFrom (stop :: (t.reverse ++ before)) more) := by
  -- the match at a spot does not see the second part; where there is none, the search goes on
  induction t generalizing before with
  | nil =>
    have hstop := hp before.head? [] more
    rw [List.nil_append] at hstop
    rw [List.nil_append, Pattern.firstFrom, Pattern.firstFrom, hstop]
    cases p before.head? [] <;> rfl
  | cons c t ih =>
    have hstop := hp before.head? (c :: t) more
    rw [List.cons_append] at hstop
    rw [List.cons_append, Pattern.firstFrom, Pattern.firstFrom, hstop]
    cases p before.head? (c :: t) with
    | some found => rfl
    | none =>
      rw [List.reverse_cons, List.append_assoc, List.singleton_append]
      exact ih (c :: before)

/-- The first match before the character is the first match. -/
theorem StopsAt.first?_of_some (hp : p.StopsAt stop) {t : Text} {hit : Hit α}
    (h : p.first? t = some hit) (more : Text) :
    p.first? (t ++ stop :: more) = some { hit with after := hit.after ++ stop :: more } := by
  rw [first?] at h ⊢
  rw [hp.firstFrom, h]
  rfl

/-- A search goes through the part before the character and then through the part after it. -/
theorem StopsAt.find? (hp : p.StopsAt stop) (hprev : ∀ t, p (some stop) t = p none t)
    (t more : Text) : p.find? (t ++ stop :: more) = (p.find? t).or (p.find? more) := by
  rw [← map_found_firstFrom_stop hprev t.reverse more, Pattern.find?, Pattern.find?, first?, first?,
    hp.firstFrom, List.append_nil]
  cases p.firstFrom [] t <;> rfl

/-- A pattern occurs in a text that is cut at the stop exactly when it occurs in one of the parts.
-/
theorem StopsAt.occursIn (hp : p.StopsAt stop) (hprev : ∀ t, p (some stop) t = p none t)
    (t more : Text) :
    p.occursIn (t ++ stop :: more) = (p.occursIn t || p.occursIn more) := by
  have hfind : ∀ t, p.occursIn t = (p.find? t).isSome := fun t => Option.isSome_map.symm
  rw [hfind, hp.find? hprev, Option.isSome_or, hfind, hfind]

/-! ## Patterns that read up to a character -/

/-- A pattern reads up to the first of a character, and what comes after it makes no difference. -/
def EndsAt (p : Pattern α) (stop : Char) : Prop :=
  ∀ prev t a rest, p prev t = some (a, rest) →
    ∃ read, stop ∉ read ∧ t = read ++ stop :: rest ∧
      ∀ more, p prev (read ++ stop :: more) = some (a, more)

/-- Whether such a pattern matches where the character comes later is decided up to there. -/
theorem EndsAt.eq_none_append (hp : p.EndsAt stop) {prev : Option Char} {t more more' : Text}
    (hstop : stop ∈ t) (h : p prev (t ++ more) = none) : p prev (t ++ more') = none := by
  obtain ⟨front, back, rfl, hfront⟩ := List.eq_append_cons_of_mem hstop
  rw [List.append_assoc, List.cons_append] at h ⊢
  rw [Option.eq_none_iff_forall_ne_some]
  rintro ⟨a, rest⟩ hread
  obtain ⟨read, hnot, hsplit, hgoesOn⟩ := hp _ _ _ _ hread
  have hsame : front = read := by
    rw [← takeWhile_bne_append hfront, hsplit, takeWhile_bne_append hnot]
  rw [hsame, hgoesOn] at h
  cases h

/-- The first match stays the first one if something else comes after it. -/
theorem EndsAt.first?_goesOn (hp : p.EndsAt stop) {front : Text} {hit : Hit α}
    (h : p.first? (front ++ hit.after) = some hit) (more : Text) :
    p.first? (front ++ more) = some { hit with after := more } := by
  obtain ⟨rest, hsplit, hread, hno⟩ := first?_eq_some_iff.mp h
  obtain ⟨read, -, rfl, hgoesOn⟩ := hp _ _ _ _ hread
  have hrest : ∀ t, read ++ stop :: t = read ++ [stop] ++ t := by simp
  have hfront : front = hit.before.reverse ++ (read ++ [stop]) := by
    rw [hrest hit.after, ← List.append_assoc] at hsplit
    exact List.append_cancel_right hsplit
  refine first?_eq_some_iff.mpr ⟨read ++ stop :: more, ?_, hgoesOn more, fun u c v huv => ?_⟩
  · rw [hfront, hrest more, List.append_assoc]
  · -- an earlier match would end with this one at the latest
    have hstop : stop ∈ c :: v ++ (read ++ [stop]) := by simp
    have hearlier := hno u c v huv
    rw [hrest, ← List.append_assoc] at hearlier ⊢
    exact hp.eq_none_append hstop hearlier

/-- What stands behind the first hit is an end of the text. -/
theorem EndsAt.suffix_of_first? (hp : p.EndsAt stop) {t : Text} {hit : Hit α}
    (h : p.first? t = some hit) : hit.after <:+ t := by
  obtain ⟨rest, hsplit, hread, -⟩ := first?_eq_some_iff.mp h
  obtain ⟨read, -, rfl, -⟩ := hp _ _ _ _ hread
  rw [hsplit]
  exact (List.suffix_cons stop _).trans <|
    (List.suffix_append read _).trans (List.suffix_append _ _)

/-- Texts that agree up to the end of the first match in one of them have it in common. -/
theorem EndsAt.first?_of_take_eq (hp : p.EndsAt stop) {t later : Text} {hit : Hit α}
    (h : p.first? t = some hit)
    (hagree : later.take (t.length - hit.after.length) = t.take (t.length - hit.after.length)) :
    p.first? later = some { hit with after := later.drop (t.length - hit.after.length) } := by
  have hsplit := List.suffix_iff_eq_append.mp (hp.suffix_of_first? h)
  rw [← hsplit] at h
  have hgoesOn := hp.first?_goesOn h (later.drop (t.length - hit.after.length))
  rwa [← hagree, List.take_append_drop] at hgoesOn

/-! ## Patterns that go on where another one ends -/

/-- What is found by a pattern that goes on where another one ends follows from the first match of
that one. -/
theorem find?_of_eq_map {q : Pattern β} {f : α → Text → β × Text}
    (h : ∀ prev t, q prev t = (p prev t).map fun (a, rest) => f a rest) (t : Text) :
    q.find? t = (p.first? t).map fun hit => (f hit.found hit.after).1 := by
  have hfrom : ∀ t before, (firstFrom q before t).map (·.found) =
      (firstFrom p before t).map fun hit => (f hit.found hit.after).1 := by
    intro t
    induction t with
    | nil =>
      intro before
      rw [firstFrom, firstFrom, h, Option.map_map, Option.map_map, Option.map_map]
      rfl
    | cons c t ih =>
      intro before
      rw [firstFrom, firstFrom, h]
      cases p before.head? (c :: t) with
      | some found => rfl
      | none => exact ih (c :: before)
  exact hfrom t []

end SetupCatalog.Pattern
