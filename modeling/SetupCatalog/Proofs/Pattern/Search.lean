import SetupCatalog.Pattern.Basic

/-!
# What a search has found

The searches of `Pattern` return hits, which keep the text before them in reverse. Here their
results are said in terms of the text alone: it is parted into what comes before a spot and what
comes after it, and the pattern matches there. `find?_eq_some_iff` and `occursIn_iff` are exact, and
`exists_of_mem_all` holds for each of the matches from left to right.

To find out what a search of a given text finds, go through the text piece by piece: a search
`PassesOver` a piece if the pattern matches at no spot of it, and finds what the pattern finds after
the pieces that it has passed over (`find?_of_passesOver`).
-/

namespace SetupCatalog.Pattern

variable {α : Type} {p : Pattern α} {t : Text}

/-- What a search finds is what the pattern finds at the first spot where it matches. -/
theorem find?_eq_some_iff {a : α} :
    p.find? t = some a ↔ ∃ before rest after, t = before ++ rest ∧
      p before.getLast? rest = some (a, after) ∧
      ∀ u c v, before = u ++ c :: v → p u.getLast? (c :: v ++ rest) = none := by
  rw [find?, Option.map_eq_some_iff]
  constructor
  · rintro ⟨hit, hhit, rfl⟩
    obtain ⟨rest, ht, hp, hno⟩ := first?_eq_some_iff.mp hhit
    refine ⟨hit.before.reverse, rest, hit.after, ht, ?_, hno⟩
    rw [List.getLast?_reverse]
    exact hp
  · rintro ⟨before, rest, after, ht, hp, hno⟩
    refine ⟨⟨before.reverse, a, after⟩, first?_eq_some_iff.mpr ⟨rest, ?_, ?_, ?_⟩, rfl⟩
    · rw [List.reverse_reverse]
      exact ht
    · rw [List.head?_reverse]
      exact hp
    · rw [List.reverse_reverse]
      exact hno

/-- A pattern occurs in a text exactly if it matches at some spot of it. -/
theorem occursIn_iff :
    p.occursIn t = true ↔
      ∃ before rest a after, t = before ++ rest ∧ p before.getLast? rest = some (a, after) := by
  constructor
  · intro hoccurs
    obtain ⟨hit, hhit⟩ := Option.isSome_iff_exists.mp hoccurs
    obtain ⟨rest, ht, hp, -⟩ := first?_eq_some_iff.mp hhit
    refine ⟨hit.before.reverse, rest, hit.found, hit.after, ht, ?_⟩
    rw [List.getLast?_reverse]
    exact hp
  · rintro ⟨before, rest, a, after, ht, hp⟩
    cases hfirst : p.first? t with
    | some hit => rw [occursIn, hfirst, Option.isSome_some]
    | none =>
      have hno := first?_eq_none_iff.mp hfirst before rest ht
      rw [hp] at hno
      cases hno

/-- Where a pattern finds a stretch of what it reads, a search finds a stretch of the text. -/
theorem isInfix_of_find? {p : Pattern Text} {found : Text} (h : p.find? t = some found)
    (hp : ∀ prev rest found after, p prev rest = some (found, after) → found <:+: rest) :
    found <:+: t := by
  obtain ⟨before, rest, after, rfl, hread, -⟩ := find?_eq_some_iff.mp h
  exact (hp _ rest found after hread).trans (List.suffix_append before rest).isInfix

/-- Each of the matches from left to right is a match of the pattern. -/
theorem exists_of_mem_allFrom {hit : Hit α} {skip : Nat} {before : Text}
    (h : hit ∈ allFrom p skip before t) :
    ∃ passed rest, t = passed ++ rest ∧ hit.before = passed.reverse ++ before ∧
      p hit.before.head? rest = some (hit.found, hit.after) := by
  induction t generalizing skip before with
  | nil => simp [allFrom] at h
  | cons c t ih =>
    -- a match further on has passed over `c` as well
    have later : ∀ {skip}, hit ∈ allFrom p skip (c :: before) t →
        ∃ passed rest, c :: t = passed ++ rest ∧ hit.before = passed.reverse ++ before ∧
          p hit.before.head? rest = some (hit.found, hit.after) := by
      intro skip hmem
      obtain ⟨passed, rest, rfl, hbefore, hp⟩ := ih hmem
      exact ⟨c :: passed, rest, rfl, by simp [hbefore], hp⟩
    cases skip with
    | succ skip => exact later h
    | zero =>
      rw [allFrom] at h
      split at h
      next a rest hp =>
        rcases List.mem_cons.mp h with rfl | h
        · exact ⟨[], c :: t, rfl, rfl, hp⟩
        · exact later h
      next => exact later h

/-- Every hit is a match of the pattern at its own place, with the character before it. -/
theorem exists_of_mem_all {hit : Hit α} (h : hit ∈ p.all t) :
    ∃ rest, t = hit.before.reverse ++ rest ∧
      p hit.before.head? rest = some (hit.found, hit.after) := by
  obtain ⟨passed, rest, rfl, hbefore, hp⟩ := exists_of_mem_allFrom h
  refine ⟨rest, ?_, hp⟩
  rw [hbefore, List.append_nil, List.reverse_reverse]

/-! ## Passing over a text -/

/-- A search passes over a text that `rest` comes after: the pattern matches at no spot of it,
whatever stands before. -/
def PassesOver (p : Pattern α) (passed rest : Text) : Prop :=
  ∀ u c v, passed = u ++ c :: v → ∀ prev, p prev (c :: v ++ rest) = none

/-- Every pattern passes over nothing. -/
theorem passesOver_nil (p : Pattern α) (rest : Text) : p.PassesOver [] rest :=
  fun u c v h => absurd h.symm (List.append_ne_nil_of_right_ne_nil u (List.cons_ne_nil c v))

/-- A pattern passes over a character at which it does not match, whatever stands before. -/
theorem PassesOver.cons {c : Char} {passed rest : Text}
    (hc : ∀ prev, p prev (c :: passed ++ rest) = none) (h : p.PassesOver passed rest) :
    p.PassesOver (c :: passed) rest := by
  intro u d v huv
  cases u with
  | nil =>
    obtain ⟨rfl, rfl⟩ := List.cons.inj huv
    exact hc
  | cons e u => exact h u d v (List.cons.inj huv).2

/-- Two pieces in a row are passed over if each of them is before what comes after it. -/
theorem PassesOver.append {first second rest : Text} (hfirst : p.PassesOver first (second ++ rest))
    (hsecond : p.PassesOver second rest) : p.PassesOver (first ++ second) rest := by
  induction first with
  | nil => exact hsecond
  | cons c first ih =>
    refine PassesOver.cons (fun prev => ?_) (ih fun u d v huv => ?_)
    · show p prev (c :: (first ++ second ++ rest)) = none
      rw [List.append_assoc]
      exact hfirst [] c first rfl prev
    · exact hfirst (c :: u) d v (by rw [huv, List.cons_append])

/-- A piece is passed over if nothing that matches starts with one of its characters. -/
theorem passesOver_of_forall_mem {passed : Text}
    (h : ∀ c ∈ passed, ∀ prev t, p prev (c :: t) = none) (rest : Text) :
    p.PassesOver passed rest := by
  rintro u c v rfl prev
  exact h c (by simp) prev (v ++ rest)

/-- A text without a match is passed over by a pattern that does not look at what stands before. -/
theorem passesOver_of_occursIn (hp : ∀ prev t, p prev t = p none t)
    (h : p.occursIn t = false) : p.PassesOver t [] := by
  rintro u c v rfl prev
  rw [Option.eq_none_iff_forall_ne_some]
  rintro ⟨a, after⟩ hread
  rw [List.append_nil] at hread
  have hoccurs : p.occursIn (u ++ c :: v) = true :=
    occursIn_iff.mpr ⟨u, c :: v, a, after, rfl, by rw [hp, ← hp prev, hread]⟩
  rw [h] at hoccurs
  cases hoccurs

/-- The first hit is at the first place that is not passed over. -/
theorem first?_of_passesOver {passed rest after : Text} {a : α} (hpassed : p.PassesOver passed rest)
    (hread : p passed.getLast? rest = some (a, after)) :
    p.first? (passed ++ rest) = some ⟨passed.reverse, a, after⟩ := by
  refine first?_eq_some_iff.mpr ⟨rest, ?_, ?_, fun u c v huv => ?_⟩
  · rw [List.reverse_reverse]
  · rw [List.head?_reverse]
    exact hread
  · rw [List.reverse_reverse] at huv
    exact hpassed u c v huv _

/-- A search finds what the pattern finds where the search first cannot pass. -/
theorem find?_of_passesOver {passed rest after : Text} {a : α} (hpassed : p.PassesOver passed rest)
    (hread : p passed.getLast? rest = some (a, after)) : p.find? (passed ++ rest) = some a := by
  rw [find?, first?_of_passesOver hpassed hread, Option.map_some]

/-- A search that passes over the whole finds nothing. -/
theorem first?_eq_none_of_passesOver (hpassed : p.PassesOver t [])
    (hend : ∀ prev, p prev [] = none) :
    p.first? t = none := by
  refine first?_eq_none_iff.mpr fun u v huv => ?_
  cases v with
  | nil => exact hend _
  | cons c v =>
    rw [← List.append_nil (c :: v)]
    exact hpassed u c v huv _

end SetupCatalog.Pattern
