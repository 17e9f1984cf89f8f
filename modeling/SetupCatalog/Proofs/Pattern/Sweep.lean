import SetupCatalog.Proofs.Pattern.Search

/-!
# All the matches of a sweep

`Pattern.all` goes through a text from left to right and passes over what it has matched. The
matches therefore stand in the order of their offsets (`pairwise_offset_all`). What is passed over
could hide a match, and does so for some patterns. It does not for a pattern that is `Separate`: one
that never matches inside its own matches. For such a pattern the sweep lists every spot where it
matches (`mem_all_iff`).
-/

namespace SetupCatalog.Pattern

variable {α : Type} {p : Pattern α} {t : Text}

/-! ## The order of the matches -/

/-- A match after the next `skip` characters stands at least that far on. -/
theorem offset_of_mem_allFrom {hit : Hit α} {skip : Nat} {before : Text}
    (h : hit ∈ allFrom p skip before t) : before.length + skip ≤ hit.offset := by
  induction t generalizing skip before with
  | nil => simp [allFrom] at h
  | cons c t ih =>
    -- a character that is skipped counts for the start and no longer for the skip
    cases skip with
    | succ skip =>
      have := ih h
      rw [List.length_cons] at this
      omega
    | zero =>
      rw [allFrom] at h
      split at h
      · rcases List.mem_cons.mp h with rfl | h
        · exact Nat.le_refl _
        · have := ih h
          rw [List.length_cons] at this
          omega
      · have := ih h
        rw [List.length_cons] at this
        omega

/-- Hits come in the order of their places. -/
theorem pairwise_offset_allFrom (p : Pattern α) (skip : Nat) (before t : Text) :
    (allFrom p skip before t).Pairwise fun first later => first.offset < later.offset := by
  induction t generalizing skip before with
  | nil => exact List.Pairwise.nil
  | cons c t ih =>
    cases skip with
    | succ skip => exact ih skip (c :: before)
    | zero =>
      rw [allFrom]
      split
      · refine List.pairwise_cons.mpr ⟨fun later hlater => ?_, ih _ _⟩
        have := offset_of_mem_allFrom hlater
        rw [List.length_cons] at this
        show before.length < later.offset
        omega
      · exact ih 0 (c :: before)

/-- The matches stand in the order of their offsets. -/
theorem pairwise_offset_all (p : Pattern α) (t : Text) :
    (p.all t).Pairwise fun first later => first.offset < later.offset :=
  pairwise_offset_allFrom p 0 [] t

/-- A sweep over a text finds nothing where the pattern matches at no spot. -/
theorem allFrom_eq_nil {skip : Nat} {before : Text}
    (h : ∀ u c v, t = u ++ c :: v → p (u.reverse ++ before).head? (c :: v) = none) :
    allFrom p skip before t = [] := by
  induction t generalizing skip before with
  | nil => cases skip <;> rfl
  | cons c t ih =>
    have hlater : ∀ u d v, t = u ++ d :: v →
        p (u.reverse ++ c :: before).head? (d :: v) = none := by
      rintro u d v rfl
      have hspot := h (c :: u) d v rfl
      rwa [List.reverse_cons, List.append_assoc, List.singleton_append] at hspot
    cases skip with
    | succ skip => exact ih hlater
    | zero =>
      rw [allFrom, show p before.head? (c :: t) = none from h [] c t rfl]
      exact ih hlater

/-- Nothing matches in a text that is passed over. -/
theorem allFrom_of_passesOver {skip : Nat} {before : Text} (h : p.PassesOver t []) :
    allFrom p skip before t = [] := by
  refine allFrom_eq_nil fun u c v huv => ?_
  have hnone := h u c v huv (u.reverse ++ before).head?
  rwa [List.append_nil] at hnone

/-- Skipping a text is going on after it. -/
theorem allFrom_length_append (p : Pattern α) (passed before rest : Text) :
    allFrom p passed.length before (passed ++ rest) =
      allFrom p 0 (passed.reverse ++ before) rest := by
  induction passed generalizing before with
  | nil => rfl
  | cons c passed ih =>
    rw [List.length_cons, List.cons_append, allFrom, ih, List.reverse_cons, List.append_assoc,
      List.singleton_append]

/-- Behind a match the sweep goes on where the match ends. -/
theorem allFrom_of_read {c : Char} {passed before rest : Text} {a : α}
    (h : p before.head? (c :: (passed ++ rest)) = some (a, rest)) :
    allFrom p 0 before (c :: (passed ++ rest)) =
      ⟨before, a, rest⟩ :: allFrom p 0 ((c :: passed).reverse ++ before) rest := by
  have hlength : (passed ++ rest).length - rest.length = passed.length := by
    rw [List.length_append, Nat.add_sub_cancel]
  rw [allFrom, h]
  dsimp only
  rw [hlength, allFrom_length_append, List.reverse_cons, List.append_assoc, List.singleton_append]

/-- A text that is passed over holds no hit. -/
theorem allFrom_append_of_passesOver {passed rest before : Text} (h : p.PassesOver passed rest) :
    allFrom p 0 before (passed ++ rest) = allFrom p 0 (passed.reverse ++ before) rest := by
  induction passed generalizing before with
  | nil => rfl
  | cons c passed ih =>
    have hlater : p.PassesOver passed rest := by
      rintro u d v rfl
      exact h (c :: u) d v rfl
    rw [List.cons_append, allFrom, ← List.cons_append, h [] c passed rfl]
    dsimp only
    rw [ih hlater, List.reverse_cons, List.append_assoc, List.singleton_append]

/-- If no match that starts in a text goes beyond it, then the matches behind it are those of a
sweep that starts there. -/
theorem exists_allFrom_append {passed rest : Text} (hstays : ∀ u c v, passed = u ++ c :: v →
      ∀ prev a after, p prev (c :: v ++ rest) = some (a, after) → rest <:+ after)
    {skip : Nat} (hskip : skip ≤ passed.length) (before : Text) :
    ∃ earlier, allFrom p skip before (passed ++ rest) =
      earlier ++ allFrom p 0 (passed.reverse ++ before) rest := by
  induction passed generalizing skip before with
  | nil =>
    obtain rfl := Nat.le_zero.mp hskip
    exact ⟨[], rfl⟩
  | cons c passed ih =>
    have hlater : ∀ u d v, passed = u ++ d :: v → ∀ prev a after,
        p prev (d :: v ++ rest) = some (a, after) → rest <:+ after := by
      rintro u d v rfl
      exact hstays (c :: u) d v rfl
    rw [List.reverse_cons, List.append_assoc, List.singleton_append, List.cons_append]
    cases skip with
    | succ skip => exact ih hlater (Nat.le_of_succ_le_succ hskip) (c :: before)
    | zero =>
      rw [allFrom]
      split
      · next a after hread =>
        -- the hit leaves all of the rest, so what it skips is still in what is passed
        have hlength := (hstays [] c passed rfl _ a after hread).length_le
        obtain ⟨earlier, hearlier⟩ := ih hlater
          (show (passed ++ rest).length - after.length ≤ passed.length by
            rw [List.length_append]; omega) (c :: before)
        exact ⟨⟨before, a, after⟩ :: earlier, by rw [hearlier, List.cons_append]⟩
      · exact ih hlater (Nat.zero_le _) (c :: before)

/-- A match is the first one if the text before it is passed over, and the only one if the text
after it is passed over as well. -/
theorem exists_all_eq_cons {passed read rest : Text} {a : α}
    (hpassed : p.PassesOver passed (read ++ rest)) (hne : read ≠ [])
    (hread : p passed.getLast? (read ++ rest) = some (a, rest)) :
    ∃ later, p.all (passed ++ (read ++ rest)) = ⟨passed.reverse, a, rest⟩ :: later ∧
      (p.PassesOver rest [] → later = []) := by
  obtain ⟨c, read, rfl⟩ := List.exists_cons_of_ne_nil hne
  refine ⟨allFrom p 0 ((c :: read).reverse ++ passed.reverse) rest, ?_, allFrom_of_passesOver⟩
  rw [← List.head?_reverse, List.cons_append] at hread
  rw [Pattern.all, allFrom_append_of_passesOver hpassed, List.append_nil, List.cons_append,
    allFrom_of_read hread]

/-! ## Patterns whose matches do not overlap -/

/-- A pattern does not match inside its own matches: neither at a spot after the first character of
a match, nor anywhere else before the end of it. -/
def Separate (p : Pattern α) : Prop :=
  ∀ prev t a rest, p prev t = some (a, rest) → ∃ c read, t = c :: read ++ rest ∧
    ∀ u d v, read = u ++ d :: v → ∀ prev', p prev' (d :: v ++ rest) = none

/-- If no match begins within the next `skip` characters, passing over them misses none. -/
theorem mem_allFrom_of_separate (hp : p.Separate) {hit : Hit α} {skip : Nat} {before rest : Text}
    {passed : Text} (hmatch : p (passed.reverse ++ before).head? rest = some (hit.found, hit.after))
    (hbefore : hit.before = passed.reverse ++ before)
    (hskip : ∀ u d v, passed ++ rest = u ++ d :: v → u.length < skip →
      p (u.reverse ++ before).head? (d :: v) = none) :
    hit ∈ allFrom p skip before (passed ++ rest) := by
  induction passed generalizing skip before with
  | nil =>
    obtain ⟨c, read, rfl, -⟩ := hp _ _ _ _ hmatch
    rw [List.nil_append, List.cons_append] at *
    cases skip with
    | succ skip =>
      have hnone := hskip [] c (read ++ hit.after) rfl (Nat.succ_pos skip)
      rw [hnone] at hmatch
      cases hmatch
    | zero =>
      rw [allFrom]
      rw [List.reverse_nil, List.nil_append] at hmatch hbefore
      rw [hmatch]
      obtain ⟨_, found, after⟩ := hit
      obtain rfl := hbefore
      exact List.mem_cons_self
  | cons c passed ih =>
    have hmatch' : p (passed.reverse ++ c :: before).head? rest = some (hit.found, hit.after) := by
      simpa using hmatch
    have hbefore' : hit.before = passed.reverse ++ c :: before := by simpa using hbefore
    cases skip with
    | succ skip =>
      refine ih hmatch' hbefore' fun u d v huv hlt => ?_
      have := hskip (c :: u) d v (by rw [List.cons_append, huv, List.cons_append])
        (Nat.succ_lt_succ hlt)
      simpa using this
    | zero =>
      rw [List.cons_append, allFrom]
      split
      · next a after hread =>
        -- the spots that are passed over lie inside the match at this one
        refine List.mem_cons_of_mem _ (ih hmatch' hbefore' fun u d v huv hlt => ?_)
        obtain ⟨c', read, hsplit, hno⟩ := hp _ _ _ _ hread
        rw [List.cons_append, List.cons.injEq] at hsplit
        obtain ⟨rfl, hrest⟩ := hsplit
        rw [hrest, List.length_append, Nat.add_sub_cancel] at hlt
        rw [hrest] at huv
        obtain ⟨w, rfl, hw⟩ : ∃ w, read = u ++ w ∧ d :: v = w ++ after := by
          rcases List.append_eq_append_iff.mp huv with ⟨w, hu, -⟩ | ⟨w, hread, hdv⟩
          · rw [hu, List.length_append] at hlt
            omega
          · exact ⟨w, hread, hdv⟩
        cases w with
        | nil => simp at hlt
        | cons e w =>
          obtain ⟨rfl, rfl⟩ := List.cons.inj hw
          exact hno u d w rfl _
      · exact ih hmatch' hbefore' fun u d v _ hlt => absurd hlt (Nat.not_lt_zero _)

/-- A sweep lists every spot where a separate pattern matches, and nothing else. -/
theorem mem_all_iff (hp : p.Separate) {hit : Hit α} :
    hit ∈ p.all t ↔ ∃ rest, t = hit.before.reverse ++ rest ∧
      p hit.before.head? rest = some (hit.found, hit.after) := by
  constructor
  · exact exists_of_mem_all
  · rintro ⟨rest, rfl, hmatch⟩
    refine mem_allFrom_of_separate hp ?_ ?_ fun u d v _ hlt => absurd hlt (Nat.not_lt_zero _)
    · rw [List.reverse_reverse, List.append_nil]
      exact hmatch
    · rw [List.reverse_reverse, List.append_nil]

end SetupCatalog.Pattern
