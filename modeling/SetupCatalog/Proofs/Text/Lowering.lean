import SetupCatalog.Proofs.Text.Piece
import SetupCatalog.Proofs.Text.Uncased

/-!
# Symbols in a lowered text

Lowering is no map of characters: one capital letter becomes two characters, and the small form of
a capital sigma depends on the text around it. The characters of ASCII that are no letters stay
where they are, though. They are in the lowered text exactly if they are in the text
(`mem_lower_iff`), and what stands before one of them in the text stands before it in the lowered
text (`exists_lower_eq_append`).
-/

namespace SetupCatalog.Text

/-- Only a symbol of ASCII is lowered to it. -/
theorem lowerChar_eq_iff {c s : Char} (hs : s.toNat < 128) (hletter : s.isAlpha = false) :
    lowerChar c = s ↔ c = s := by
  by_cases hc : c.toNat < 128
  · rw [lowerChar, if_pos hc]
    exact toLower_eq_iff hletter
  · constructor
    · rintro rfl
      rcases lowerChar_of_not_ascii hc with hlarge | hi | hk
      · omega
      · rw [hi] at hletter
        cases hletter
      · rw [hk] at hletter
        cases hletter
    · rintro rfl
      exact absurd hs hc

/-- No symbol of ASCII is a variant of a letter. -/
theorem letterVariants_isAlpha :
    letterVariants.all (fun g => g.all fun n => 128 ≤ n || (Char.ofNat n).isAlpha) = true := by
  decide

/-- Only a symbol of ASCII is the same letter as itself. -/
theorem sameLetter_eq_true_iff {c s : Char} (hs : s.toNat < 128) (hletter : s.isAlpha = false) :
    sameLetter c s = true ↔ c = s := by
  have hlow : lowerChar s = s := (lowerChar_eq_iff hs hletter).mpr rfl
  rw [sameLetter, hlow, Bool.or_eq_true, beq_iff_eq, lowerChar_eq_iff hs hletter, or_iff_left]
  rw [List.any_eq_true]
  rintro ⟨g, hg, hboth⟩
  rw [Bool.and_eq_true, List.contains_iff_mem, List.contains_iff_mem] at hboth
  have hvariant := List.all_eq_true.mp (List.all_eq_true.mp letterVariants_isAlpha g hg) _ hboth.2
  rw [Char.ofNat_toNat, hletter, Bool.or_false, decide_eq_true_eq] at hvariant
  omega

/-- The lowered text of two texts in a row is in two parts, and the first one has the symbols of the
first text. -/
theorem exists_lowerFrom_append (before t more : Text) :
    ∃ low, lowerFrom before (t ++ more) = low ++ lowerFrom (t.reverse ++ before) more ∧
      ∀ s : Char, s.toNat < 128 → s.isAlpha = false → (s ∈ low ↔ s ∈ t) := by
  induction t generalizing before with
  | nil => exact ⟨[], rfl, fun s _ _ => Iff.rfl⟩
  | cons c t ih =>
    obtain ⟨low, hlow, hmem⟩ := ih (c :: before)
    rw [List.cons_append, lowerFrom, hlow, ← List.append_assoc, List.reverse_cons,
      List.append_assoc t.reverse, List.singleton_append]
    refine ⟨_, rfl, fun s hs hletter => ?_⟩
    rw [List.mem_append, hmem s hs hletter, List.mem_cons]
    refine or_congr_left ?_
    split
    · next hsigma =>
      -- neither form of sigma is a character of ASCII
      subst hsigma
      refine iff_of_false ?_ ?_
      · split <;> (rw [List.mem_singleton]; rintro rfl; exact absurd hs (by decide))
      · rintro rfl
        exact absurd hs (by decide)
    · split
      · next hdotted =>
        subst hdotted
        refine iff_of_false ?_ ?_
        · simp only [List.mem_cons, List.not_mem_nil, or_false, not_or]
          constructor
          · rintro rfl
            cases hletter
          · rintro rfl
            exact absurd hs (by decide)
        · rintro rfl
          exact absurd hs (by decide)
      · rw [List.mem_singleton, eq_comm, lowerChar_eq_iff hs hletter, eq_comm]

section

variable {s : Char} (hs : s.toNat < 128) (hletter : s.isAlpha = false)

include hs hletter

/-- Lowering neither adds nor removes a symbol. -/
theorem mem_lower_iff (t : Text) : s ∈ lower t ↔ s ∈ t := by
  obtain ⟨low, hlow, hmem⟩ := exists_lowerFrom_append [] t []
  rw [List.append_nil, show lowerFrom (t.reverse ++ []) [] = [] from rfl, List.append_nil] at hlow
  rw [lower, hlow]
  exact hmem s hs hletter

/-- What stands before a symbol is lowered to what stands before it in the lowered text. -/
theorem exists_lower_eq_append (t more : Text) :
    ∃ low rest, lower (t ++ s :: more) = low ++ s :: rest ∧
      ∀ r : Char, r.toNat < 128 → r.isAlpha = false → (r ∈ low ↔ r ∈ t) := by
  obtain ⟨low, hlow, hmem⟩ := exists_lowerFrom_append [] t (s :: more)
  have hsigma : s ≠ 'Σ' := by
    rintro rfl
    exact absurd hs (by decide)
  have hdotted : s ≠ 'İ' := by
    rintro rfl
    exact absurd hs (by decide)
  rw [lowerFrom, if_neg hsigma, if_neg hdotted, (lowerChar_eq_iff hs hletter).mpr rfl] at hlow
  exact ⟨low, _, hlow, hmem⟩

/-- What a text has before the first of a symbol has the same other symbols in the lowered text. -/
theorem mem_takeWhile_lower_iff {t : Text} (ht : s ∉ t) (more : Text) {r : Char}
    (hr : r.toNat < 128) (hrLetter : r.isAlpha = false) :
    r ∈ (lower (t ++ s :: more)).takeWhile (fun c => c != s) ↔ r ∈ t := by
  obtain ⟨low, rest, hlower, hmem⟩ := exists_lower_eq_append hs hletter t more
  have hlow : s ∉ low := fun h => ht ((hmem s hs hletter).mp h)
  rw [hlower, takeWhile_bne_append hlow]
  exact hmem r hr hrLetter

/-- A lowered text starts with a symbol exactly if the text does. -/
theorem head?_lower_eq_iff (t : Text) : (lower t).head? = some s ↔ t.head? = some s := by
  cases t with
  | nil => rfl
  | cons c t =>
    rw [lower, lowerFrom, List.head?_cons, Option.some_inj]
    -- the two characters whose lowering is special are not among those asked about
    split
    · next hsigma =>
      refine iff_of_false ?_ ?_
      · split <;> (rw [List.singleton_append, List.head?_cons, Option.some_inj]; rintro rfl;
                   exact absurd hs (by decide))
      · rintro rfl
        rw [hsigma] at hs
        exact absurd hs (by decide)
    · split
      · next hdotted =>
        refine iff_of_false ?_ ?_
        · rw [List.cons_append, List.head?_cons, Option.some_inj]
          rintro rfl
          cases hletter
        · rintro rfl
          rw [hdotted] at hs
          exact absurd hs (by decide)
      · rw [List.singleton_append, List.head?_cons, Option.some_inj]
        exact lowerChar_eq_iff hs hletter

end

/-- Lowering leaves the blanks of a text alone. -/
theorem mem_lowerFrom_of_isBlank {b : Char} (hb : isBlank b = true) {before t : Text}
    (h : b ∈ t) : b ∈ lowerFrom before t := by
  induction t generalizing before with
  | nil => cases h
  | cons c t ih =>
    rw [lowerFrom, List.mem_append]
    rcases List.mem_cons.mp h with rfl | h
    · left
      rw [if_neg, if_neg, lowerChar_of_isBlank hb, List.mem_singleton]
      · rintro rfl
        cases hb
      · rintro rfl
        cases hb
    · exact Or.inr (ih h)

end SetupCatalog.Text
