import SetupCatalog.Text.Basic

/-!
# The order of texts

`le` compares texts character by character. It is a total order (`le_trans`, `le_total`), and the
strict order that belongs to it is the lexicographic one of the code points (`precedes_of_le`).
Lists sorted by `le` in which no text occurs twice are therefore strictly increasing.
-/

namespace SetupCatalog.Text

/-- A text comes before another one: at the first spot where they differ its character has the
smaller code point, or it has ended there. -/
def Precedes (t u : Text) : Prop :=
  List.Lex (fun c d : Char => c.toNat < d.toNat) t u

theorem le_cons (c d : Char) (t u : Text) :
    le (c :: t) (d :: u) = if c = d then le t u else decide (c.toNat ≤ d.toNat) := rfl

/-- Characters with one code point are one character. -/
theorem toNat_ne {c d : Char} (h : c ≠ d) : c.toNat ≠ d.toNat := by
  intro heq
  apply h
  rw [← Char.ofNat_toNat c, heq, Char.ofNat_toNat]

/-- The order of texts is transitive. -/
theorem le_trans {t u v : Text} (htu : le t u = true) (huv : le u v = true) : le t v = true := by
  induction t generalizing u v with
  | nil => rfl
  | cons c t ih =>
    cases u with
    | nil => cases htu
    | cons d u =>
      cases v with
      | nil => cases huv
      | cons e v =>
        rw [le_cons] at htu huv ⊢
        -- where the first characters agree, the rest decides; where two of them differ, the outer
        -- ones do
        by_cases hcd : c = d
        · subst hcd
          rw [if_pos rfl] at htu
          by_cases hce : c = e
          · rw [if_pos hce] at huv ⊢
            exact ih htu huv
          · rw [if_neg hce] at huv ⊢
            exact huv
        · rw [if_neg hcd, decide_eq_true_eq] at htu
          have hlt := toNat_ne hcd
          by_cases hde : d = e
          · subst hde
            rw [if_neg hcd, decide_eq_true_eq]
            exact htu
          · rw [if_neg hde, decide_eq_true_eq] at huv
            have hce : c ≠ e := by
              rintro rfl
              omega
            rw [if_neg hce, decide_eq_true_eq]
            omega

/-- Any two texts can be put in order. -/
theorem le_total (t u : Text) : (le t u || le u t) = true := by
  induction t generalizing u with
  | nil => rfl
  | cons c t ih =>
    cases u with
    | nil => rfl
    | cons d u =>
      rw [le_cons, le_cons]
      by_cases hcd : c = d
      · rw [if_pos hcd, if_pos hcd.symm]
        exact ih u
      · rw [if_neg hcd, if_neg (Ne.symm hcd), Bool.or_eq_true, decide_eq_true_eq, decide_eq_true_eq]
        exact Nat.le_total _ _

/-- Of two different texts in order, the first comes before the second. -/
theorem precedes_of_le {t u : Text} (hle : le t u = true) (hne : t ≠ u) : Precedes t u := by
  induction t generalizing u with
  | nil =>
    cases u with
    | nil => exact absurd rfl hne
    | cons d u => exact List.Lex.nil
  | cons c t ih =>
    cases u with
    | nil => cases hle
    | cons d u =>
      rw [le_cons] at hle
      -- the texts differ, so there is a first spot at which they do
      by_cases hcd : c = d
      · subst hcd
        rw [if_pos rfl] at hle
        apply List.Lex.cons
        exact ih hle fun htu => hne (htu ▸ rfl)
      · rw [if_neg hcd, decide_eq_true_eq] at hle
        apply List.Lex.rel
        have := toNat_ne hcd
        omega

/-- Of two texts at most one comes before the other. -/
theorem Precedes.asymm {t u : Text} (htu : Precedes t u) : ¬ Precedes u t := by
  intro hut
  induction t generalizing u with
  | nil => cases hut
  | cons c t ih =>
    cases htu with
    | rel hcd =>
      cases hut with
      | rel hdc => exact Nat.lt_asymm hcd hdc
      | cons _ => exact Nat.lt_irrefl _ hcd
    | cons htu =>
      cases hut with
      | rel hdc => exact Nat.lt_irrefl _ hdc
      | cons hut => exact ih htu hut

end SetupCatalog.Text
