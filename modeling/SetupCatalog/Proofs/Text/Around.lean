import SetupCatalog.Text.Basic

/-!
# Windows around a spot

The rules look through windows that are given by a spot of the text and by how far they reach to
both sides of it. Only the left bound of such a window is kept from falling below zero. A right
bound below zero counts from the end of the text, as it does in every window, so the window need not
be empty then: it can go on up to nearly the end of the text.

`around_within_iff` says exactly which windows stay within their distances.
-/

namespace SetupCatalog.Text

/-- The window that reaches as far to the left and to the right of a spot as the distances say. -/
def around (t : Text) (spot : Nat) (left right : Int) : Text :=
  window t (max 0 (spot - left)) (spot + right)

/-- A part of a text stands within the given distances of a spot, if it holds anything. -/
def Within (part t : Text) (spot : Nat) (left right : Int) : Prop :=
  part = [] ∨ ∃ before after, t = before ++ part ++ after ∧
    spot - left ≤ before.length ∧ before.length + part.length ≤ spot + right

section

variable {t : Text} {spot : Nat} {left right : Int}

/-- The window around a place, as two cuts of the text. -/
theorem around_eq_drop : around t spot left right =
    (t.take (bound t.length (spot + right))).drop (spot - left).toNat := by
  have hfirst : bound t.length (max 0 (spot - left)) = min (spot - left).toNat t.length := by
    rw [bound, if_neg (by omega)]
    omega
  -- what is taken is not longer than the text, so the left bound need not be cut off
  rw [around, window, hfirst, List.drop_eq_drop_iff, List.length_take]
  omega

/-- A window whose right bound is not below zero is what lies between its bounds. -/
theorem around_of_nonneg (h : 0 ≤ spot + right) :
    around t spot left right = (t.take (spot + right).toNat).drop (spot - left).toNat := by
  rw [around_eq_drop, bound, if_neg (by omega), ← List.take_eq_take_min]

/-- A right bound below zero counts from the end of the text. -/
theorem around_of_neg (h : spot + right < 0) :
    around t spot left right =
      (t.take (spot + right + t.length).toNat).drop (spot - left).toNat := by
  rw [around_eq_drop, bound, if_pos h]

example : around "abcdef".toList 1 0 (-2) = "bcde".toList := by decide

/-- A window whose right bound is not below zero holds nothing if the right bound is not behind the
left one. -/
theorem around_eq_nil (hright : 0 ≤ spot + right) (hreach : left + right ≤ 0) :
    around t spot left right = [] := by
  rw [around_of_nonneg hright]
  refine List.drop_eq_nil_of_le ?_
  rw [List.length_take]
  omega

/-- What lies between two bounds stands within the distances that the bounds keep. -/
theorem within_drop_take {first last : Nat} (hfirst : spot - left ≤ first)
    (hlast : last ≤ spot + right) : Within ((t.take last).drop first) t spot left right := by
  rcases Nat.lt_or_ge first (t.take last).length with hlt | hge
  · right
    refine ⟨t.take first, t.drop last, ?_, ?_, ?_⟩
    · have hle : first ≤ last := by
        rw [List.length_take] at hlt
        omega
      have hbefore : (t.take last).take first = t.take first := by
        rw [List.take_take, Nat.min_eq_left hle]
      rw [← hbefore, List.take_append_drop, List.take_append_drop]
    all_goals
      rw [List.length_take] at hlt
      simp only [List.length_take, List.length_drop]
      omega
  · exact .inl (List.drop_eq_nil_of_le hge)

/-- A window stays within its distances, where one below zero counts as zero, if and only if its
right bound is not below zero or, as it counts from the end of the text then, does not get behind
both the spot and the left bound. -/
theorem around_within_iff :
    Within (around t spot left right) t spot (max 0 left) (max 0 right) ↔
      0 ≤ spot + right ∨ t.length + right ≤ max 0 (-left) := by
  by_cases hright : 0 ≤ spot + right
  · rw [around_of_nonneg hright]
    exact iff_of_true (within_drop_take (by omega) (by omega)) (.inl hright)
  · rw [around_of_neg (by omega)]
    constructor
    · intro h
      have hlength : ((t.take (spot + right + t.length).toNat).drop (spot - left).toNat).length =
          (spot + right + t.length).toNat - (spot - left).toNat := by
        rw [List.length_drop, List.length_take]
        omega
      right
      rcases h with hnil | ⟨before, after, -, hfirst, hlast⟩
      · rw [hnil, List.length_nil] at hlength
        omega
      -- the window is longer than the room that the distances leave for it
      · rw [hlength] at hlast
        omega
    · rintro (h | h)
      · exact absurd h hright
      · rcases Int.le_total 0 left with hleft | hleft
        · exact within_drop_take (by omega) (by omega)
        · refine .inl (List.drop_eq_nil_of_le ?_)
          rw [List.length_take]
          omega

end

end SetupCatalog.Text
