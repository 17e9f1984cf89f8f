/-!
# Ranges of code points

A character property is kept as the list of its code point ranges, both ends included.
-/

namespace SetupCatalog.Text

/-- Whether a code point lies in one of the ranges. -/
def inRanges (ranges : List (Nat × Nat)) (n : Nat) : Bool :=
  ranges.any fun r => r.1 ≤ n && n ≤ r.2

theorem inRanges_iff {ranges : List (Nat × Nat)} {n : Nat} :
    inRanges ranges n = true ↔ ∃ r ∈ ranges, r.1 ≤ n ∧ n ≤ r.2 := by
  simp [inRanges]

/-- Whether no range of the first list meets a range of the second. -/
def rangesDisjoint (first second : List (Nat × Nat)) : Bool :=
  first.all fun r => second.all fun s => r.2 < s.1 || s.2 < r.1

/-- Disjoint lists of ranges have no code point in common. -/
theorem not_inRanges_of_disjoint {first second : List (Nat × Nat)} {n : Nat}
    (h : rangesDisjoint first second = true) (hn : inRanges first n = true) :
    inRanges second n = false := by
  obtain ⟨r, hr, hlo, hhi⟩ := inRanges_iff.1 hn
  rw [Bool.eq_false_iff]
  intro hs
  obtain ⟨s, hs, hslo, hshi⟩ := inRanges_iff.1 hs
  simp only [rangesDisjoint, List.all_eq_true, Bool.or_eq_true, decide_eq_true_eq] at h
  have := h r hr s hs
  omega

end SetupCatalog.Text
