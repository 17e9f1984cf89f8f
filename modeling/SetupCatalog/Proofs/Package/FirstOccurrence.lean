import SetupCatalog.Proofs.Package.Novelty

/-!
# One package for each first occurrence

Where packages are made from things of some other kind, one from each, and two of them have the same
key exactly if the things count as the same, the packages that come out of a walk are those made
from the first occurrences (`newPackages_map`).
-/

namespace SetupCatalog

/-- To have seen one more key is to leave out the packages that have it. -/
theorem newPackages_of_seen_key {key : Text} {seen both : Seen}
    (h : ∀ k, k ∈ both ↔ k = key ∨ k ∈ seen) (ps : List Package) :
    newPackages both ps = newPackages seen (ps.filter fun p => p.key ≠ key) := by
  induction ps generalizing seen both with
  | nil => rfl
  | cons p ps ih =>
    by_cases hp : p.key = key
    · rw [newPackages_cons_of_mem ((h _).mpr (Or.inl hp)), ih h,
        List.filter_cons_of_neg (by simpa using hp)]
    · rw [List.filter_cons_of_pos (by simpa using hp)]
      by_cases hseen : p.key ∈ seen
      · rw [newPackages_cons_of_mem ((h _).mpr (Or.inr hseen)), newPackages_cons_of_mem hseen, ih h]
      · have hnew : p.key ∉ both := fun hboth => ((h _).mp hboth).elim hp hseen
        have hgrown : ∀ k, k ∈ p.key :: both ↔ k = key ∨ k ∈ p.key :: seen := by
          intro k
          rw [List.mem_cons, List.mem_cons, h k, or_left_comm]
        rw [newPackages_cons_of_not_mem hnew, newPackages_cons_of_not_mem hseen, ih hgrown]

/-- The packages that come out are those of the first occurrences. -/
theorem newPackages_map {α : Type} {package : α → Package} {same : α → α → Bool}
    (h : ∀ x y, same x y = true ↔ (package x).key = (package y).key) (xs : List α) :
    newPackages [] (xs.map package) = (xs.eraseDupsBy same).map package := by
  cases xs with
  | nil => rfl
  | cons x xs =>
    -- what counts as the same as `x` is left out of both, and the rest is shorter
    have hothers : (xs.map package).filter (fun p => p.key ≠ (package x).key) =
        (xs.filter fun y => same y x = false).map package := by
      rw [List.filter_map]
      refine congrArg (List.map package) (List.filter_congr fun y _ => ?_)
      rw [Function.comp_apply, decide_eq_decide, Ne, ← h y x, Bool.not_eq_true]
    have hkey : ∀ k, k ∈ [(package x).key] ↔ k = (package x).key ∨ k ∈ ([] : Seen) := by simp
    rw [List.map_cons, newPackages_cons_of_not_mem List.not_mem_nil, newPackages_of_seen_key hkey,
      hothers, newPackages_map h, List.eraseDupsBy_cons, List.map_cons]
termination_by xs.length
decreasing_by exact Nat.lt_succ_of_le (List.length_filter_le _ xs)

end SetupCatalog
