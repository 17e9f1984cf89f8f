import SetupCatalog.Text.Basic

/-!
# Cutting and replacing

`cut` parts a text at the first occurrence of a separator and `cutLast` at the last one.
`replaceAll` puts a text in the place of each occurrence of another, from left to right.
-/

namespace SetupCatalog.Text

/-- The text before the first occurrence of a separator, and the text after it. -/
def cut (sep : Char) (t : Text) : Text × Text :=
  (t.takeWhile fun c => c != sep, (t.dropWhile fun c => c != sep).drop 1)

/-- The text before the last occurrence of a separator, and the text after it. Without a separator
nothing is before it. -/
def cutLast (sep : Char) (t : Text) : Text × Text :=
  let (after, before) := cut sep t.reverse
  (before.reverse, after.reverse)

/-- A text in which each occurrence of `old` is replaced by `new`, once `skip` more characters are
passed over, which belong to an occurrence that is replaced already. -/
def replaceFrom (old new : Text) : (skip : Nat) → Text → Text
  | _, [] => []
  | skip + 1, _ :: t => replaceFrom old new skip t
  | 0, c :: t =>
    if old.isPrefixOf (c :: t) then new ++ replaceFrom old new (old.length - 1) t
    else c :: replaceFrom old new 0 t

/-- A text in which each occurrence of `old`, which is not empty, is replaced by `new`. -/
def replaceAll (old new t : Text) : Text :=
  replaceFrom old new 0 t

/-- The two sides of a separator that occurs make up the text. -/
theorem cut_of_mem {sep : Char} {t : Text} (h : sep ∈ t) :
    (cut sep t).1 ++ sep :: (cut sep t).2 = t := by
  induction t with
  | nil => simp at h
  | cons c t ih =>
    by_cases hc : c = sep
    · simp [cut, hc]
    · have ht : sep ∈ t := by
        rcases List.mem_cons.1 h with h | h
        · exact absurd h.symm hc
        · exact h
      simpa [cut, hc] using ih ht

/-- A text without the separator is not parted. -/
theorem cut_of_not_mem {sep : Char} {t : Text} (h : sep ∉ t) : cut sep t = (t, []) := by
  induction t with
  | nil => rfl
  | cons c t ih =>
    have hc : c ≠ sep := fun e => h (e ▸ List.mem_cons_self)
    have := ih fun ht => h (List.mem_cons_of_mem c ht)
    simp only [cut, Prod.mk.injEq] at this
    simp [cut, hc, this]

end SetupCatalog.Text
