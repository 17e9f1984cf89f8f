import SetupCatalog.Text.Basic

/-!
# Pieces put together

A text that is put together from pieces without the separator falls into these pieces again. The
pieces after the first are written with the separator in front of each, which is the form that a
grammar of the shape "one part, and then any number of parts after a separator" has; or each piece
is written with the separator after it, as lines are.
-/

namespace SetupCatalog.Text

/-- A text is taken up to the first of the characters that it is cut at. -/
theorem takeWhile_bne_append {sep : Char} {t : Text} (h : sep ∉ t) (more : Text) :
    (t ++ sep :: more).takeWhile (fun c => c != sep) = t := by
  have hchars : ∀ c ∈ t, (c != sep) = true := fun c hc => bne_iff_ne.mpr fun e => h (e ▸ hc)
  rw [List.takeWhile_append_of_pos hchars, List.takeWhile_cons_of_neg (by simp), List.append_nil]

/-- The text from the first separator on. -/
theorem dropWhile_bne_append {sep : Char} {t : Text} (h : sep ∉ t) (more : Text) :
    (t ++ sep :: more).dropWhile (fun c => c != sep) = sep :: more := by
  have hchars : ∀ c ∈ t, (c != sep) = true := fun c hc => bne_iff_ne.mpr fun e => h (e ▸ hc)
  rw [List.dropWhile_append_of_pos hchars, List.dropWhile_cons_of_neg (by simp)]

/-- A text without the separator is one piece. -/
theorem pieces_of_not_mem {sep : Char} {p : Text} (h : sep ∉ p) : pieces sep p = [p] := by
  induction p with
  | nil => rfl
  | cons c p ih =>
    have hc : c ≠ sep := fun e => h (e ▸ List.mem_cons_self)
    have hp : sep ∉ p := fun hmem => h (List.mem_cons_of_mem c hmem)
    rw [pieces, if_neg hc, ih hp]

/-- Two texts with the separator between them fall into the pieces of the one and of the other. -/
theorem pieces_append_cons (sep : Char) (t u : Text) :
    pieces sep (t ++ sep :: u) = pieces sep t ++ pieces sep u := by
  induction t with
  | nil => rw [List.nil_append, pieces, pieces, if_pos rfl, List.singleton_append]
  | cons c t ih =>
    rw [List.cons_append, pieces, pieces, ih]
    split
    · rfl
    · cases ht : pieces sep t with
      | nil => exact absurd ht (pieces_ne_nil sep t)
      | cons p ps => rfl

/-- What comes before the first separator is the first piece. -/
theorem pieces_append_sep {sep : Char} {p : Text} (h : sep ∉ p) (t : Text) :
    pieces sep (p ++ sep :: t) = p :: pieces sep t := by
  rw [pieces_append_cons, pieces_of_not_mem h, List.singleton_append]

/-- Pieces without the separator come back from the text that they make up. -/
theorem pieces_append_flatMap {sep : Char} {p : Text} {ps : List Text} (hp : sep ∉ p)
    (hps : ∀ q ∈ ps, sep ∉ q) : pieces sep (p ++ ps.flatMap fun q => sep :: q) = p :: ps := by
  induction ps generalizing p with
  | nil => rw [List.flatMap_nil, List.append_nil, pieces_of_not_mem hp]
  | cons q ps ih =>
    have hq : sep ∉ q := hps q List.mem_cons_self
    have hrest : ∀ r ∈ ps, sep ∉ r := fun r hr => hps r (List.mem_cons_of_mem q hr)
    rw [List.flatMap_cons, List.cons_append, pieces_append_sep hp, ih hq hrest]

/-- Pieces that each have the separator after them come back, and nothing comes after the last
separator. -/
theorem pieces_flatMap_sep {sep : Char} {ps : List Text} (hps : ∀ p ∈ ps, sep ∉ p) :
    pieces sep (ps.flatMap fun p => p ++ [sep]) = ps ++ [[]] := by
  induction ps with
  | nil => rfl
  | cons p ps ih =>
    have hp : sep ∉ p := hps p List.mem_cons_self
    have hrest : ∀ q ∈ ps, sep ∉ q := fun q hq => hps q (List.mem_cons_of_mem p hq)
    rw [List.flatMap_cons, List.append_assoc, List.singleton_append, pieces_append_sep hp, ih hrest,
      List.cons_append]

/-- Joining is putting the separator in front of every text but the first. -/
theorem joined_cons (sep p : Text) (ps : List Text) :
    joined sep (p :: ps) = p ++ ps.flatMap fun q => sep ++ q := by
  induction ps generalizing p with
  | nil => rw [joined, List.flatMap_nil, List.append_nil]
  | cons q ps ih => rw [joined, ih, List.flatMap_cons, List.append_assoc, List.append_assoc]

/-- Joined texts fall into the pieces of each of them. -/
theorem pieces_joined_cons (sep : Char) (t : Text) (ts : List Text) :
    pieces sep (joined [sep] (t :: ts)) = (t :: ts).flatMap (pieces sep) := by
  induction ts generalizing t with
  | nil => rw [joined, List.flatMap_singleton]
  | cons u ts ih =>
    rw [joined, List.append_assoc, List.singleton_append, pieces_append_cons, ih]
    exact List.flatMap_cons.symm

/-- Every character of a joined text stands in one of its parts or in the separator. -/
theorem mem_of_mem_joined {sep : Text} {ps : List Text} {c : Char}
    (h : c ∈ joined sep ps) : c ∈ sep ∨ ∃ p ∈ ps, c ∈ p := by
  fun_induction joined sep ps with
  | case1 => cases h
  | case2 p => exact Or.inr ⟨p, List.mem_singleton_self p, h⟩
  | case3 p q ps ih =>
    rcases List.mem_append.mp h with h | h
    · rcases List.mem_append.mp h with h | h
      · exact Or.inr ⟨p, List.mem_cons_self, h⟩
      · exact Or.inl h
    · rcases ih h with h | ⟨r, hr, h⟩
      · exact Or.inl h
      · exact Or.inr ⟨r, List.mem_cons_of_mem p hr, h⟩

end SetupCatalog.Text
