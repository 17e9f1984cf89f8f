import Mathlib.Data.List.Induction
import Mathlib.Data.List.TakeWhile
import SetupCatalog.Proofs.Text.Line

/-!
# The line around a spot

A spot of a text has a line around it: what stands before the spot since the last line break, and
what comes after the spot up to the next one. `mem_lines_around` says that this is one of the lines
of the text, whenever there is something without line breaks at the spot. It is the way back from a
spot, where readings find what they find, to the list of lines.

It rests on what the lines of a text in two parts are (`lines_append_cons_break`). The same gives
what can be taken from the lines of two texts with a line break between them
(`filterMap_lines_append`).
-/

namespace SetupCatalog.Text

/-- What a text has after its last line break. -/
def lineUpTo (before : Text) : Text :=
  (before.reverse.takeWhile fun c => !isLineBreak c).reverse

/-- What a text has before its first line break. -/
def lineFrom (after : Text) : Text :=
  after.takeWhile fun c => !isLineBreak c

/-! ## The part before the spot -/

/-- The line up to a place has no line break. -/
theorem isLineBreak_eq_false_of_mem_lineUpTo {before : Text} {c : Char}
    (h : c ∈ lineUpTo before) : isLineBreak c = false := by
  rw [lineUpTo, List.mem_reverse] at h
  simpa using List.mem_takeWhile_imp h

/-- What comes without line breaks goes on with the line. -/
theorem lineUpTo_append {more : Text} (h : ∀ c ∈ more, isLineBreak c = false) (before : Text) :
    lineUpTo (before ++ more) = lineUpTo before ++ more := by
  have hmore : ∀ c ∈ more.reverse, (!isLineBreak c) = true := by
    intro c hc
    rw [h c (List.mem_reverse.mp hc), Bool.not_false]
  rw [lineUpTo, List.reverse_append, List.takeWhile_append_of_pos hmore, List.reverse_append,
    List.reverse_reverse, lineUpTo]

/-- A line break starts the line anew. -/
theorem lineUpTo_append_break {b : Char} (hb : isLineBreak b = true) (before : Text) :
    lineUpTo (before ++ [b]) = [] := by
  rw [lineUpTo, List.reverse_append, List.reverse_singleton, List.singleton_append,
    List.takeWhile_cons_of_neg (by simp [hb]), List.reverse_nil]

/-- The line up to a spot is the whole text before it, or a line break stands before the line. -/
theorem eq_lineUpTo_or (before : Text) :
    before = lineUpTo before ∨
      ∃ passed b, isLineBreak b = true ∧ before = passed ++ b :: lineUpTo before := by
  induction before using List.reverseRecOn with
  | nil => exact Or.inl rfl
  | append_singleton before c ih =>
    cases hc : isLineBreak c with
    | true =>
      rw [lineUpTo_append_break hc]
      exact Or.inr ⟨before, c, hc, rfl⟩
    | false =>
      have happend : lineUpTo (before ++ [c]) = lineUpTo before ++ [c] :=
        lineUpTo_append (List.forall_mem_singleton.mpr hc) before
      rw [happend]
      rcases ih with ih | ⟨passed, b, hb, ih⟩
      · exact Or.inl (by rw [← ih])
      · refine Or.inr ⟨passed, b, hb, ?_⟩
        rw [← List.cons_append, ← List.append_assoc, ← ih]

/-! ## Lines of a text in parts -/

/-- The first line of a text goes up to the first line break. -/
theorem exists_lines_eq_lineFrom {t : Text} (h : t ≠ []) :
    ∃ others, lines t = lineFrom t :: others := by
  -- the first line is empty at a break and else goes up to the next one
  fun_induction lines t with
  | case1 => exact absurd rfl h
  | case2 t ih => exact ⟨lines t, rfl⟩
  | case3 b t _ hb ih =>
    refine ⟨lines t, ?_⟩
    rw [lineFrom, List.takeWhile_cons_of_neg (by simp [hb])]
  | case4 c t _ hc hlines _ =>
    refine ⟨[], ?_⟩
    rw [eq_nil_of_lines_eq_nil hlines, lineFrom, List.takeWhile_cons_of_pos (by simpa using hc),
      List.takeWhile_nil]
  | case5 c t _ hc first ls hlines ih =>
    refine ⟨ls, ?_⟩
    have hne : t ≠ [] := by
      rintro rfl
      cases hlines
    obtain ⟨others, hfirst⟩ := ih hne
    rw [hlines] at hfirst
    obtain ⟨rfl, rfl⟩ := List.cons.inj hfirst
    have hfrom : lineFrom (c :: t) = c :: lineFrom t :=
      List.takeWhile_cons_of_pos (by simpa using hc)
    rw [hfrom]

/-- A text is empty, or it starts with a character of a line, with a carriage return and a line
feed, or with another line break. -/
theorem lines_induction {P : Text → Prop} (nil : P [])
    (letter : ∀ c t, isLineBreak c = false → P t → P (c :: t))
    (pair : ∀ t, P t → P ('\r' :: '\n' :: t))
    (lineBreak : ∀ c t, isLineBreak c = true → (c = '\r' → t.head? ≠ some '\n') → P t → P (c :: t))
    (t : Text) : P t := by
  induction t using lines.induct with
  | case1 => exact nil
  | case2 t ih => exact pair t ih
  | case3 c t hpair hc ih =>
    refine lineBreak c t hc (fun hreturn hhead => ?_) ih
    obtain ⟨u, rfl⟩ := List.head?_eq_some_iff.mp hhead
    exact hpair u hreturn rfl
  | case4 c t _ hc _ ih => exact letter c t (by simpa using hc) ih
  | case5 c t _ hc _ _ _ ih => exact letter c t (by simpa using hc) ih

/-- A break at the start is an empty line, unless it is the first half of a pair. -/
theorem lines_cons_break {b : Char} (hb : isLineBreak b = true) {t : Text}
    (ht : b = '\r' → t.head? ≠ some '\n') : lines (b :: t) = [] :: lines t := by
  rw [lines_cons fun u hreturn hfeed => ht hreturn (by rw [hfeed, List.head?_cons]), if_pos hb]

/-- A character of a line goes to the first line of the rest. -/
theorem lines_cons_letter {c : Char} (hc : isLineBreak c = false) (t : Text) :
    lines (c :: t) = (c :: (lines t).headD []) :: (lines t).tail := by
  have hreturn : c ≠ '\r' := by
    rintro rfl
    exact absurd hc (by decide)
  rw [lines_cons fun u h => absurd h hreturn, hc, if_neg Bool.false_ne_true]
  cases lines t <;> rfl

/-- A text without line breaks is one line, unless it is empty. -/
theorem lines_of_line {line : Text} (hline : ∀ c ∈ line, isLineBreak c = false)
    (hne : line ≠ []) : lines line = [line] := by
  induction line with
  | nil => exact absurd rfl hne
  | cons c line ih =>
    obtain ⟨hc, hrest⟩ := List.forall_mem_cons.mp hline
    rw [lines_cons_letter hc]
    cases line with
    | nil => rfl
    | cons d line => rw [ih hrest (List.cons_ne_nil d line)]; rfl

/-- A line break stays one where a break follows, now or later, unless the two are a carriage return
and a line feed. -/
theorem lines_break_append {c : Char} (hc : isLineBreak c = true) {u : Text}
    (hpair : c = '\r' → u.head? ≠ some '\n') (b : Char) :
    (u = [] ∧ c = '\r' ∧ b = '\n') ∨
      ∀ t, lines (c :: (u ++ b :: t)) = [] :: lines (u ++ b :: t) := by
  cases u with
  | cons d u => exact Or.inr fun t => lines_cons_break hc hpair
  | nil =>
    by_cases hboth : c = '\r' ∧ b = '\n'
    · exact Or.inl ⟨rfl, hboth⟩
    · refine Or.inr fun t => lines_cons_break hc ?_
      rintro hreturn ⟨⟩
      exact hboth ⟨hreturn, rfl⟩

/-- Behind a line break the lines are those of what comes after it, unless the break is the first
half of a carriage return and a line feed. -/
theorem lines_append_cons_break {b : Char} (hb : isLineBreak b = true) {t : Text}
    (ht : b = '\r' → t.head? ≠ some '\n') (passed : Text) :
    lines (passed ++ b :: t) = lines (passed ++ [b]) ++ lines t := by
  induction passed using lines_induction with
  | nil =>
    have hsingle : lines [b] = [[]] := lines_cons_break hb fun _ => by simp
    rw [List.nil_append, List.nil_append, lines_cons_break hb ht, hsingle]
    rfl
  | letter c u hc ih =>
    rw [List.cons_append, List.cons_append, lines_cons_letter hc, lines_cons_letter hc, ih]
    cases hlines : lines (u ++ [b]) with
    | nil => exact absurd (eq_nil_of_lines_eq_nil hlines) (by simp)
    | cons first others => rfl
  | pair u ih => exact congrArg (List.cons []) ih
  | lineBreak c u hc hpair ih =>
    rcases lines_break_append hc hpair b with ⟨rfl, rfl, rfl⟩ | hstays
    · rfl
    · rw [List.cons_append, List.cons_append, hstays, hstays]
      exact congrArg (List.cons []) ih

/-- A line break at the end adds no line, or an empty one. -/
theorem lines_concat_break {b : Char} (hb : isLineBreak b = true) (t : Text) :
    lines (t ++ [b]) = lines t ∨ lines (t ++ [b]) = lines t ++ [[]] := by
  induction t using lines_induction with
  | nil => exact Or.inr (lines_cons_break hb fun _ => by simp)
  | letter c t hc ih =>
    rw [List.cons_append, lines_cons_letter hc, lines_cons_letter hc]
    rcases ih with ih | ih
    · exact Or.inl (by rw [ih])
    · rw [ih]
      cases lines t with
      | nil => exact Or.inl rfl
      | cons first others => exact Or.inr rfl
  | pair t ih => exact ih.imp (congrArg (List.cons [])) (congrArg (List.cons []))
  | lineBreak c t hc hpair ih =>
    rcases lines_break_append hc hpair b with ⟨rfl, rfl, rfl⟩ | hstays
    · exact Or.inl rfl
    · rw [List.cons_append, hstays, lines_cons_break hc hpair]
      exact ih.imp (congrArg (List.cons [])) (congrArg (List.cons []))

/-- What is taken from the lines of two texts with a line break between them is what is taken from
the one and then from the other, if nothing is taken from an empty line. -/
theorem filterMap_lines_append {α : Type} {f : Text → Option α} (hf : f [] = none) {b : Char}
    (hb : isLineBreak b = true) (t u : Text) :
    (lines (t ++ b :: u)).filterMap f = (lines t).filterMap f ++ (lines u).filterMap f := by
  have hconcat : ∀ {c : Char}, isLineBreak c = true → ∀ t,
      (lines (t ++ [c])).filterMap f = (lines t).filterMap f := by
    intro c hc t
    rcases lines_concat_break hc t with h | h
    · rw [h]
    · rw [h, List.filterMap_append, List.filterMap_cons_none hf, List.filterMap_nil,
        List.append_nil]
  by_cases hpair : b = '\r' ∧ u.head? = some '\n'
  · -- the break goes on with the line feed, and there is an empty line less
    obtain ⟨rfl, hhead⟩ := hpair
    obtain ⟨u, rfl⟩ := List.head?_eq_some_iff.mp hhead
    have hsplit : t ++ '\r' :: '\n' :: u = (t ++ ['\r']) ++ '\n' :: u := by simp
    rw [hsplit, lines_append_cons_break (by decide) (by simp), List.filterMap_append,
      hconcat (by decide), hconcat (by decide), lines_cons_break (by decide) (by simp),
      List.filterMap_cons_none hf]
  · rw [lines_append_cons_break hb fun hreturn hhead => hpair ⟨hreturn, hhead⟩,
      List.filterMap_append, hconcat hb]

/-- **The line around a spot is a line of the text.** -/
theorem mem_lines_around {found : Text} (hne : found ≠ [])
    (hfound : ∀ c ∈ found, isLineBreak c = false) (before after : Text) :
    lineUpTo before ++ found ++ lineFrom after ∈ lines (before ++ found ++ after) := by
  have hinside : ∀ c ∈ lineUpTo before ++ found, isLineBreak c = false := by
    intro c hc
    rcases List.mem_append.mp hc with hc | hc
    · exact isLineBreak_eq_false_of_mem_lineUpTo hc
    · exact hfound c hc
  obtain ⟨c, line, hcons⟩ := List.exists_cons_of_ne_nil
    (List.append_ne_nil_of_right_ne_nil (lineUpTo before) hne)
  have hstart : lineUpTo before ++ found ++ after ≠ [] := by simp [hne]
  -- the line is the first one of the text from its start on
  have hfirst : lineFrom (lineUpTo before ++ found ++ after) =
      lineUpTo before ++ found ++ lineFrom after := by
    rw [lineFrom, List.takeWhile_append_of_pos (by simpa using hinside), lineFrom]
  obtain ⟨others, hlines⟩ := exists_lines_eq_lineFrom hstart
  rw [hfirst] at hlines
  have hmem : lineUpTo before ++ found ++ lineFrom after ∈
      lines (lineUpTo before ++ found ++ after) := hlines ▸ List.mem_cons_self
  rcases eq_lineUpTo_or before with heq | ⟨passed, b, hb, heq⟩
  · rw [← heq] at hmem ⊢
    exact hmem
  · have hnotBreak : (lineUpTo before ++ found ++ after).head? ≠ some '\n' := by
      have hc : isLineBreak c = false := hinside c (hcons ▸ List.mem_cons_self)
      rw [hcons]
      rintro ⟨⟩
      exact absurd hc (by decide)
    have hsplit := lines_append_cons_break hb (fun _ => hnotBreak) passed
    have htext : before ++ found ++ after = passed ++ b :: (lineUpTo before ++ found ++ after) := by
      conv_lhs => rw [heq]
      simp
    rw [htext, hsplit]
    exact List.mem_append_right _ hmem

end SetupCatalog.Text
