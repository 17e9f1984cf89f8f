import SetupCatalog.Text.Line

/-!
# Where a line stands

`lines` cuts a text into lines and forgets where they were. Here they are put back: the first line
stands at the start of the text, every other one right after a line break, and each of them runs up
to the next line break or the end of the text (`stands_of_lines_eq_cons`).

What follows for readings that start inside a line: the character before them is the same as in the
text, or the line starts there and the character before it is a line break.
-/

namespace SetupCatalog.Text

/-- A text goes on after a line: with a line break, or not at all. -/
def EndsLine (rest : Text) : Prop :=
  ∀ c, rest.head? = some c → isLineBreak c = true

/-- A line stands at the start of a text. -/
def StandsFirst (line t : Text) : Prop :=
  ∃ rest, t = line ++ rest ∧ EndsLine rest

/-- A line stands in a text right after a line break. -/
def StandsLater (line t : Text) : Prop :=
  ∃ before b rest, t = before ++ b :: (line ++ rest) ∧ isLineBreak b = true ∧ EndsLine rest

/-- A line that stands later still does when the first line grows. -/
theorem StandsLater.cons {line t : Text} (c : Char) (h : StandsLater line t) :
    StandsLater line (c :: t) := by
  obtain ⟨before, b, rest, rfl, hb, hrest⟩ := h
  exact ⟨c :: before, b, rest, rfl, hb, hrest⟩

/-- The first line grows with the text. -/
theorem StandsFirst.cons {line t : Text} (c : Char) (h : StandsFirst line t) :
    StandsFirst (c :: line) (c :: t) := by
  obtain ⟨rest, rfl, hrest⟩ := h
  exact ⟨rest, rfl, hrest⟩

/-- The first line of what follows a break stands later in the whole. -/
theorem StandsFirst.after_break {line t : Text} {b : Char} (hb : isLineBreak b = true)
    (h : StandsFirst line t) : StandsLater line (b :: t) := by
  obtain ⟨rest, rfl, hrest⟩ := h
  exact ⟨[], b, rest, rfl, hb, hrest⟩

/-- An empty line stands before a line break. -/
theorem standsFirst_nil {t : Text} {b : Char} (hb : isLineBreak b = true) :
    StandsFirst [] (b :: t) := by
  refine ⟨b :: t, rfl, ?_⟩
  rintro c ⟨⟩
  exact hb

/-- Only the empty text has no line. -/
theorem eq_nil_of_lines_eq_nil {t : Text} (h : lines t = []) : t = [] := by
  fun_cases lines t with
  | case1 => rfl
  | _ => simp_all [lines]

/-- The lines of a text that does not start with a carriage return and a line feed. -/
theorem lines_cons {c : Char} {t : Text} (h : ∀ u, c = '\r' → t = '\n' :: u → False) :
    lines (c :: t) = if isLineBreak c then [] :: lines t
      else match lines t with
        | [] => [[c]]
        | l :: ls => (c :: l) :: ls :=
  lines.eq_3 c t h

/-- A line and the break after it are the first line of a text. -/
theorem lines_append_break {line : Text} (h : ∀ c ∈ line, isLineBreak c = false) (rest : Text) :
    lines (line ++ '\n' :: rest) = line :: lines rest := by
  induction line with
  | nil =>
    rw [List.nil_append, lines_cons fun u h => absurd h (by decide), if_pos (by decide)]
  | cons c line ih =>
    have hc : isLineBreak c = false := h c List.mem_cons_self
    have hreturn : c ≠ '\r' := by
      rintro rfl
      exact absurd hc (by decide)
    have hline := ih fun d hd => h d (List.mem_cons_of_mem c hd)
    rw [List.cons_append, lines_cons fun u h => absurd h hreturn, hc, if_neg Bool.false_ne_true,
      hline]

/-- The first line stands at the start of the text, and every other one right after a line break. -/
theorem stands_of_lines_eq_cons {t line : Text} {others : List Text}
    (h : lines t = line :: others) :
    StandsFirst line t ∧ ∀ other ∈ others, StandsLater other t := by
  -- behind a line break, all the lines of the rest stand right after a line break
  have behind : ∀ {b : Char} {t : Text}, isLineBreak b = true →
      (∀ {line others}, lines t = line :: others →
        StandsFirst line t ∧ ∀ other ∈ others, StandsLater other t) →
      ∀ other ∈ lines t, StandsLater other (b :: t) := by
    intro b t hb ih other hother
    cases hlines : lines t with
    | nil =>
      rw [hlines] at hother
      cases hother
    | cons first ls =>
      obtain ⟨hfirst, hlater⟩ := ih hlines
      rw [hlines] at hother
      rcases List.mem_cons.mp hother with rfl | hother
      · exact hfirst.after_break hb
      · exact (hlater other hother).cons b
  fun_induction lines t generalizing line others with
  | case1 => cases h
  | case2 t ih =>
    cases h
    refine ⟨standsFirst_nil (by decide), fun other hother => ?_⟩
    exact (behind (b := '\n') (by decide) ih other hother).cons '\r'
  | case3 b t _ hb ih =>
    cases h
    exact ⟨standsFirst_nil hb, behind hb ih⟩
  | case4 c t _ _ hlines _ =>
    cases h
    rw [eq_nil_of_lines_eq_nil hlines]
    exact ⟨⟨[], rfl, fun c hc => by cases hc⟩, fun other hother => by cases hother⟩
  | case5 c t _ _ first ls hlines ih =>
    cases h
    obtain ⟨hfirst, hlater⟩ := ih hlines
    exact ⟨hfirst.cons c, fun other hother => (hlater other hother).cons c⟩

/-- Every line stands somewhere in the text, at its start or right after a line break. -/
theorem stands_of_mem_lines {t line : Text} (h : line ∈ lines t) :
    StandsFirst line t ∨ StandsLater line t := by
  cases hlines : lines t with
  | nil =>
    rw [hlines] at h
    cases h
  | cons first ls =>
    obtain ⟨hfirst, hlater⟩ := stands_of_lines_eq_cons hlines
    rw [hlines] at h
    rcases List.mem_cons.mp h with rfl | h
    · exact Or.inl hfirst
    · exact Or.inr (hlater line h)

end SetupCatalog.Text
