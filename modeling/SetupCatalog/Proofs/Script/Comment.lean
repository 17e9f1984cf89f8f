import SetupCatalog.Proofs.Pattern.Reading
import SetupCatalog.Proofs.Text.Legible
import SetupCatalog.Proofs.Text.LineAround
import SetupCatalog.Script.Line

/-!
# Spots that no comment hides

Whether a line is a comment depends on its first visible character alone, so it is known as soon as
this character has been read. A spot of a text is `Live` if what stands before it on its line does
not start a comment. Reading on keeps a spot live as long as no hash sign is met, and from the first
visible character on even then, up to the end of the line.

`Live.exists_line` is what it is for: something that is found at a live spot stands on a line that
is no comment.
-/

namespace SetupCatalog.Script

open Text

/-! ## Comment lines -/

/-- A line is a comment exactly if its first visible character is a hash sign. -/
theorem isComment_eq (line : Text) : isComment line = ((trimStart line).head? == some '#') := by
  rw [isComment, strip]
  cases hstart : trimStart line with
  | nil => rfl
  | cons c rest =>
    have hc : isBlank c = false := (Pattern.trimStart_eq_cons_iff.mp hstart).1
    -- trimming at the end does not take away the first visible character
    have hprefix := isPrefix_trimEnd isBlank (c :: rest)
    cases hstrip : trimEnd isBlank (c :: rest) with
    | nil =>
      rw [trimEnd, List.reverse_eq_nil_iff, List.dropWhile_eq_nil_iff] at hstrip
      rw [hstrip c (List.mem_reverse.mpr List.mem_cons_self)] at hc
      cases hc
    | cons d more =>
      rw [hstrip] at hprefix
      rw [(List.cons_prefix_cons.mp hprefix).1, List.head?_cons, List.head?_cons]

/-- What comes after a visible character makes no difference. -/
theorem isComment_append {line : Text} (h : ∃ c ∈ line, isBlank c = false) (more : Text) :
    isComment (line ++ more) = isComment line := by
  have hne : trimStart line ≠ [] := by
    obtain ⟨c, hc, hblank⟩ := h
    intro hnil
    have hall := List.dropWhile_eq_nil_iff.mp hnil c hc
    rw [hblank] at hall
    cases hall
  obtain ⟨c, rest, hstart⟩ := List.exists_cons_of_ne_nil hne
  have happend : trimStart (line ++ more) = c :: rest ++ more := by
    rw [trimStart, List.dropWhile_append, ← trimStart, hstart]
    rfl
  rw [isComment_eq, isComment_eq, happend, hstart]
  rfl

/-- Another character than a hash sign starts no comment. -/
theorem isComment_append_singleton {line : Text} {c : Char} (h : isComment line = false)
    (hc : c ≠ '#') : isComment (line ++ [c]) = false := by
  by_cases hvisible : ∃ d ∈ line, isBlank d = false
  · rw [isComment_append hvisible, h]
  · have hblank : ∀ d ∈ line, isBlank d = true := by
      intro d hd
      by_contra hne
      exact hvisible ⟨d, hd, eq_false_of_ne_true hne⟩
    rw [isComment_eq, trimStart, List.dropWhile_append_of_pos hblank]
    cases hlast : isBlank c with
    | true =>
      rw [List.dropWhile_cons_of_pos hlast]
      rfl
    | false =>
      rw [List.dropWhile_cons_of_neg (by simp [hlast]), List.head?_cons]
      simpa using hc

/-! ## Live spots -/

/-- The spot behind a text is live: what stands before it on its line starts no comment. -/
def Live (before : Text) : Prop :=
  isComment (lineUpTo before) = false

/-- A live place stays live over a character that is no hash. -/
theorem Live.append_singleton {before : Text} (h : Live before) {c : Char} (hc : c ≠ '#') :
    Live (before ++ [c]) := by
  rw [Live]
  cases hbreak : isLineBreak c with
  | true =>
    rw [lineUpTo_append_break hbreak]
    rfl
  | false =>
    have happend : lineUpTo (before ++ [c]) = lineUpTo before ++ [c] :=
      lineUpTo_append (List.forall_mem_singleton.mpr hbreak) before
    rw [happend]
    exact isComment_append_singleton h hc

/-- A spot stays live over a text without hash signs. -/
theorem Live.append {before more : Text} (h : Live before) (hmore : '#' ∉ more) :
    Live (before ++ more) := by
  induction more generalizing before with
  | nil => exact (List.append_nil before).symm ▸ h
  | cons c more ih =>
    have hc : c ≠ '#' := fun e => hmore (e ▸ List.mem_cons_self)
    rw [List.append_cons]
    exact ih (h.append_singleton hc) fun hmem => hmore (List.mem_cons_of_mem c hmem)

/-- Behind a visible character there is one on the line. -/
theorem exists_visible_append_singleton {c : Char} (hc : isBlank c = false) (before : Text) :
    ∃ d ∈ lineUpTo (before ++ [c]), isBlank d = false := by
  have hbreak : ∀ d ∈ [c], isLineBreak d = false := by
    intro d hd
    rw [List.mem_singleton.mp hd]
    by_contra hbreak
    rw [isBlank_of_isLineBreak (eq_true_of_ne_false hbreak)] at hc
    cases hc
  rw [lineUpTo_append hbreak]
  exact ⟨c, List.mem_append_right _ (List.mem_singleton_self c), hc⟩

/-- From a visible character on a spot stays live up to the end of the line. -/
theorem Live.append_onLine {before more : Text} (h : Live before)
    (hvisible : ∃ c ∈ lineUpTo before, isBlank c = false)
    (hmore : ∀ c ∈ more, isLineBreak c = false) : Live (before ++ more) := by
  rw [Live, lineUpTo_append hmore, isComment_append hvisible]
  exact h

/-- **What is found at a live spot stands on a line that is no comment.** -/
theorem Live.exists_line {before found : Text} (h : Live (before ++ found))
    (hvisible : ∃ c ∈ found, isBlank c = false) (hfound : ∀ c ∈ found, isLineBreak c = false)
    (after : Text) :
    ∃ line ∈ lines (before ++ found ++ after), isComment line = false ∧ found <:+: line := by
  obtain ⟨c, hc, hblank⟩ := hvisible
  refine ⟨_, mem_lines_around (List.ne_nil_of_mem hc) hfound before after, ?_, ?_⟩
  · rw [isComment_append ⟨c, List.mem_append_right _ hc, hblank⟩, ← lineUpTo_append hfound]
    exact h
  · exact ⟨lineUpTo before, lineFrom after, rfl⟩

end SetupCatalog.Script
