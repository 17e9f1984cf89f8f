import SetupCatalog.Text.Line
import SetupCatalog.Text.Word

/-!
# Legible texts

A text is legible if something on it can be seen and it stays on one line: what the name and the
identity of a package have to be for any report. Two arguments make a text legible. Either none of
its characters is blank, or it is what trimming has left of a text on one line; trimming at the end
may take away more than blanks, as long as it starts from a text that was trimmed at the start.
-/

namespace SetupCatalog.Text

/-- A text stays on one line: it has no line end in the narrow sense. -/
def OneLine (t : Text) : Prop :=
  ∀ c ∈ t, isLineEnd c = false

/-- A class holds of no character exactly if it fails of each. -/
theorem any_eq_false_iff {p : Char → Bool} {t : Text} :
    t.any p = false ↔ ∀ c ∈ t, p c = false := by
  rw [List.any_eq_false]
  exact forall₂_congr fun c _ => iff_of_eq (Bool.not_eq_true (p c))

/-- A character outside of a class is not in a text of the class. -/
theorem not_mem_of_all {p : Char → Bool} {t : Text} {c : Char} (h : t.all p = true)
    (hc : p c = false) : c ∉ t := by
  intro hmem
  rw [List.all_eq_true.mp h c hmem] at hc
  cases hc

instance (t : Text) : Decidable t.OneLine :=
  decidable_of_iff (t.any isLineEnd = false) any_eq_false_iff

/-- Something on the text can be seen, and it stays on one line. -/
structure Legible (t : Text) : Prop where
  visible : ∃ c ∈ t, isBlank c = false
  oneLine : t.OneLine

/-- The test that the patterns make is legibility. -/
theorem legible_iff {t : Text} :
    ((t.any fun c => !isBlank c) && t.all fun c => !isLineEnd c) = true ↔ t.Legible := by
  simp only [Bool.and_eq_true, List.any_eq_true, List.all_eq_true, Bool.not_eq_true']
  exact ⟨fun h => ⟨h.1, h.2⟩, fun h => ⟨h.visible, h.oneLine⟩⟩

instance (t : Text) : Decidable t.Legible :=
  decidable_of_iff _ legible_iff

/-! ## Putting texts together -/

/-- The empty text stands on one line. -/
theorem oneLine_nil : OneLine [] := by
  intro c hc
  cases hc

/-- A character that ends no line may be put in front of a line. -/
theorem OneLine.cons {c : Char} {t : Text} (hc : isLineEnd c = false) (ht : t.OneLine) :
    OneLine (c :: t) := by
  intro d hd
  rcases List.mem_cons.mp hd with rfl | hd
  · exact hc
  · exact ht d hd

/-- Two parts of a line make a line. -/
theorem OneLine.append {t u : Text} (ht : t.OneLine) (hu : u.OneLine) : OneLine (t ++ u) := by
  intro c hc
  rcases List.mem_append.mp hc with hc | hc
  · exact ht c hc
  · exact hu c hc

/-- A text on the same line before a legible one leaves it legible. -/
theorem Legible.append_left {t u : Text} (ht : t.Legible) (hu : u.OneLine) : Legible (u ++ t) := by
  obtain ⟨c, hc, hblank⟩ := ht.visible
  exact ⟨⟨c, List.mem_append_right u hc, hblank⟩, hu.append ht.oneLine⟩

/-- A text on the same line after a legible one leaves it legible. -/
theorem Legible.append_right {t u : Text} (ht : t.Legible) (hu : u.OneLine) : Legible (t ++ u) := by
  obtain ⟨c, hc, hblank⟩ := ht.visible
  exact ⟨⟨c, List.mem_append_left u hc, hblank⟩, ht.oneLine.append hu⟩

/-! ## Classes of characters -/

/-- Every line break is blank. -/
theorem isBlank_of_isLineBreak {c : Char} (h : isLineBreak c = true) : isBlank c = true := by
  simp only [isLineBreak, Bool.or_eq_true, Bool.and_eq_true, decide_eq_true_eq, beq_iff_eq] at h
  simp only [isBlank, inRanges_iff, blankRanges, List.mem_cons, List.not_mem_nil, or_false]
  rcases h with (((h | h) | h) | h) | h
  · exact ⟨(9, 13), by simp, by omega⟩
  · exact ⟨(28, 32), by simp, by omega⟩
  · exact ⟨(133, 133), by simp, by omega⟩
  · exact ⟨(8232, 8233), by simp, by omega⟩
  · exact ⟨(8232, 8233), by simp, by omega⟩

/-- What ends a line in the narrow sense is a line break. -/
theorem isLineBreak_of_isLineEnd {c : Char} (h : isLineEnd c = true) : isLineBreak c = true := by
  simp only [isLineEnd, Bool.or_eq_true, beq_iff_eq] at h
  rcases h with rfl | rfl <;> decide

/-- A word character is not blank. -/
theorem isBlank_eq_false_of_isWord {c : Char} (h : isWord c = true) : isBlank c = false := by
  cases hc : isBlank c with
  | false => rfl
  | true =>
    rw [isWord_eq_false_of_isBlank hc] at h
    cases h

/-- What holds of the first 128 code points holds of every character of ASCII. -/
theorem forall_ascii {P : Char → Prop} (h : ∀ n < 128, P (Char.ofNat n)) {c : Char}
    (hc : c.toNat < 128) : P c := by
  rw [← Char.ofNat_toNat c]
  exact h c.toNat hc

/-- Letters and digits of ASCII are below 128. -/
theorem toNat_lt_of_isAsciiAlnum {c : Char} (h : isAsciiAlnum c = true) : c.toNat < 128 := by
  change ((decide (c.val ≥ 'A'.val ∧ c.val ≤ 'Z'.val) ||
    (decide (c.val ≥ 'a'.val) && decide (c.val ≤ 'z'.val))) ||
    (decide (c.val ≥ '0'.val) && decide (c.val ≤ '9'.val))) = true at h
  simp only [Bool.or_eq_true, Bool.and_eq_true, decide_eq_true_eq, UInt32.le_iff_toNat_le,
    ge_iff_le] at h
  change ((65 ≤ c.toNat ∧ c.toNat ≤ 90) ∨ (97 ≤ c.toNat ∧ c.toNat ≤ 122)) ∨
    (48 ≤ c.toNat ∧ c.toNat ≤ 57) at h
  omega

/-- An ASCII letter or digit is a word character. -/
theorem isWord_of_isAsciiAlnum {c : Char} (h : isAsciiAlnum c = true) : isWord c = true := by
  rw [isWord_of_ascii (toNat_lt_of_isAsciiAlnum h), h, Bool.true_or]

/-- A character that is not blank ends no line. -/
theorem isLineEnd_eq_false_of_isBlank {c : Char} (h : isBlank c = false) : isLineEnd c = false := by
  cases hc : isLineEnd c with
  | false => rfl
  | true =>
    rw [isBlank_of_isLineBreak (isLineBreak_of_isLineEnd hc)] at h
    cases h

/-- A blank starts no comment. -/
theorem isBlank_ne_hash {c : Char} (h : isBlank c = true) : c ≠ '#' := by
  rintro rfl
  exact absurd h (by decide)

/-- A line stays on one line. -/
theorem oneLine_of_mem_lines {t line : Text} (hline : line ∈ lines t) : line.OneLine := by
  intro c hc
  cases hend : isLineEnd c with
  | false => rfl
  | true =>
    have hbreak := isLineBreak_eq_false_of_mem_lines hline hc
    rw [isLineBreak_of_isLineEnd hend] at hbreak
    cases hbreak

/-! ## Texts without blanks -/

/-- A text with characters but no blank ones is legible. -/
theorem Legible.of_not_blank {t : Text} (hne : t ≠ []) (h : ∀ c ∈ t, isBlank c = false) :
    t.Legible where
  visible := ⟨t.head hne, List.head_mem hne, h _ (List.head_mem hne)⟩
  oneLine c hc := isLineEnd_eq_false_of_isBlank (h c hc)

/-! ## Trimmed texts -/

/-- Trimming at the end leaves a front of the text. -/
theorem isPrefix_trimEnd (p : Char → Bool) (t : Text) : trimEnd p t <+: t := by
  rw [trimEnd, ← List.reverse_suffix, List.reverse_reverse]
  exact List.dropWhile_suffix p

/-- Trimming at the start leaves an end of the text. -/
theorem trimStart_suffix (t : Text) : trimStart t <:+ t :=
  List.dropWhile_suffix isBlank

/-- What trimming at the end has left of a text without blanks at its start is legible, if anything
is left and the text was on one line. -/
theorem Legible.of_prefix_trimStart {t u : Text} (hu : u <+: trimStart t) (hne : u ≠ [])
    (h : t.OneLine) : u.Legible := by
  have hstart : trimStart t ≠ [] := hu.ne_nil hne
  have hhead : u.head hne = (trimStart t).head hstart := hu.head hne
  refine ⟨⟨u.head hne, List.head_mem hne, ?_⟩, fun c hc => ?_⟩
  · rw [hhead]
    exact List.head_dropWhile_not isBlank hstart
  · exact h c ((trimStart_suffix t).subset (hu.subset hc))

/-- What stripping leaves of a text on one line is legible, if anything is left. -/
theorem Legible.strip {t : Text} (hne : Text.strip t ≠ []) (h : t.OneLine) :
    (Text.strip t).Legible :=
  .of_prefix_trimStart (isPrefix_trimEnd isBlank _) hne h

end SetupCatalog.Text
