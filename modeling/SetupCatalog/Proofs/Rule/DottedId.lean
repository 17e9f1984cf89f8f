import SetupCatalog.Proofs.Text.Legible
import SetupCatalog.Proofs.Text.Piece
import SetupCatalog.Rule.Winget

/-!
# The grammar of winget identities

`isDottedId` decides whether a word is an identity by cutting it at its dots. `DottedId` says what
an identity is by how it is written: a part that starts with an ASCII letter or digit, and after it
one or more further parts, each with a dot in front. The two agree (`isDottedId_iff`), and an
identity has no blanks in it (`DottedId.not_blank`).
-/

namespace SetupCatalog.Rule.Winget

open Text Pattern

/-- A word is written like an identity: `c first` is its first part, and each of the `others` has a
dot in front. -/
def DottedId (word : Text) : Prop :=
  ∃ c first others, word = c :: first ++ others.flatMap (fun part => '.' :: part) ∧
    isAsciiAlnum c = true ∧ (∀ d ∈ first, isIdChar d = true) ∧
    others ≠ [] ∧ ∀ part ∈ others, part ≠ [] ∧ ∀ d ∈ part, isIdChar d = true

/-- Letters and digits of ASCII may stand in an identifier. -/
theorem isIdChar_of_isAsciiAlnum {c : Char} (h : isAsciiAlnum c = true) : isIdChar c = true := by
  rw [isIdChar, isWord_of_isAsciiAlnum h, Bool.true_or, Bool.true_or]

/-- A dot is no part of a part. -/
theorem dot_not_mem {part : Text} (h : ∀ d ∈ part, isIdChar d = true) : '.' ∉ part := by
  intro hdot
  exact absurd (h '.' hdot) (by decide)

/-- The words that are recognised as identities are those that are written like one. -/
theorem isDottedId_iff {word : Text} : isDottedId word = true ↔ DottedId word := by
  constructor
  · intro h
    unfold isDottedId at h
    split at h
    · next first second others hpieces =>
      have hword : word = first ++ (second :: others).flatMap fun part => '.' :: part := by
        rw [← joined_pieces '.' word, hpieces, joined_cons]
        rfl
      simp only [Bool.and_eq_true, List.all_eq_true, Bool.not_eq_true', List.isEmpty_eq_false_iff]
        at h
      obtain ⟨hhead, hparts⟩ := h
      obtain ⟨hne, hfirst⟩ := hparts first List.mem_cons_self
      -- the parts are those between the dots, and the first one is not empty
      cases first with
      | nil => exact absurd rfl hne
      | cons c first =>
        refine ⟨c, first, second :: others, hword, hhead, fun d hd => ?_, List.cons_ne_nil _ _,
          fun part hpart => hparts part (List.mem_cons_of_mem _ hpart)⟩
        exact hfirst d (List.mem_cons_of_mem c hd)
    · cases h
  · rintro ⟨c, first, others, rfl, hc, hfirst, hne, hothers⟩
    have hcfirst : ∀ d ∈ c :: first, isIdChar d = true := by
      intro d hd
      rcases List.mem_cons.mp hd with rfl | hd
      · exact isIdChar_of_isAsciiAlnum hc
      · exact hfirst d hd
    cases others with
    | nil => exact absurd rfl hne
    | cons second others =>
      rw [isDottedId, pieces_append_flatMap (dot_not_mem hcfirst)
        fun part hpart => dot_not_mem (hothers part hpart).2]
      simp only [Bool.and_eq_true, List.all_eq_true, Bool.not_eq_true', List.isEmpty_eq_false_iff]
      refine ⟨hc, fun part hpart => ?_⟩
      rcases List.mem_cons.mp hpart with rfl | hpart
      · exact ⟨List.cons_ne_nil c first, hcfirst⟩
      · exact hothers part hpart

/-! ## What an identity looks like -/

/-- No character of an identifier is blank. -/
theorem isBlank_eq_false_of_isIdChar {d : Char} (h : isIdChar d = true) : isBlank d = false := by
  simp only [isIdChar, Bool.or_eq_true, beq_iff_eq] at h
  rcases h with (h | rfl) | rfl
  · exact isBlank_eq_false_of_isWord h
  · decide
  · decide

/-- An identity is made of the characters of its parts and of dots. -/
theorem DottedId.isIdChar_or_dot {word : Text} (h : DottedId word) :
    ∀ d ∈ word, isIdChar d = true ∨ d = '.' := by
  obtain ⟨c, first, others, rfl, hc, hfirst, -, hothers⟩ := h
  intro d hd
  rw [List.mem_append, List.mem_cons, List.mem_flatMap] at hd
  rcases hd with (rfl | hd) | ⟨part, hpart, hd⟩
  · exact Or.inl (isIdChar_of_isAsciiAlnum hc)
  · exact Or.inl (hfirst d hd)
  · rcases List.mem_cons.mp hd with rfl | hd
    · exact Or.inr rfl
    · exact Or.inl ((hothers part hpart).2 d hd)

/-- A dotted identifier has no blank, so it stays one word. -/
theorem DottedId.not_blank {word : Text} (h : DottedId word) : ∀ d ∈ word, isBlank d = false := by
  intro d hd
  rcases h.isIdChar_or_dot d hd with hd | rfl
  · exact isBlank_eq_false_of_isIdChar hd
  · decide

/-- A dotted identifier has no quote, so its word is not changed by unquoting. -/
theorem DottedId.not_mem_of_isQuote {word : Text} {q : Char} (h : DottedId word)
    (hq : isQuote q = true) : q ∉ word := by
  intro hmem
  simp only [isQuote, Bool.or_eq_true, beq_iff_eq] at hq
  rcases h.isIdChar_or_dot q hmem with hchar | rfl
  · rcases hq with rfl | rfl <;> exact absurd hchar (by decide)
  · rcases hq with hq | hq <;> cases hq

/-- A word with any other character is no identity. -/
theorem isDottedId_eq_false_of_mem {word : Text} {d : Char} (hd : d ∈ word)
    (hid : isIdChar d = false) (hdot : d ≠ '.') : isDottedId word = false := by
  rw [Bool.eq_false_iff]
  intro h
  rcases (isDottedId_iff.mp h).isIdChar_or_dot d hd with hchar | heq
  · rw [hid] at hchar
    cases hchar
  · exact hdot heq

/-- A dotted identifier is not empty. -/
theorem DottedId.ne_nil {word : Text} (h : DottedId word) : word ≠ [] := by
  obtain ⟨c, first, others, rfl, -⟩ := h
  exact List.cons_ne_nil _ _

end SetupCatalog.Rule.Winget
