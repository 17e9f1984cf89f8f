import SetupCatalog.Proofs.Text.Legible
import SetupCatalog.Proofs.Text.Line
import SetupCatalog.Text.Case

/-!
# Texts without letter case

`uncased` writes the capital letters of ASCII in a text small and leaves everything else alone. Two
texts differ in the case of such letters only if they are the same text after that.

A class of characters is `CaseBlind` if it makes no difference between a capital letter and a small
one, and it is enough to look at the letters of ASCII to know (`caseBlind_of_letters`). The
functions that cut texts by such classes commute with `uncased`, and so do lines, pieces and
windows; lowering a text gives the same result before and after (`lower_uncased`).
-/

namespace SetupCatalog.Text

/-- The text with the capital letters of ASCII in it written small. -/
def uncased (t : Text) : Text :=
  t.map Char.toLower

/-- A class of characters makes no difference between a capital letter of ASCII and the small one.
-/
def CaseBlind {α : Type} (p : Char → α) : Prop :=
  ∀ c, p c.toLower = p c

/-! ## Single characters -/

/-- Characters outside ASCII stay as they are. -/
theorem toLower_of_not_ascii {c : Char} (h : ¬ c.toNat < 128) : c.toLower = c := by
  have hupper : ¬ (c.val ≥ 'A'.val ∧ c.val ≤ 'Z'.val) := by
    rintro ⟨-, hle⟩
    rw [UInt32.le_iff_toNat_le] at hle
    change c.toNat ≤ 90 at hle
    omega
  exact dif_neg hupper

/-- A character of ASCII stays as it is too, or it is one of the 26 capital letters. -/
theorem toLower_of_ascii {c : Char} (hc : c.toNat < 128) : c.toLower = c ∨
    ∃ m < 26, c = Char.ofNat (m + 65) ∧ c.toLower = Char.ofNat (m + 97) :=
  forall_ascii (P := fun c => c.toLower = c ∨
    ∃ m < 26, c = Char.ofNat (m + 65) ∧ c.toLower = Char.ofNat (m + 97)) (by decide) hc

/-- What makes no difference between the capital letters and the small ones makes none at all. -/
theorem caseBlind_of_letters {α : Type} {p : Char → α}
    (h : ∀ m < 26, p (Char.ofNat (m + 97)) = p (Char.ofNat (m + 65))) : CaseBlind p := by
  intro c
  by_cases hc : c.toNat < 128
  · rcases toLower_of_ascii hc with hsame | ⟨m, hm, hcapital, hsmall⟩
    · rw [hsame]
    · rw [hsmall, h m hm, ← hcapital]
  · rw [toLower_of_not_ascii hc]

/-- A small letter stays small. -/
theorem toLower_toLower : CaseBlind Char.toLower :=
  caseBlind_of_letters (by decide)

/-- No letter of ASCII is blank. -/
theorem isBlank_toLower : CaseBlind isBlank :=
  caseBlind_of_letters (by decide)

/-- Both cases of a letter are word characters. -/
theorem isWord_toLower : CaseBlind isWord :=
  caseBlind_of_letters (by decide)

/-- No letter breaks a line. -/
theorem isLineBreak_toLower : CaseBlind isLineBreak :=
  caseBlind_of_letters (by decide)

/-- Lowering by Unicode takes both cases of a letter of ASCII to the small one. -/
theorem lowerChar_toLower : CaseBlind lowerChar :=
  caseBlind_of_letters (by decide)

/-- Both cases of a letter are letters or digits of ASCII. -/
theorem isAsciiAlnum_toLower : CaseBlind isAsciiAlnum :=
  caseBlind_of_letters (by decide)

/-- Both cases of a letter are letters. -/
theorem isAlpha_toLower : CaseBlind Char.isAlpha :=
  caseBlind_of_letters (by decide)

/-- Both cases of a letter have case. -/
theorem isCased_toLower : CaseBlind fun c => inRanges casedRanges c.toNat :=
  caseBlind_of_letters (by decide)

/-- No letter of ASCII is passed over when it is decided how a sigma is lowered. -/
theorem isCaseIgnorable_toLower : CaseBlind fun c => inRanges caseIgnorableRanges c.toNat :=
  caseBlind_of_letters (by decide +kernel)

/-- A class that is made from the answers of a case-blind one is case-blind. -/
theorem CaseBlind.comp {α β : Type} {p : Char → α} (h : CaseBlind p) (f : α → β) :
    CaseBlind fun c => f (p c) :=
  fun c => congrArg f (h c)

/-- What two case-blind classes have in common is case-blind. -/
theorem CaseBlind.and {p q : Char → Bool} (hp : CaseBlind p) (hq : CaseBlind q) :
    CaseBlind fun c => p c && q c :=
  fun c => by simp only [hp c, hq c]

/-- What is in one of two case-blind classes is case-blind. -/
theorem CaseBlind.or {p q : Char → Bool} (hp : CaseBlind p) (hq : CaseBlind q) :
    CaseBlind fun c => p c || q c :=
  fun c => by simp only [hp c, hq c]

/-- Characters that are no letters of ASCII stay as they are. -/
theorem toLower_of_not_isAlpha {c : Char} (h : c.isAlpha = false) : c.toLower = c := by
  by_cases hc : c.toNat < 128
  · exact forall_ascii (P := fun c => c.isAlpha = false → c.toLower = c) (by decide) hc h
  · exact toLower_of_not_ascii hc

/-- Only a character itself becomes it, unless it is a letter of ASCII. -/
theorem toLower_eq_iff {c s : Char} (hs : s.isAlpha = false) : c.toLower = s ↔ c = s := by
  constructor
  · rintro rfl
    rw [isAlpha_toLower c] at hs
    exact (toLower_of_not_isAlpha hs).symm
  · rintro rfl
    exact toLower_of_not_isAlpha hs

/-- To be a character that is no letter is case-blind. -/
theorem caseBlind_beq {s : Char} (hs : s.isAlpha = false) : CaseBlind fun c => c == s := by
  intro c
  rw [Bool.eq_iff_iff, beq_iff_eq, beq_iff_eq]
  exact toLower_eq_iff hs

/-- So is not to be that character. -/
theorem caseBlind_bne {s : Char} (hs : s.isAlpha = false) : CaseBlind fun c => c != s :=
  (caseBlind_beq hs).comp not

/-! ## Blank characters have no case -/

/-- The capital letters outside ASCII are not blank. -/
theorem blankRanges_disjoint_capitalRuns :
    rangesDisjoint blankRanges (capitalRuns.map fun run => (run.1, run.2.1)) = true := by
  decide

/-- Blanks are lowered to themselves. -/
theorem lowerChar_of_isBlank {c : Char} (h : isBlank c = true) : lowerChar c = c := by
  by_cases hc : c.toNat < 128
  · rw [lowerChar, if_pos hc]
    refine toLower_of_not_isAlpha (Bool.eq_false_iff.mpr fun halpha => ?_)
    have hword : isWord c = true :=
      isWord_of_isAsciiAlnum (by simpa [isAsciiAlnum, Char.isAlphanum] using Or.inl halpha)
    rw [isWord_eq_false_of_isBlank h] at hword
    cases hword
  · have hnone := not_inRanges_of_disjoint blankRanges_disjoint_capitalRuns h
    rw [inRanges, List.any_map, List.any_eq_false] at hnone
    rw [lowerChar, if_neg hc, List.find?_eq_none.mpr]
    intro run hrun hhit
    rw [Bool.and_eq_true] at hhit
    exact hnone run hrun hhit.1

/-- The small forms of the capital letters outside ASCII are not blank. -/
theorem blankRanges_disjoint_lowered :
    rangesDisjoint blankRanges (capitalRuns.map fun run =>
      ((run.1 + run.2.2.2).toNat, (run.2.1 + run.2.2.2).toNat)) = true := by
  decide

/-- The small form of a character is not blank if the character is not. -/
theorem isBlank_lowerChar {c : Char} (h : isBlank c = false) : isBlank (lowerChar c) = false := by
  by_cases hc : c.toNat < 128
  · rw [lowerChar, if_pos hc]
    exact forall_ascii (P := fun c => isBlank c = false → isBlank c.toLower = false)
      (by decide) hc h
  · rw [lowerChar, if_neg hc]
    split
    · next run first last step shift hfind =>
      have hrun := List.mem_of_find?_eq_some hfind
      have hhit := List.find?_some hfind
      simp only [Bool.and_eq_true, decide_eq_true_eq] at hhit
      -- no run of capitals is shifted onto a blank
      have hin : inRanges (capitalRuns.map fun run =>
          ((run.1 + run.2.2.2).toNat, (run.2.1 + run.2.2.2).toNat))
            (c.toNat + shift).toNat = true := by
        refine inRanges_iff.mpr ⟨_, List.mem_map_of_mem hrun, ?_⟩
        dsimp only
        omega
      by_cases hvalid : (c.toNat + shift).toNat.isValidChar
      · rw [Char.ofNat, dif_pos hvalid, Bool.eq_false_iff]
        intro hblank
        have hout := not_inRanges_of_disjoint blankRanges_disjoint_lowered hblank
        exact Bool.false_ne_true (hout.symm.trans hin)
      · rw [Char.ofNat, dif_neg hvalid]
        decide
    · exact h

/-- No blank character is a variant of a letter. -/
theorem blankRanges_disjoint_letterVariants :
    letterVariants.all (fun g => g.all fun n => !inRanges blankRanges n) = true := by
  decide

/-- A blank character is not the same as a character whose small form is not blank. -/
theorem sameLetter_eq_false_of_isBlank {w b : Char} (hw : isBlank (lowerChar w) = false)
    (hb : isBlank b = true) : sameLetter w b = false := by
  rw [sameLetter, lowerChar_of_isBlank hb, Bool.or_eq_false_iff, beq_eq_false_iff_ne,
    List.any_eq_false]
  constructor
  · rintro rfl
    rw [hb] at hw
    cases hw
  · intro g hg hboth
    rw [Bool.and_eq_true, List.contains_iff_mem, List.contains_iff_mem] at hboth
    have := List.all_eq_true.mp (List.all_eq_true.mp blankRanges_disjoint_letterVariants g hg) _
      hboth.2
    rw [Bool.not_eq_true'] at this
    exact Bool.false_ne_true (this.symm.trans hb)

/-! ## Letters of ASCII -/

/-- The small forms of the capital letters outside ASCII are characters outside ASCII, apart from
those of the dotted capital I and of the Kelvin sign. -/
theorem lowered_capitalRuns :
    capitalRuns.all (fun (first, last, _, shift) =>
      (128 ≤ first + shift && last + shift < 55296 ||
        57344 ≤ first + shift && last + shift < 1114112)
        || (first == last && (first + shift == 105 || first + shift == 107))) = true := by
  decide

/-- A character outside ASCII has no small form in ASCII but these two. -/
theorem lowerChar_of_not_ascii {c : Char} (hc : ¬ c.toNat < 128) :
    128 ≤ (lowerChar c).toNat ∨ lowerChar c = 'i' ∨ lowerChar c = 'k' := by
  rw [lowerChar, if_neg hc]
  split
  · next first last step shift hfind =>
    have hrun := List.all_eq_true.mp lowered_capitalRuns _ (List.mem_of_find?_eq_some hfind)
    have hhit := List.find?_some hfind
    simp only [Bool.and_eq_true, decide_eq_true_eq] at hhit
    simp only [Bool.or_eq_true, Bool.and_eq_true, decide_eq_true_eq, beq_iff_eq] at hrun
    -- a run stays outside of ASCII, or it is a single character that becomes one of two letters
    rcases hrun with hrun | ⟨hone, hrun⟩
    · left
      have hvalid : (c.toNat + shift).toNat.isValidChar := by
        unfold Nat.isValidChar
        omega
      rw [Char.ofNat, dif_pos hvalid]
      show 128 ≤ (c.toNat + shift).toNat
      omega
    · right
      have hcode : (c.toNat + shift).toNat = 105 ∨ (c.toNat + shift).toNat = 107 := by omega
      rcases hcode with hcode | hcode
      · exact Or.inl (by rw [hcode])
      · exact Or.inr (by rw [hcode])
  · exact Or.inl (Nat.le_of_not_lt hc)

/-- Apart from i, k and s, a character of ASCII is the same letter as its other case and itself
only.
-/
theorem toLower_of_sameLetter {w c : Char} (hw : w.toNat < 128)
    (hplain : w.toLower ∉ ['i', 'k', 's']) (h : sameLetter w c = true) : c.toLower = w.toLower := by
  have hlower : lowerChar w = w.toLower := by rw [lowerChar, if_pos hw]
  have hascii : (w.toLower).toNat < 128 :=
    forall_ascii (P := fun w => (w.toLower).toNat < 128) (by decide) hw
  -- no group of variants has the letter, so the two characters lower to the same one
  have hvariants : (letterVariants.any fun g =>
      g.contains (w.toLower).toNat && g.contains (lowerChar c).toNat) = false := by
    have hnone : ∀ g ∈ letterVariants, (w.toLower).toNat ∉ g :=
      forall_ascii (P := fun w => w.toLower ∉ ['i', 'k', 's'] →
        ∀ g ∈ letterVariants, (w.toLower).toNat ∉ g) (by decide +kernel) hw hplain
    rw [List.any_eq_false]
    intro g hg hboth
    rw [Bool.and_eq_true, List.contains_iff_mem] at hboth
    exact hnone g hg hboth.1
  rw [sameLetter, hlower, hvariants, Bool.or_false, beq_iff_eq] at h
  by_cases hc : c.toNat < 128
  · rw [h, lowerChar, if_pos hc]
  · rcases lowerChar_of_not_ascii hc with hlarge | hi | hk
    · rw [← h] at hlarge
      omega
    · exact absurd (by simp [h, hi]) hplain
    · exact absurd (by simp [h, hk]) hplain
/-! ## Texts -/

/-- An empty text has no letters. -/
@[simp] theorem uncased_nil : uncased [] = [] := rfl

/-- The first character is written small by itself. -/
@[simp] theorem uncased_cons (c : Char) (t : Text) :
    uncased (c :: t) = c.toLower :: uncased t := rfl

/-- Two parts of a text are written small one after the other. -/
@[simp] theorem uncased_append (t u : Text) : uncased (t ++ u) = uncased t ++ uncased u :=
  List.map_append

/-- Writing letters small keeps the length. -/
@[simp] theorem length_uncased (t : Text) : (uncased t).length = t.length :=
  List.length_map _

/-- An uncased text is uncased. -/
@[simp] theorem uncased_uncased (t : Text) : uncased (uncased t) = uncased t := by
  rw [uncased, uncased, List.map_map]
  exact List.map_congr_left fun c _ => toLower_toLower c

/-- The first character of an uncased text is that of the text, written small. -/
theorem head?_uncased (t : Text) : (uncased t).head? = t.head?.map Char.toLower :=
  List.head?_map

/-- The last character of an uncased text is that of the text, written small. -/
theorem getLast?_uncased (t : Text) : (uncased t).getLast? = t.getLast?.map Char.toLower :=
  List.getLast?_map

/-- It makes no difference whether a text is written small from the front or from the back. -/
theorem reverse_uncased (t : Text) : (uncased t).reverse = uncased t.reverse :=
  List.map_reverse.symm

/-- The characters at the front are written small by themselves. -/
theorem take_uncased (n : Nat) (t : Text) : (uncased t).take n = uncased (t.take n) :=
  List.map_take.symm

/-- So are the characters after them. -/
theorem drop_uncased (n : Nat) (t : Text) : (uncased t).drop n = uncased (t.drop n) :=
  List.map_drop.symm

/-- An uncased text is empty exactly if the text is. -/
theorem isEmpty_uncased (t : Text) : (uncased t).isEmpty = t.isEmpty :=
  List.isEmpty_map

section

variable {p : Char → Bool} (hp : CaseBlind p)

include hp

/-- All characters of an uncased text are in a case-blind class exactly if those of the text are. -/
theorem all_uncased (t : Text) : (uncased t).all p = t.all p := by
  rw [uncased, List.all_map]
  exact congrArg t.all (funext hp)

/-- What is taken of an uncased text ends at the same place. -/
theorem takeWhile_uncased (t : Text) : (uncased t).takeWhile p = uncased (t.takeWhile p) := by
  rw [uncased, List.takeWhile_map]
  exact congrArg (fun q => uncased (t.takeWhile q)) (funext hp)

/-- So what is left starts at the same place. -/
theorem dropWhile_uncased (t : Text) : (uncased t).dropWhile p = uncased (t.dropWhile p) := by
  rw [uncased, List.dropWhile_map]
  exact congrArg (fun q => uncased (t.dropWhile q)) (funext hp)

/-- What is trimmed off the end ends at the same place. -/
theorem trimEnd_uncased (t : Text) : trimEnd p (uncased t) = uncased (trimEnd p t) := by
  rw [trimEnd, reverse_uncased, dropWhile_uncased hp, reverse_uncased, trimEnd]

end

/-- Blanks at the start are trimmed off an uncased text. -/
theorem trimStart_uncased (t : Text) : trimStart (uncased t) = uncased (trimStart t) :=
  dropWhile_uncased isBlank_toLower t

/-- Blanks at both ends are trimmed off an uncased text. -/
theorem strip_uncased (t : Text) : strip (uncased t) = uncased (strip t) := by
  rw [strip, trimStart_uncased, trimEnd_uncased isBlank_toLower, strip]

/-- A window shows the same part of an uncased text. -/
theorem window_uncased (t : Text) (first last : Int) :
    window (uncased t) first last = uncased (window t first last) := by
  rw [window, length_uncased, take_uncased, drop_uncased, window]

/-- A separator that is no letter cuts an uncased text at the same places. -/
theorem pieces_uncased {sep : Char} (hsep : sep.isAlpha = false) (t : Text) :
    pieces sep (uncased t) = (pieces sep t).map uncased := by
  induction t with
  | nil => rfl
  | cons c t ih =>
    rw [uncased_cons, pieces, pieces, ih]
    by_cases hc : c = sep
    · rw [if_pos hc, if_pos ((toLower_eq_iff hsep).mpr hc)]
      rfl
    · rw [if_neg hc, if_neg fun h => hc ((toLower_eq_iff hsep).mp h)]
      cases pieces sep t with
      | nil => rfl
      | cons p ps => rfl

/-- An uncased text has the same lines. -/
theorem lines_uncased (t : Text) : lines (uncased t) = (lines t).map uncased := by
  -- no character becomes a carriage return or a line feed
  have hlater : ∀ {c : Char} {t : Text}, (∀ u, c = '\r' → t = '\n' :: u → False) →
      ∀ u, c.toLower = '\r' → uncased t = '\n' :: u → False := by
    intro c t hpair u hc ht
    cases t with
    | nil => cases ht
    | cons d t =>
      obtain ⟨hd, -⟩ := List.cons.inj ht
      refine hpair t ((toLower_eq_iff (by decide)).mp hc) ?_
      rw [(toLower_eq_iff (by decide)).mp hd]
  fun_induction lines t with
  | case1 => rfl
  | case2 t ih => exact congrArg (List.cons []) ih
  | case3 c t hpair hbreak ih =>
    rw [uncased_cons, lines_cons (hlater hpair), isLineBreak_toLower, if_pos hbreak, ih]
    rfl
  | case4 c t hpair hbreak hlines ih =>
    rw [uncased_cons, lines_cons (hlater hpair), isLineBreak_toLower, if_neg hbreak, ih, hlines]
    rfl
  | case5 c t hpair hbreak l ls hlines ih =>
    rw [uncased_cons, lines_cons (hlater hpair), isLineBreak_toLower, if_neg hbreak, ih, hlines]
    rfl

/-! ## Lowering -/

/-- Whether a letter with case comes next does not depend on the case. -/
theorem casedNext_uncased (t : Text) : casedNext (uncased t) = casedNext t := by
  rw [casedNext, dropWhile_uncased isCaseIgnorable_toLower, casedNext]
  cases t.dropWhile fun c => inRanges caseIgnorableRanges c.toNat with
  | nil => rfl
  | cons c t => exact isCased_toLower c

/-- Lowering an uncased text gives the lowered text, given what is before it. -/
theorem lowerFrom_uncased (before t : Text) :
    lowerFrom (uncased before) (uncased t) = lowerFrom before t := by
  induction t generalizing before with
  | nil => rfl
  | cons c t ih =>
    have hsigma : c.toLower = 'Σ' ↔ c = 'Σ' := toLower_eq_iff (by decide)
    have hdotted : c.toLower = 'İ' ↔ c = 'İ' := toLower_eq_iff (by decide)
    rw [uncased_cons, lowerFrom, lowerFrom, ← uncased_cons, ih]
    simp only [hsigma, hdotted, casedNext_uncased, lowerChar_toLower c]

/-- Lowering gives the same text, whatever the case of the letters of ASCII. -/
theorem lower_uncased (t : Text) : lower (uncased t) = lower t :=
  lowerFrom_uncased [] t

end SetupCatalog.Text
