import Mathlib.Tactic.SplitIfs
import SetupCatalog.Json.Writer
import SetupCatalog.Proofs.Json.Reading

/-!
# Texts and numbers in JSON

What is written for a text or a number is read back with any rest after it: a character by the units
that it is escaped with (`readUnits_writeChar`), a text up to its closing quote
(`readText_writeText`), and a number as long as its digits do not go on in the rest
(`readsScalar_ofInt`).
-/

namespace SetupCatalog.Json

open Text

/-! ## Hexadecimal numbers -/

/-- A digit is read as what it was written for. -/
theorem hexValue?_digitChar {d : Nat} (hd : d < 16) : hexValue? d.digitChar = some d := by
  have : ∀ d < 16, hexValue? (Nat.digitChar d) = some d := by decide
  exact this d hd

/-- One more digit makes a number sixteen times as large, and adds itself. -/
theorem hexNumber?_concat (digits : Text) (d : Char) :
    hexNumber? (digits ++ [d]) =
      (hexNumber? digits).bind fun n => (hexValue? d).map fun m => 16 * n + m := by
  simp only [hexNumber?, List.foldlM_append, List.foldlM_cons, List.foldlM_nil, bind_pure]
  rfl

/-- A number in hexadecimal digits is read back. The induction is on the digits before the last. -/
theorem hexNumber?_toDigits (n : Nat) : hexNumber? (Nat.toDigits 16 n) = some n := by
  induction n using Nat.strongRecOn with
  | ind n ih =>
    by_cases hn : n < 16
    · rw [Nat.toDigits_of_lt_base hn, ← List.nil_append [n.digitChar], hexNumber?_concat,
        hexValue?_digitChar hn]
      simp [hexNumber?]
    · rw [Nat.toDigits_of_base_le (by decide) (Nat.not_lt.mp hn), hexNumber?_concat,
        ih (n / 16) (by omega), hexValue?_digitChar (Nat.mod_lt n (by decide))]
      simp only [Option.bind_some, Option.map_some, Option.some.injEq]
      omega

/-- Zeros in front change nothing. -/
theorem hexNumber?_hex (width n : Nat) : hexNumber? (hex width n) = some n := by
  have hzeros : ∀ k (digits : Text),
      hexNumber? (List.replicate k '0' ++ digits) = hexNumber? digits := by
    intro k digits
    induction k with
    | zero => rfl
    | succ k ih => exact ih
  rw [hex, hzeros, hexNumber?_toDigits]

/-- A unit is written with four digits. -/
theorem exists_hex_four {n : Nat} (hn : n < 0x10000) : ∃ a b c d, hex 4 n = [a, b, c, d] := by
  have hlength : (hex 4 n).length = 4 := by
    have : (Nat.toDigits 16 n).length ≤ 4 :=
      (Nat.length_toDigits_le_iff (by decide) (by decide)).mpr hn
    simp only [hex, List.length_append, List.length_replicate]
    omega
  match hex 4 n, hlength with
  | [a, b, c, d], _ => exact ⟨a, b, c, d, rfl⟩

/-- The escape of a unit is read as the unit. -/
theorem readUnits_unitEscape {n : Nat} (hn : n < 0x10000) (t : Text) :
    readUnits (unitEscape n ++ t) = (readUnits t).map (withUnit n) := by
  obtain ⟨a, b, c, d, hdigits⟩ := exists_hex_four hn
  have hnumber : hexNumber? [a, b, c, d] = some n := by rw [← hdigits, hexNumber?_hex]
  rw [unitEscape, hdigits]
  exact (readUnits_unit a b c d t).trans (by rw [hnumber, Option.bind_some])

/-! ## Texts -/

/-- The units that a character is written with. -/
def charUnits (c : Char) : List Nat :=
  if c.toNat < 0x10000 then [c.toNat]
  else [0xD800 + (c.toNat - 0x10000) / 1024, 0xDC00 + (c.toNat - 0x10000) % 1024]

/-- A character is no half of a surrogate pair. -/
theorem toNat_valid (c : Char) : c.toNat < 0xD800 ∨ 0xDFFF < c.toNat ∧ c.toNat < 0x110000 :=
  c.valid

/-- A character is written as a short escape, as itself, or by its units. -/
theorem writeChar_cases (c : Char) :
    (∃ d, writeChar c = ['\\', d] ∧ d.toNat < 128 ∧ d ≠ 'u' ∧ simpleEscape? d = some c ∧
      c.toNat < 0x10000) ∨
    (writeChar c = [c] ∧ c ≠ '"' ∧ c ≠ '\\' ∧ 32 ≤ c.toNat ∧ c.toNat < 127) ∨
    (writeChar c = unitEscape c.toNat ∧ c.toNat < 0x10000) ∨
    (writeChar c = unitEscape (0xD800 + (c.toNat - 0x10000) / 1024) ++
      unitEscape (0xDC00 + (c.toNat - 0x10000) % 1024) ∧ 0x10000 ≤ c.toNat) := by
  unfold writeChar
  split_ifs with hquote hslash hn hr ht hf hb hprintable hsmall
  · exact Or.inl ⟨'"', rfl, by decide, by decide, by rw [hquote]; rfl, hquote ▸ by decide⟩
  · exact Or.inl ⟨'\\', rfl, by decide, by decide, by rw [hslash]; rfl, hslash ▸ by decide⟩
  · exact Or.inl ⟨'n', rfl, by decide, by decide, hn ▸ rfl, hn ▸ by decide⟩
  · exact Or.inl ⟨'r', rfl, by decide, by decide, hr ▸ rfl, hr ▸ by decide⟩
  · exact Or.inl ⟨'t', rfl, by decide, by decide, ht ▸ rfl, ht ▸ by decide⟩
  · exact Or.inl ⟨'f', rfl, by decide, by decide, hf ▸ rfl, hf ▸ by decide⟩
  · exact Or.inl ⟨'b', rfl, by decide, by decide, hb ▸ rfl, hb ▸ by decide⟩
  · exact Or.inr (Or.inl ⟨rfl, hquote, hslash, hprintable.1, hprintable.2⟩)
  · exact Or.inr (Or.inr (Or.inl ⟨rfl, hsmall⟩))
  · exact Or.inr (Or.inr (Or.inr ⟨rfl, Nat.not_lt.mp hsmall⟩))

/-- A character is read back as its units, however it is written. -/
theorem readUnits_writeChar (c : Char) {t rest : Text} {units : List Nat}
    (h : readUnits t = some (units, rest)) :
    readUnits (writeChar c ++ t) = some (charUnits c ++ units, rest) := by
  have hsmall : c.toNat < 0x10000 → charUnits c = [c.toNat] := fun hc => if_pos hc
  have hvalid := toNat_valid c
  rcases writeChar_cases c with ⟨d, hwrite, -, hd, he, hc⟩ | ⟨hwrite, hquote, hslash, hc, hlast⟩ |
      ⟨hwrite, hc⟩ | ⟨hwrite, hc⟩
  · rw [hwrite, hsmall hc]
    exact (readUnits_escape hd t).trans (by rw [he, h]; rfl)
  · rw [hwrite, hsmall (by omega)]
    exact (readUnits_plain hquote hslash hc t).trans (by rw [h]; rfl)
  · rw [hwrite, hsmall hc, readUnits_unitEscape hc, h]
    rfl
  · rw [hwrite, List.append_assoc, readUnits_unitEscape (by omega), readUnits_unitEscape (by omega),
      h, charUnits, if_neg (Nat.not_lt.mpr hc)]
    rfl

/-- The units of a character stand for the character, whatever comes after them. -/
theorem textOfUnits_charUnits (c : Char) (units : List Nat) :
    textOfUnits (charUnits c ++ units) = c :: textOfUnits units := by
  have := toNat_valid c
  unfold charUnits
  -- a character of the basic plane is one unit and no high surrogate; any other is a pair
  split
  · have hunit : charOfUnit c.toNat = c := by
      rw [charOfUnit, if_pos (toNat_valid c), Char.ofNat_toNat]
    have hhigh : isHighSurrogate c.toNat = false := by
      simp only [isHighSurrogate, Bool.and_eq_false_iff, decide_eq_false_iff_not]
      omega
    cases units with
    | nil => simp only [List.append_nil, textOfUnits, hunit]
    | cons m units =>
      simp [textOfUnits, hunit, hhigh]
  · have hpair : (isHighSurrogate (0xD800 + (c.toNat - 0x10000) / 1024) &&
        isLowSurrogate (0xDC00 + (c.toNat - 0x10000) % 1024)) = true := by
      simp only [isHighSurrogate, isLowSurrogate, Bool.and_eq_true, decide_eq_true_eq]
      omega
    have hnumber : 0x10000 + (0xD800 + (c.toNat - 0x10000) / 1024 - 0xD800) * 1024 +
        (0xDC00 + (c.toNat - 0x10000) % 1024 - 0xDC00) = c.toNat := by
      omega
    rw [List.cons_append, List.cons_append, List.nil_append, textOfUnits, if_pos hpair, hnumber,
      Char.ofNat_toNat]

/-- What is written for a text is read back. -/
theorem readText_writeText (s rest : Text) :
    readText (s.flatMap writeChar ++ '"' :: rest) = some (s, rest) := by
  have hunits : readUnits (s.flatMap writeChar ++ '"' :: rest) =
      some (s.flatMap charUnits, rest) := by
    induction s with
    | nil => exact readUnits_quote rest
    | cons c s ih =>
      rw [List.flatMap_cons, List.append_assoc, readUnits_writeChar c ih]
      rfl
  have htext : textOfUnits (s.flatMap charUnits) = s := by
    clear hunits
    induction s with
    | nil => rfl
    | cons c s ih => rw [List.flatMap_cons, textOfUnits_charUnits, ih]
  rw [readText, hunits, Option.map_some]
  simp only [htext]

/-! ## Numbers -/

/-- A number before the given text ends there. -/
def EndsNumber (rest : Text) : Prop :=
  ∀ c ∈ rest.head?, c.isDigit = false ∧ c ≠ '.' ∧ c ≠ 'e' ∧ c ≠ 'E'

/-- A number is written in digits. -/
theorem isDigit_of_mem_ofNat {n : Nat} {c : Char} (hc : c ∈ ofNat n) : c.isDigit = true :=
  Nat.isDigit_of_mem_toDigits (by decide) (by decide) hc

/-- There is at least one digit. -/
theorem exists_ofNat_cons (n : Nat) : ∃ c u, ofNat n = c :: u ∧ c.isDigit = true := by
  obtain ⟨c, u, hcons⟩ := List.exists_cons_of_ne_nil (Nat.toDigits_ne_nil : Nat.toDigits 10 n ≠ [])
  refine ⟨c, u, hcons, @isDigit_of_mem_ofNat n c ?_⟩
  rw [ofNat, hcons]
  exact List.mem_cons_self

/-- A number that is not zero does not start with one. -/
theorem ofNat_ne_zero_cons {n : Nat} (hn : 0 < n) (u : Text) : ofNat n ≠ '0' :: u := by
  induction n using Nat.strongRecOn generalizing u with
  | ind n ih =>
    by_cases hsmall : n < 10
    · have hdigit : ∀ d < 10, 0 < d → Nat.digitChar d ≠ '0' := by decide
      rw [ofNat, Nat.toDigits_of_lt_base hsmall]
      intro h
      exact hdigit n hsmall hn (List.cons.inj h).1
    · rw [ofNat, Nat.toDigits_of_base_le (by decide) (Nat.not_lt.mp hsmall)]
      intro h
      obtain ⟨c, v, hcons, -⟩ := exists_ofNat_cons (n / 10)
      rw [ofNat] at hcons
      rw [hcons, List.cons_append] at h
      apply ih (n / 10) (by omega) (by omega) v
      rw [ofNat, hcons, (List.cons.inj h).1]

/-- The digits of a number are read up to what is no digit. -/
theorem someDigits_ofNat (n : Nat) {rest : Text} (h : ∀ c ∈ rest.head?, c.isDigit = false) :
    someDigits (ofNat n ++ rest) = some (ofNat n, rest) := by
  have hall : ∀ c ∈ ofNat n, c.isDigit = true := fun c => isDigit_of_mem_ofNat
  have htake : rest.takeWhile Char.isDigit = [] ∧ rest.dropWhile Char.isDigit = rest := by
    cases rest with
    | nil => exact ⟨rfl, rfl⟩
    | cons c rest =>
      have hc : ¬ c.isDigit = true := by simp [h c rfl]
      exact ⟨List.takeWhile_cons_of_neg hc, List.dropWhile_cons_of_neg hc⟩
  obtain ⟨c, u, hcons, -⟩ := exists_ofNat_cons n
  rw [someDigits, List.takeWhile_append_of_pos hall, List.dropWhile_append_of_pos hall, htake.1,
    htake.2, List.append_nil, hcons]

/-- So are those of a whole number, as only zero starts with a zero. -/
theorem wholeDigits_ofNat (n : Nat) {rest : Text} (h : ∀ c ∈ rest.head?, c.isDigit = false) :
    wholeDigits (ofNat n ++ rest) = some (ofNat n, rest) := by
  by_cases hn : n = 0
  · subst hn
    rfl
  · rw [wholeDigits.eq_2, someDigits_ofNat n h]
    intro u heq
    obtain ⟨c, v, hcons, -⟩ := exists_ofNat_cons n
    rw [hcons, List.cons_append] at heq
    apply ofNat_ne_zero_cons (Nat.pos_of_ne_zero hn) v
    rw [hcons, (List.cons.inj heq).1]

/-- A number in decimal digits is read back. -/
theorem decimalNumber_ofNat (n : Nat) : decimalNumber (ofNat n) = n :=
  Nat.ofDigitChars_ten_toDigits

/-- There is no fraction without a point. -/
theorem fraction_eq_none {rest : Text} (h : ∀ c ∈ rest.head?, c ≠ '.') : fraction rest = none := by
  apply fraction.eq_2
  rintro u rfl
  exact h '.' rfl rfl

/-- There is no exponent without its letter. -/
theorem exponent_eq_none {rest : Text} (h : ∀ c ∈ rest.head?, c ≠ 'e' ∧ c ≠ 'E') :
    exponent rest = none := by
  cases rest with
  | nil => rfl
  | cons c rest =>
    obtain ⟨he, hE⟩ := h c rfl
    simp [exponent.eq_def, he, hE]

/-- An exponent is read back. -/
theorem exponent_ofInt (e : Int) {rest : Text} (h : ∀ c ∈ rest.head?, c.isDigit = false) :
    exponent ('e' :: ofInt e ++ rest) = some (e, rest) := by
  -- a negative exponent starts with its sign, any other with a digit
  cases e with
  | negSucc n =>
    simp only [ofInt, List.cons_append, exponent.eq_def]
    simp [someDigits_ofNat _ h, decimalNumber_ofNat, Int.negSucc_eq]
  | ofNat n =>
    obtain ⟨c, u, hcons, hc⟩ := exists_ofNat_cons n
    have hread := someDigits_ofNat n h
    simp only [ofInt, List.cons_append, exponent.eq_def]
    rw [hcons] at hread ⊢
    simp only [List.cons_append] at hread ⊢
    split
    · split
      · next heq => exact absurd (List.cons.inj heq).1 (ne_of_isDigit hc rfl)
      · next heq => exact absurd (List.cons.inj heq).1 (ne_of_isDigit hc rfl)
      · rw [hread, Option.map_some, ← hcons]
        simp only [decimalNumber_ofNat]
        rfl
    · next hletter => simp at hletter

/-- What is written for a whole number is read back. -/
theorem readsScalar_ofInt {limit : Option Nat} {n : Int}
    (hlimit : accepts limit (ofNat n.natAbs).length = true) {rest : Text} (h : EndsNumber rest) :
    ReadsScalar limit (ofInt n ++ rest) (.int n) rest := by
  have hreads : ∀ negative (k : Nat), accepts limit (ofNat k).length = true →
      ReadsUnsigned limit negative (ofNat k ++ rest) (.int (signed negative k)) rest := by
    intro negative k hk
    have hnumber : signed negative k = signed negative (decimalNumber (ofNat k)) := by
      rw [decimalNumber_ofNat]
    rw [hnumber]
    apply ReadsUnsigned.whole _ _ _ hk
    · exact wholeDigits_ofNat k fun c hc => (h c hc).1
    · exact fraction_eq_none fun c hc => (h c hc).2.1
    · exact exponent_eq_none fun c hc => (h c hc).2.2
  cases n with
  | ofNat k => exact .unsigned (hreads false k hlimit)
  | negSucc k => exact .negative rfl (hreads true (k + 1) hlimit)

/-- What is written for a number with an exponent is read back. -/
theorem readsScalar_ofInt_exponent {limit : Option Nat} (m e : Int) {rest : Text}
    (h : EndsNumber rest) :
    ReadsScalar limit (ofInt m ++ 'e' :: ofInt e ++ rest) (.real m e) rest := by
  have hreads : ∀ negative (k : Nat), ReadsUnsigned limit negative
      (ofNat k ++ 'e' :: ofInt e ++ rest) (.real (signed negative k) e) rest := by
    intro negative k
    have hnumber : signed negative k = signed negative (decimalNumber (ofNat k)) := by
      rw [decimalNumber_ofNat]
    rw [hnumber, List.append_assoc]
    apply ReadsUnsigned.exponent
    · exact wholeDigits_ofNat k (by simp)
    · exact fraction_eq_none (by simp)
    · exact exponent_ofInt e fun c hc => (h c hc).1
  cases m with
  | ofNat k => exact .unsigned (hreads false k)
  | negSucc k => exact .negative rfl (hreads true (k + 1))

end SetupCatalog.Json
