import SetupCatalog.Text.Utf8

/-!
# Encoding and decoding

Decoding undoes encoding (`decode_encode`): the bytes of a character are read back as this
character, whatever comes after them (`decode_encodeChar_append`). Decoding is also strict
(`encode_of_decode`): bytes that can be read are the bytes of the text that is read, so no text has
two spellings, and truncated sequences, overlong ones, surrogates and what lies above the last code
point are no spelling of anything. Together they say what can be read and as what
(`decode_eq_some_iff`).

The bytes are those of the standard library (`encode_eq_utf8Encode`).
-/

namespace SetupCatalog.Text.Utf8

/-! ## Bytes -/

/-- A byte has the number it is made from. -/
theorem toNat_byte {n : Nat} (h : n < 256) : (byte n).toNat = n :=
  UInt8.toNat_ofNat_of_lt' h

/-- Six bits behind the mark make a byte that goes on. -/
theorem isContinuation_byte {n : Nat} (h : n < 64) : isContinuation (byte (0x80 + n)) = true := by
  rw [isContinuation, toNat_byte (by omega), Bool.and_eq_true, decide_eq_true_eq, decide_eq_true_eq]
  omega

/-- A byte goes on with a character exactly if it lies between two bounds. -/
theorem isContinuation_iff {b : UInt8} :
    isContinuation b = true ↔ 0x80 ≤ b.toNat ∧ b.toNat < 0xC0 := by
  rw [isContinuation, Bool.and_eq_true, decide_eq_true_eq, decide_eq_true_eq]

/-- A byte is written with its own value. -/
theorem byte_eq {n : Nat} (b : UInt8) (h : n = b.toNat) : byte n = b := by
  rw [h, byte, UInt8.ofNat_toNat]

/-- A character has the code point that it is made from. -/
theorem toNat_of_charFrom {least n : Nat} {c : Char} (h : charFrom least n = some c) :
    c.toNat = n ∧ least ≤ n := by
  by_cases hvalid : n.isValidChar
  · rw [charFrom, dif_pos hvalid, Option.ite_none_right_eq_some] at h
    rw [← Option.some.inj h.2]
    exact ⟨rfl, h.1⟩
  · rw [charFrom, dif_neg hvalid] at h
    cases h

/-- A code point is that of its character. -/
theorem charFrom_toNat {c : Char} {least n : Nat} (hn : n = c.toNat) (h : least ≤ n) :
    charFrom least n = some c := by
  subst hn
  have hvalid : c.toNat.isValidChar := c.valid
  rw [charFrom, dif_pos hvalid, if_pos h]
  rfl

/-! ## Sequences of bytes -/

/-- A byte of ASCII is a character of its own. -/
theorem decode_one {a : UInt8} (ha : a.toNat < 0x80) (bytes : List UInt8) :
    decode (a :: bytes) = (decode bytes).map (Char.ofNat a.toNat :: ·) := by
  rw [decode.eq_def]
  exact if_pos ha

/-- A sequence of two bytes is decoded if its code point needs two. -/
theorem decode_two {a b : UInt8} {c : Char} (hlow : 0xC0 ≤ a.toNat) (hhigh : a.toNat < 0xE0)
    (hb : isContinuation b = true)
    (hc : charFrom 0x80 ((a.toNat - 0xC0) * 64 + (b.toNat - 0x80)) = some c)
    (bytes : List UInt8) : decode (a :: b :: bytes) = (decode bytes).map (c :: ·) := by
  rw [decode.eq_def]
  simp only [show ¬ a.toNat < 0x80 by omega, hlow, hhigh, hb, hc, if_false, if_true, decide_true,
    Bool.and_self, bind, Option.bind_some]
  cases decode bytes <;> rfl

/-- A sequence of three bytes is decoded if its code point needs three and is no surrogate. -/
theorem decode_three {a b c : UInt8} {d : Char} (hlow : 0xE0 ≤ a.toNat) (hhigh : a.toNat < 0xF0)
    (hb : isContinuation b = true) (hc : isContinuation c = true)
    (hd : charFrom 0x800
      ((a.toNat - 0xE0) * 4096 + (b.toNat - 0x80) * 64 + (c.toNat - 0x80)) = some d)
    (bytes : List UInt8) : decode (a :: b :: c :: bytes) = (decode bytes).map (d :: ·) := by
  rw [decode.eq_def]
  simp only [show ¬ a.toNat < 0x80 by omega, show ¬ a.toNat < 0xE0 by omega, hlow, hhigh, hb, hc,
    hd, if_false, if_true, decide_true, decide_false, Bool.and_self, Bool.and_false,
    Bool.false_eq_true, bind, Option.bind_some]
  cases decode bytes <;> rfl

/-- A sequence of four bytes is decoded if its code point needs four and is one. -/
theorem decode_four {a b c d : UInt8} {e : Char} (hlow : 0xF0 ≤ a.toNat) (hhigh : a.toNat < 0xF8)
    (hb : isContinuation b = true) (hc : isContinuation c = true) (hd : isContinuation d = true)
    (he : charFrom 0x10000 ((a.toNat - 0xF0) * 262144 + (b.toNat - 0x80) * 4096 +
      (c.toNat - 0x80) * 64 + (d.toNat - 0x80)) = some e)
    (bytes : List UInt8) : decode (a :: b :: c :: d :: bytes) = (decode bytes).map (e :: ·) := by
  rw [decode.eq_def]
  simp only [show ¬ a.toNat < 0x80 by omega, show ¬ a.toNat < 0xE0 by omega,
    show ¬ a.toNat < 0xF0 by omega, hlow, hhigh, hb, hc, hd, he, if_false, if_true, decide_true,
    decide_false, Bool.and_self, Bool.and_false, Bool.false_eq_true, bind, Option.bind_some]
  cases decode bytes <;> rfl

/-! ## Characters -/

/-- A character is a code point. -/
theorem toNat_lt (c : Char) : c.toNat < 0x110000 := by
  rcases c.valid with h | h
  · exact Nat.lt_trans h (by decide)
  · exact h.2

/-- The bytes of a character are read as the character, whatever follows. -/
theorem decode_encodeChar_append (c : Char) (bytes : List UInt8) :
    decode (encodeChar c ++ bytes) = (decode bytes).map (c :: ·) := by
  have hlarge := toNat_lt c
  rw [encodeChar]
  -- one, two, three or four bytes, by the size of the code point
  by_cases h₁ : c.toNat < 0x80
  · rw [if_pos h₁, List.singleton_append]
    have hbyte : (byte c.toNat).toNat = c.toNat := toNat_byte (by omega)
    rw [decode_one (by omega), hbyte, Char.ofNat_toNat]
  rw [if_neg h₁]
  have hlast : isContinuation (byte (0x80 + c.toNat % 64)) = true := isContinuation_byte (by omega)
  have hlast' : (byte (0x80 + c.toNat % 64)).toNat = 0x80 + c.toNat % 64 := toNat_byte (by omega)
  by_cases h₂ : c.toNat < 0x800
  · rw [if_pos h₂]
    have hfirst : (byte (0xC0 + c.toNat / 64)).toNat = 0xC0 + c.toNat / 64 := toNat_byte (by omega)
    refine decode_two (by omega) (by omega) hlast (charFrom_toNat ?_ ?_) bytes <;> omega
  rw [if_neg h₂]
  have hmiddle : isContinuation (byte (0x80 + c.toNat / 64 % 64)) = true :=
    isContinuation_byte (by omega)
  have hmiddle' : (byte (0x80 + c.toNat / 64 % 64)).toNat = 0x80 + c.toNat / 64 % 64 :=
    toNat_byte (by omega)
  by_cases h₃ : c.toNat < 0x10000
  · rw [if_pos h₃]
    have hfirst : (byte (0xE0 + c.toNat / 4096)).toNat = 0xE0 + c.toNat / 4096 :=
      toNat_byte (by omega)
    refine decode_three (by omega) (by omega) hmiddle hlast (charFrom_toNat ?_ ?_) bytes <;> omega
  rw [if_neg h₃]
  have hsecond : isContinuation (byte (0x80 + c.toNat / 4096 % 64)) = true :=
    isContinuation_byte (by omega)
  have hsecond' : (byte (0x80 + c.toNat / 4096 % 64)).toNat = 0x80 + c.toNat / 4096 % 64 :=
    toNat_byte (by omega)
  have hfirst : (byte (0xF0 + c.toNat / 262144)).toNat = 0xF0 + c.toNat / 262144 :=
    toNat_byte (by omega)
  refine decode_four (by omega) (by omega) hsecond hmiddle hlast (charFrom_toNat ?_ ?_) bytes <;>
    omega

/-! ## Sequences that can be read

Each kind of sequence is the spelling of the character that is read from it.
-/

/-- A byte of ASCII is what its character is encoded as. -/
theorem encodeChar_one {a : UInt8} (ha : a.toNat < 0x80) :
    encodeChar (Char.ofNat a.toNat) = [a] := by
  have hcode : (Char.ofNat a.toNat).toNat = a.toNat := by
    have hvalid : a.toNat.isValidChar := Or.inl (by omega)
    rw [Char.ofNat, dif_pos hvalid]
    rfl
  rw [encodeChar, hcode, if_pos ha, byte_eq a rfl]

/-- Two bytes are what the character that they stand for is encoded as. -/
theorem encodeChar_two {a b : UInt8} {c : Char} (hlow : 0xC0 ≤ a.toNat) (hhigh : a.toNat < 0xE0)
    (hb : isContinuation b = true)
    (hc : charFrom 0x80 ((a.toNat - 0xC0) * 64 + (b.toNat - 0x80)) = some c) :
    encodeChar c = [a, b] := by
  obtain ⟨hb₁, hb₂⟩ := isContinuation_iff.mp hb
  obtain ⟨hcode, hleast⟩ := toNat_of_charFrom hc
  unfold encodeChar
  rw [hcode, if_neg (by omega), if_pos (by omega), byte_eq a (by omega), byte_eq b (by omega)]

/-- So are three. -/
theorem encodeChar_three {a b c : UInt8} {d : Char} (hlow : 0xE0 ≤ a.toNat) (hhigh : a.toNat < 0xF0)
    (hb : isContinuation b = true) (hc : isContinuation c = true)
    (hd : charFrom 0x800
      ((a.toNat - 0xE0) * 4096 + (b.toNat - 0x80) * 64 + (c.toNat - 0x80)) = some d) :
    encodeChar d = [a, b, c] := by
  obtain ⟨hb₁, hb₂⟩ := isContinuation_iff.mp hb
  obtain ⟨hc₁, hc₂⟩ := isContinuation_iff.mp hc
  obtain ⟨hcode, hleast⟩ := toNat_of_charFrom hd
  unfold encodeChar
  rw [hcode, if_neg (by omega), if_neg (by omega), if_pos (by omega), byte_eq a (by omega),
    byte_eq b (by omega), byte_eq c (by omega)]

/-- So are four. -/
theorem encodeChar_four {a b c d : UInt8} {e : Char} (hlow : 0xF0 ≤ a.toNat)
    (hhigh : a.toNat < 0xF8)
    (hb : isContinuation b = true) (hc : isContinuation c = true) (hd : isContinuation d = true)
    (he : charFrom 0x10000 ((a.toNat - 0xF0) * 262144 + (b.toNat - 0x80) * 4096 +
      (c.toNat - 0x80) * 64 + (d.toNat - 0x80)) = some e) :
    encodeChar e = [a, b, c, d] := by
  obtain ⟨hb₁, hb₂⟩ := isContinuation_iff.mp hb
  obtain ⟨hc₁, hc₂⟩ := isContinuation_iff.mp hc
  obtain ⟨hd₁, hd₂⟩ := isContinuation_iff.mp hd
  obtain ⟨hcode, hleast⟩ := toNat_of_charFrom he
  unfold encodeChar
  rw [hcode, if_neg (by omega), if_neg (by omega), if_neg (by omega), byte_eq a (by omega),
    byte_eq b (by omega), byte_eq c (by omega), byte_eq d (by omega)]

/-- What is read from a sequence and from the bytes after it. -/
theorem exists_of_read {least n : Nat} {bytes : List UInt8} {t : Text}
    (h : (do
      let c ← charFrom least n
      return c :: (← decode bytes)) = some t) :
    ∃ c u, charFrom least n = some c ∧ decode bytes = some u ∧ t = c :: u := by
  obtain ⟨c, hc, hrest⟩ := Option.bind_eq_some_iff.mp h
  obtain ⟨u, hu, hpure⟩ := Option.bind_eq_some_iff.mp hrest
  exact ⟨c, u, hc, hu, (Option.some.inj hpure).symm⟩

/-! ## Texts -/

theorem encode_cons (c : Char) (t : Text) : encode (c :: t) = encodeChar c ++ encode t := rfl

/-- **Decoding undoes encoding.** -/
theorem decode_encode (t : Text) : decode (encode t) = some t := by
  induction t with
  | nil => rfl
  | cons c t ih => rw [encode_cons, decode_encodeChar_append, ih]; rfl

/-- **Encoding undoes decoding.** Bytes that can be read are the bytes of what is read. -/
theorem encode_of_decode {bytes : List UInt8} {t : Text} (h : decode bytes = some t) :
    encode t = bytes := by
  fun_induction decode bytes generalizing t with
  | case1 =>
    cases h
    rfl
  -- the four lengths of a sequence; in the other cases nothing is decoded
  | case2 a bytes ha ih =>
    obtain ⟨u, hu, rfl⟩ := Option.map_eq_some_iff.mp h
    rw [encode_cons, encodeChar_one ha, ih hu]
    rfl
  | case3 a hone htwo b bytes hb ih =>
    obtain ⟨c, u, hc, hu, rfl⟩ := exists_of_read h
    rw [Bool.and_eq_true, decide_eq_true_eq, decide_eq_true_eq] at htwo
    rw [encode_cons, encodeChar_two htwo.1 htwo.2 hb hc, ih hu]
    rfl
  | case6 a hone htwo hthree b c bytes hcontinued ih =>
    obtain ⟨d, u, hd, hu, rfl⟩ := exists_of_read h
    rw [Bool.and_eq_true, decide_eq_true_eq, decide_eq_true_eq] at hthree
    rw [Bool.and_eq_true] at hcontinued
    rw [encode_cons, encodeChar_three hthree.1 hthree.2 hcontinued.1 hcontinued.2 hd, ih hu]
    rfl
  | case9 a hone htwo hthree hfour b c d bytes hcontinued ih =>
    obtain ⟨e, u, he, hu, rfl⟩ := exists_of_read h
    rw [Bool.and_eq_true, decide_eq_true_eq, decide_eq_true_eq] at hfour
    rw [Bool.and_eq_true, Bool.and_eq_true] at hcontinued
    obtain ⟨⟨hb, hc⟩, hd⟩ := hcontinued
    rw [encode_cons, encodeChar_four hfour.1 hfour.2 hb hc hd he, ih hu]
    rfl
  | _ => cases h

/-- Bytes are read as a text exactly if they are its bytes. -/
theorem decode_eq_some_iff {bytes : List UInt8} {t : Text} :
    decode bytes = some t ↔ bytes = encode t := by
  constructor
  · exact fun h => (encode_of_decode h).symm
  · rintro rfl
    exact decode_encode t

/-! ## The standard encoding -/

/-- The bytes of a character are those that core gives it. -/
theorem encodeChar_eq_utf8EncodeChar (c : Char) : encodeChar c = String.utf8EncodeChar c := by
  have hlarge := toNat_lt c
  have hval : c.val.toNat = c.toNat := rfl
  simp only [encodeChar, String.utf8EncodeChar, hval, byte, Nat.add_comm _ (_ % 64)]
  by_cases h₁ : c.toNat < 0x80
  · rw [if_pos h₁, if_pos (show c.toNat ≤ 127 by omega)]
  rw [if_neg h₁, if_neg (show ¬ c.toNat ≤ 127 by omega)]
  by_cases h₂ : c.toNat < 0x800
  · rw [if_pos h₂, if_pos (show c.toNat ≤ 2047 by omega),
      Nat.mod_eq_of_lt (show c.toNat / 64 < 32 by omega), Nat.add_comm 0xC0]
  rw [if_neg h₂, if_neg (show ¬ c.toNat ≤ 2047 by omega)]
  by_cases h₃ : c.toNat < 0x10000
  · rw [if_pos h₃, if_pos (show c.toNat ≤ 65535 by omega),
      Nat.mod_eq_of_lt (show c.toNat / 4096 < 16 by omega), Nat.add_comm 0xE0]
  rw [if_neg h₃, if_neg (show ¬ c.toNat ≤ 65535 by omega),
    Nat.mod_eq_of_lt (show c.toNat / 262144 < 8 by omega), Nat.add_comm 0xF0]

/-- The bytes of a text are those of the standard library. -/
theorem encode_eq_utf8Encode (t : Text) : encode t = t.utf8Encode.data.toList := by
  rw [List.utf8Encode, List.toList_data_toByteArray, encode]
  exact congrArg (List.flatMap · t) (funext encodeChar_eq_utf8EncodeChar)

end SetupCatalog.Text.Utf8
