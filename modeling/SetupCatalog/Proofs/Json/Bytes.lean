import SetupCatalog.Json.Bytes
import SetupCatalog.Json.Writer
import SetupCatalog.Proofs.Json.Reading
import SetupCatalog.Proofs.Text.Utf8

/-!
# Documents in UTF-8

A document that is sent in UTF-8, without a byte-order mark, is read as the text that it is
(`documentText_encode`). The encoding is told by the first bytes: in UTF-8 neither of the first two
is zero, if the document starts with two characters of ASCII, as every array and every object does.
Replacing surrogates changes nothing, because UTF-8 never writes one.
-/

namespace SetupCatalog.Json

open Text

/-! ## Surrogates -/

/-- A byte that no surrogate starts with stays. -/
theorem withoutSurrogates_cons {b : UInt8} (h : b ≠ 0xED) (bytes : List UInt8) :
    withoutSurrogates (b :: bytes) = b :: withoutSurrogates bytes := by
  rw [withoutSurrogates.eq_2 _ _ fun _ _ _ heq => absurd heq h]

/-- So does the first of three bytes, unless the second one is that of a surrogate. -/
theorem withoutSurrogates_three {a b : UInt8} (h : a = 0xED → b.toNat < 0xA0) (c : UInt8)
    (bytes : List UInt8) :
    withoutSurrogates (a :: b :: c :: bytes) = a :: withoutSurrogates (b :: c :: bytes) := by
  by_cases ha : a = 0xED
  · subst ha
    have hb := h rfl
    rw [withoutSurrogates, if_neg]
    simp only [Bool.and_eq_true, decide_eq_true_eq]
    omega
  · exact withoutSurrogates_cons ha _

/-- No character is written as a surrogate. -/
theorem withoutSurrogates_encodeChar_append (c : Char) (bytes : List UInt8) :
    withoutSurrogates (Utf8.encodeChar c ++ bytes) =
      Utf8.encodeChar c ++ withoutSurrogates bytes := by
  have hlarge := Utf8.toNat_lt c
  have hother : ∀ {n : Nat}, n < 256 → n ≠ 0xED → ∀ bytes,
      withoutSurrogates (Utf8.byte n :: bytes) = Utf8.byte n :: withoutSurrogates bytes := by
    intro n hn hne bytes
    refine withoutSurrogates_cons (fun heq => hne ?_) bytes
    rw [← Utf8.toNat_byte hn, heq]
    rfl
  rw [Utf8.encodeChar]
  by_cases h₁ : c.toNat < 0x80
  · simp only [if_pos h₁, List.singleton_append]
    exact hother (by omega) (by omega) bytes
  by_cases h₂ : c.toNat < 0x800
  · simp only [if_neg h₁, if_pos h₂, List.cons_append, List.nil_append]
    rw [hother (by omega) (by omega), hother (by omega) (by omega)]
  by_cases h₃ : c.toNat < 0x10000
  · simp only [if_neg h₁, if_neg h₂, if_pos h₃, List.cons_append, List.nil_append]
    rw [withoutSurrogates_three, hother (by omega) (by omega), hother (by omega) (by omega)]
    -- the characters with this first byte end where the surrogates begin
    intro hlead
    have hfirst : 0xE0 + c.toNat / 4096 = 0xED := by
      rw [← Utf8.toNat_byte (show 0xE0 + c.toNat / 4096 < 256 by omega), hlead]
      rfl
    rw [Utf8.toNat_byte (by omega)]
    rcases c.valid with hvalid | hvalid
    · have : c.toNat < 0xD800 := hvalid
      omega
    · have : 0xDFFF < c.toNat := hvalid.1
      omega
  · simp only [if_neg h₁, if_neg h₂, if_neg h₃, List.cons_append, List.nil_append]
    rw [hother (by omega) (by omega), hother (by omega) (by omega), hother (by omega) (by omega),
      hother (by omega) (by omega)]

/-- So a text in UTF-8 has nothing to be replaced. -/
theorem withoutSurrogates_encode (t : Text) :
    withoutSurrogates (Utf8.encode t) = Utf8.encode t := by
  induction t with
  | nil => rfl
  | cons c t ih => rw [Utf8.encode_cons, withoutSurrogates_encodeChar_append, ih]

/-! ## The encoding -/

/-- A byte of ASCII that is not zero starts no byte-order mark. -/
theorem find?_documentMarks_eq_none {a : UInt8} (hpos : 0 < a.toNat) (hascii : a.toNat < 0x80)
    (bytes : List UInt8) :
    documentMarks.find? (fun entry => entry.1.isPrefixOf (a :: bytes)) = none := by
  have hleads : documentMarks.all (fun entry =>
      entry.1.head?.any fun k => k.toNat == 0 || Nat.ble 0x80 k.toNat) = true := by
    decide
  rw [List.find?_eq_none]
  intro entry hentry hstarts
  obtain ⟨k, hhead, hk⟩ := (Option.any_eq_true _ _).mp (List.all_eq_true.mp hleads entry hentry)
  obtain ⟨mark, hmark⟩ := List.head?_eq_some_iff.mp hhead
  rw [hmark, List.isPrefixOf_iff_prefix, List.cons_prefix_cons] at hstarts
  rw [hstarts.1, Bool.or_eq_true, beq_iff_eq, Nat.ble_eq] at hk
  omega

/-- Without a zero among the first two bytes a document is in UTF-8. -/
theorem unmarkedEncoding_cons_cons {a b : UInt8} (ha : 0 < a.toNat) (hb : 0 < b.toNat)
    (bytes : List UInt8) : unmarkedEncoding (a :: b :: bytes) = .utf8 := by
  have hzero : ∀ {k : UInt8}, 0 < k.toNat → k ≠ 0 := by
    rintro k hk rfl
    exact absurd hk (by decide)
  -- four bytes, two, and three, which tell nothing
  rcases bytes with _ | ⟨c, _ | ⟨d, bytes⟩⟩
  · rw [unmarkedEncoding, if_neg (hzero ha), if_neg (hzero hb)]
  · rfl
  · rw [unmarkedEncoding, if_neg (hzero ha), if_neg (hzero hb)]

/-- Bytes of which the first is ASCII and the second is not zero are taken for UTF-8. -/
theorem encodingOf_cons_cons {a b : UInt8} (hpos : 0 < a.toNat) (hascii : a.toNat < 0x80)
    (hb : 0 < b.toNat) (bytes : List UInt8) :
    encodingOf (a :: b :: bytes) = (.utf8, a :: b :: bytes) := by
  rw [encodingOf, find?_documentMarks_eq_none hpos hascii, unmarkedEncoding_cons_cons hpos hb]

/-- A text starts with two characters of ASCII, neither of them zero. -/
def StartsAscii (t : Text) : Prop :=
  ∃ c d u, t = c :: d :: u ∧ (0 < c.toNat ∧ c.toNat < 0x80) ∧ 0 < d.toNat ∧ d.toNat < 0x80

/-- A document in UTF-8 is read as the text that it is. -/
theorem documentText_encode {t : Text} (h : StartsAscii t) :
    documentText (Utf8.encode t) = some t := by
  obtain ⟨c, d, u, rfl, ⟨hc, hascii⟩, hd, hascii'⟩ := h
  have hbyte : ∀ {e : Char}, e.toNat < 0x80 → Utf8.encodeChar e = [Utf8.byte e.toNat] := by
    intro e he
    rw [Utf8.encodeChar]
    exact if_pos he
  have hencode : Utf8.encode (c :: d :: u) =
      Utf8.byte c.toNat :: Utf8.byte d.toNat :: Utf8.encode u := by
    rw [Utf8.encode_cons, Utf8.encode_cons, hbyte hascii, hbyte hascii']
    rfl
  have hutf8 : encodingOf (Utf8.encode (c :: d :: u)) = (.utf8, Utf8.encode (c :: d :: u)) := by
    rw [hencode]
    apply encodingOf_cons_cons <;> rw [Utf8.toNat_byte (by omega)] <;> assumption
  rw [documentText, hutf8]
  dsimp only
  rw [withoutSurrogates_encode, Utf8.decode_encode]

/-- **A document in UTF-8 has the value that it denotes**, if not too much is nested in it. -/
theorem readBytes_encode {levels : Nat} {t : Text} {v : Json} (hstart : StartsAscii t)
    (h : Denotes (some maxDigits) t v) (hfits : FitsIn levels v) :
    readBytes levels (Utf8.encode t) = .ok v := by
  rw [readBytes, documentText_encode hstart]
  exact read_of_denotes h hfits

/-- An array or an object starts with a bracket, and a character of ASCII comes after it. -/
theorem startsAscii_write_object (indent : Option Int) (name : Text) (v : Json)
    (fields : List (Text × Json)) : StartsAscii (write indent (.object ((name, v) :: fields))) := by
  rw [write, writeAt]
  cases indent with
  | none => exact ⟨'{', '"', _, rfl, by decide⟩
  | some width => exact ⟨'{', '\n', _, rfl, by decide⟩

end SetupCatalog.Json
