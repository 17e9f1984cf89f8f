import SetupCatalog.Disk.Decoding
import SetupCatalog.Proofs.Disk.Store
import SetupCatalog.Proofs.Text.Unified
import SetupCatalog.Proofs.Text.Utf8

/-!
# What a file reads as

A script is a file in UTF-8, and the bytes of a byte-order mark at its start are left out.
`readOrRemark_of_read` goes through all byte strings. The bytes of a text are read as the text, but
for one mark at its start and with a line feed in the place of every line break, and nothing is
remarked. Any other bytes give nothing and one remark, except the two that break off inside of a
mark: such a file reads as empty.

Three kinds of bytes have to be told apart before they are decoded (`withoutMark_cases`): those that
break off inside of a mark, those that start with one, and those that leaving out a mark does not
change. For the bytes of a text the second kind are those of a text that starts with the character
of the mark (`withoutMark_encode`).
-/

namespace SetupCatalog

open Text Text.Utf8

/-- A text without a byte-order mark at its start. -/
def Text.dropMark : Text → Text
  | '\uFEFF' :: t => t
  | t => t

/-- A text that does not start with the mark keeps its first character. -/
theorem Text.dropMark_of_head? {t : Text} (h : t.head? ≠ some '\uFEFF') : dropMark t = t := by
  unfold dropMark
  split
  · exact absurd rfl h
  · rfl

namespace Encoding

/-- Bytes that break off inside of a byte-order mark. -/
def BreaksOffInMark (bytes : List UInt8) : Prop :=
  bytes = [0xEF] ∨ bytes = [0xEF, 0xBB]

/-- The mark's bytes are dropped from the front. -/
theorem withoutMark_append (bytes : List UInt8) : withoutMark (mark ++ bytes) = bytes := by
  cases bytes <;> rfl

/-- Bytes break off inside of a mark, or start with one, or have none to leave out. -/
theorem withoutMark_cases (bytes : List UInt8) :
    BreaksOffInMark bytes ∨ (∃ rest, bytes = mark ++ rest) ∨ withoutMark bytes = bytes := by
  by_cases hshort : bytes.isPrefixOf mark = true
  · have hprefix := List.isPrefixOf_iff_prefix.mp hshort
    simp only [mark, List.prefix_cons_iff, List.prefix_nil] at hprefix
    rcases hprefix with rfl | ⟨_, rfl, rfl | ⟨_, rfl, rfl | ⟨_, rfl, rfl⟩⟩⟩
    · exact Or.inr (Or.inr rfl)
    · exact Or.inl (Or.inl rfl)
    · exact Or.inl (Or.inr rfl)
    · exact Or.inr (Or.inl ⟨[], rfl⟩)
  · by_cases hmark : mark.isPrefixOf bytes = true
    · obtain ⟨rest, hrest⟩ := List.isPrefixOf_iff_prefix.mp hmark
      exact Or.inr (Or.inl ⟨rest, hrest.symm⟩)
    · right
      right
      rw [withoutMark, if_neg hshort, if_neg hmark]

/-- The bytes of a mark are those of its character. -/
theorem encode_mark_cons (t : Text) : encode ('\uFEFF' :: t) = mark ++ encode t := rfl

/-- No text is written as the first bytes of a mark alone: those bytes are no characters. -/
theorem not_breaksOffInMark_encode (t : Text) : ¬ BreaksOffInMark (encode t) := by
  have hdecode := decode_encode t
  rintro (h | h) <;> rw [h] at hdecode <;> cases hdecode

/-- Leaving out the mark of the bytes is leaving out the mark of the text. -/
theorem withoutMark_encode (t : Text) : withoutMark (encode t) = encode (dropMark t) := by
  by_cases hmark : t.head? = some '\uFEFF'
  · obtain ⟨u, rfl⟩ := List.head?_eq_some_iff.mp hmark
    exact withoutMark_append (encode u)
  · rw [dropMark_of_head? hmark]
    rcases withoutMark_cases (encode t) with hshort | ⟨rest, hrest⟩ | hsame
    · exact absurd hshort (not_breaksOffInMark_encode t)
    · -- then the text that is read starts with the character of the mark
      have hdecode := decode_encode t
      have hfirst : Utf8.decode (mark ++ rest) = (Utf8.decode rest).map ('\uFEFF' :: ·) :=
        decode_encodeChar_append '\uFEFF' rest
      rw [hrest, hfirst] at hdecode
      obtain ⟨u, -, rfl⟩ := Option.map_eq_some_iff.mp hdecode
      exact absurd rfl hmark
    · exact hsame

/-- A text's bytes are read back without a mark at the front. -/
theorem decode_encode_markedUtf8 (t : Text) : markedUtf8.decode (encode t) = some (dropMark t) := by
  rw [Encoding.decode, withoutMark_encode, decode_encode]

/-- Bytes that break off inside the mark are read as nothing, and not as a fault. -/
theorem decode_of_breaksOffInMark {bytes : List UInt8} (h : BreaksOffInMark bytes) :
    markedUtf8.decode bytes = some [] := by
  rcases h with rfl | rfl <;> rfl

/-- Bytes of no text cannot be read, with or without a mark. -/
theorem decode_eq_none_of_forall_ne {bytes : List UInt8} (h : ∀ t, bytes ≠ encode t)
    (hmark : ¬ BreaksOffInMark bytes) : markedUtf8.decode bytes = none := by
  rw [Encoding.decode, Option.eq_none_iff_forall_ne_some]
  intro t ht
  have hrest := decode_eq_some_iff.mp ht
  rcases withoutMark_cases bytes with hshort | ⟨rest, rfl⟩ | hsame
  · exact hmark hshort
  · rw [withoutMark_append] at hrest
    rw [hrest] at h
    exact h ('\uFEFF' :: t) (encode_mark_cons t).symm
  · exact h t (hsame.symm.trans hrest)

end Encoding

/-- A file that can be read has that content. -/
theorem Disk.content_of_read {disk : Disk} {p : WrittenPath} {bytes : List UInt8}
    (hread : disk.read p = .ok bytes) : disk.content p = .ok bytes := by
  rw [Disk.content, hread]
  rfl

/-- A file with the bytes of a text is read as this text, with one kind of line break. -/
theorem Disk.readText_of_encode {disk : Disk} {p : WrittenPath} {t : Text}
    (hread : disk.read p = .ok (encode t)) (hmark : t.head? ≠ some '\uFEFF') :
    disk.readText p .markedUtf8 = .ok (unifyBreaks t) := by
  have hdecode := Encoding.decode_encode_markedUtf8 t
  rw [dropMark_of_head? hmark] at hdecode
  simp only [Disk.readText, Encoding.textOf, Disk.content_of_read hread, hdecode]

/-- **What a file reads as.** The bytes of a text are read as the text without a byte-order mark at
its start, if it has one, and with a line feed in the place of every line break; no remark is added.
All other bytes give nothing and one remark that names the path, but for the two that break off
inside of a mark, which read as an empty text. -/
theorem Disk.readOrRemark_of_read {disk : Disk} {p : WrittenPath} {bytes : List UInt8}
    (hread : disk.read p = .ok bytes) (remarks : List Text) :
    (∀ t : Text, bytes = t.utf8Encode.data.toList →
      ∃ u, Unifies (dropMark t) u ∧
        disk.readOrRemark p .markedUtf8 remarks = (some u, remarks)) ∧
    ((∀ t : Text, bytes ≠ t.utf8Encode.data.toList) → bytes ≠ [0xEF] → bytes ≠ [0xEF, 0xBB] →
      disk.readOrRemark p .markedUtf8 remarks =
        (none, remarks ++ ["Could not decode file (not utf-8-sig): ".toList ++ p.text])) ∧
    (bytes = [0xEF] ∨ bytes = [0xEF, 0xBB] →
      disk.readOrRemark p .markedUtf8 remarks = (some [], remarks)) := by
  have hcontent := Disk.content_of_read hread
  -- the bytes of a text, the bytes of none, and the two that break off inside of a mark
  refine ⟨fun t ht => ?_, fun hnone hone htwo => ?_, fun hshort => ?_⟩
  · rw [← encode_eq_utf8Encode] at ht
    subst ht
    refine ⟨_, unifies_iff.mpr rfl, ?_⟩
    simp only [Disk.readOrRemark, Encoding.textOrRemark, Encoding.textOf, hcontent,
      Encoding.decode_encode_markedUtf8]
  · have hbytes : ∀ t, bytes ≠ encode t := fun t => encode_eq_utf8Encode t ▸ hnone t
    have hdecode := Encoding.decode_eq_none_of_forall_ne hbytes (not_or.mpr ⟨hone, htwo⟩)
    simp only [Disk.readOrRemark, Encoding.textOrRemark, Encoding.textOf, hcontent, hdecode]
    rfl
  · simp only [Disk.readOrRemark, Encoding.textOrRemark, Encoding.textOf, hcontent,
      Encoding.decode_of_breaksOffInMark hshort]
    rfl

/-- A disk with nothing but one file at its top. -/
def Disk.ofFile (bytes : List UInt8) : Disk :=
  ⟨.file "a.ps1".toList bytes .empty, []⟩

/-- The one file of the sample disk reads as its bytes. -/
theorem Disk.read_ofFile (bytes : List UInt8) :
    (Disk.ofFile bytes).read (.ofLocation ["a.ps1".toList]) = .ok bytes := by
  have hlink : ∀ target, (Disk.ofFile bytes).top.get? "a.ps1".toList ≠ some (.link target) := by
    simp [Disk.ofFile, Folder.get?]
  have hlocate : (Disk.ofFile bytes).locate (.ofLocation ["a.ps1".toList]) =
      .ok ["a.ps1".toList] :=
    Disk.locate_name rfl (by decide) (by decide) (by decide) (by decide) hlink
  rw [Disk.read, hlocate]
  rfl

/-- Of two marks the second one stays, and so do the line breaks in their places. A zero that is
spelt with two bytes is no text. -/
theorem Disk.readOrRemark_of_read_samples :
    let p := WrittenPath.ofLocation ["a.ps1".toList]
    let marked := "\uFEFF\uFEFFa\r\r\nb".toList
    (Disk.ofFile marked.utf8Encode.data.toList).readOrRemark p .markedUtf8 ["old".toList] =
        (some "\uFEFFa\n\nb".toList, ["old".toList]) ∧
      (Disk.ofFile [0xC0, 0x80]).readOrRemark p .markedUtf8 ["old".toList] =
        (none, ["old".toList, "Could not decode file (not utf-8-sig): /a.ps1".toList]) ∧
      (Disk.ofFile [0xEF, 0xBB]).readOrRemark p .markedUtf8 ["old".toList] =
        (some [], ["old".toList]) := by
  intro p marked
  refine ⟨?_, ?_, ?_⟩
  · obtain ⟨u, hu, hread⟩ := (Disk.readOrRemark_of_read (read_ofFile _) _).1 marked rfl
    rw [hread, unifies_iff.mp hu]
    rfl
  · -- two bytes for one code point below 128 are no text
    have hnone : ∀ t : Text, [0xC0, 0x80] ≠ t.utf8Encode.data.toList := by
      intro t ht
      have hdecode : Utf8.decode [0xC0, 0x80] = none := by decide
      rw [ht, ← encode_eq_utf8Encode, decode_encode] at hdecode
      cases hdecode
    exact (Disk.readOrRemark_of_read (read_ofFile _) _).2.1 hnone (by decide) (by decide)
  · exact (Disk.readOrRemark_of_read (read_ofFile _) _).2.2 (Or.inr rfl)

end SetupCatalog
