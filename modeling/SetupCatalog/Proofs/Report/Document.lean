import Mathlib.Algebra.Group.Nat.Defs
import SetupCatalog.Proofs.Json.Writing
import SetupCatalog.Report.Document

/-!
# A document is its report

The JSON document of a report is a text in ASCII alone that denotes the report and nothing else,
with every field and every item in its place (`denotes_document`). That holds for texts of any
characters and for every indentation, so a reader that keeps to the grammar of JSON gets the report
back. `Json.read?` is such a reader, except that it takes whole numbers of at most `maxDigits`
digits.
-/

namespace SetupCatalog

open Text

namespace Summary

/-- A summary has only numbers in it that are at most the number of packages. -/
theorem standard_toJson {limit : Option Nat} {outcomes : List Outcome}
    (hcounts : ∀ n ≤ outcomes.length, Json.accepts limit (ofNat n).length = true) :
    Json.Standard limit (ofOutcomes outcomes).toJson := by
  have hint : ∀ n ≤ outcomes.length, Json.Standard limit (.int n) := fun n hn => .int (hcounts n hn)
  apply Json.Standard.object
  intro field hfield
  simp only [List.mem_cons, List.not_mem_nil, or_false] at hfield
  rcases hfield with rfl | rfl | rfl
  · exact hint outcomes.length (Nat.le_refl _)
  · apply Json.Standard.object
    intro count hcount
    simp only [ofOutcomes, List.map_map, List.mem_map] at hcount
    obtain ⟨status, -, rfl⟩ := hcount
    exact hint _ List.countP_le_length
  · apply Json.Standard.object
    intro count hcount
    simp only [ofOutcomes, List.map_map, List.mem_map] at hcount
    obtain ⟨installer, -, rfl⟩ := hcount
    exact hint _ List.countP_le_length

end Summary

/-- A package has only texts in it. -/
theorem Outcome.standard_toJson (limit : Option Nat) (o : Outcome) :
    Json.Standard limit o.toJson := by
  apply Json.Standard.object
  intro field hfield
  obtain ⟨s, hs⟩ : ∃ s, field.2 = .text s := by
    simp only [Package.fields, List.cons_append, List.nil_append, List.mem_cons, List.not_mem_nil,
      or_false] at hfield
    rcases hfield with rfl | rfl | rfl | rfl | rfl | rfl | rfl | rfl <;> exact ⟨_, rfl⟩
  rw [hs]
  exact .text s

namespace Report

/-- A report is a standard value if each of its counts has a length that the reader takes. -/
theorem standard_toJson {limit : Option Nat} {outcomes : List Outcome}
    (hcounts : ∀ n ≤ outcomes.length, Json.accepts limit (ofNat n).length = true)
    (remarks : List Text) : Json.Standard limit (toJson outcomes remarks) := by
  apply Json.Standard.object
  intro field hfield
  simp only [List.mem_cons, List.not_mem_nil, or_false] at hfield
  rcases hfield with rfl | rfl | rfl
  · exact Summary.standard_toJson hcounts
  · apply Json.Standard.array
    intro item hitem
    obtain ⟨o, -, rfl⟩ := List.mem_map.mp hitem
    exact o.standard_toJson limit
  · apply Json.Standard.array
    intro item hitem
    obtain ⟨remark, -, rfl⟩ := List.mem_map.mp hitem
    exact .text remark

/-- **A document is its report.** Whatever the packages and the remarks are and however the document
is indented, it is in ASCII alone and denotes the report, and no other value. The reader finds the
report in it, if the number of packages is one that it can read. -/
theorem denotes_document (outcomes : List Outcome) (remarks : List Text) (indent : Option Int) :
    (∀ c ∈ document outcomes remarks indent, c.toNat < 128) ∧
    (∀ v, Json.Denotes none (document outcomes remarks indent) v ↔ v = toJson outcomes remarks) ∧
    (outcomes.length < 10 ^ maxDigits →
      Json.read? (document outcomes remarks indent) = some (toJson outcomes remarks)) := by
  have hstandard : Json.Standard none (toJson outcomes remarks) :=
    standard_toJson (fun _ _ => rfl) remarks
  have hdenotes := Json.denotes_write hstandard indent
  refine ⟨Json.isAscii_write hstandard indent, fun v => ⟨fun h => h.unique hdenotes, ?_⟩, ?_⟩
  · rintro rfl
    exact hdenotes
  · intro hcount
    apply Json.read?_of_denotes
    apply Json.denotes_write
    apply standard_toJson
    intro n hn
    have hdigits : (Nat.toDigits 10 n).length ≤ maxDigits :=
      (Nat.length_toDigits_le_iff (by decide) (by decide)).mpr (Nat.lt_of_le_of_lt hn hcount)
    exact decide_eq_true hdigits

/-- A package whose name needs escapes, and one that is on the skip list. -/
def sampleOutcomes : List Outcome :=
  [{ package := { name := "\"😀\"".toList, id := "X.Y".toList, installer := .winget,
                  script := "a\\b.ps1".toList } },
    { package := { name := "wsl2".toList, id := "wsl2".toList, installer := .choco,
                   script := "c.ps1".toList }
      status := .untested, note := "Requires a reboot".toList }]

/-- A report on two packages, with a remark that has to be escaped. -/
theorem read?_document_remark :
    sampleOutcomes.length < 10 ^ maxDigits ∧
      Json.read? (document sampleOutcomes ["\"😀\"\n".toList] (some 2)) =
        some (toJson sampleOutcomes ["\"😀\"\n".toList]) := by
  have hcount : sampleOutcomes.length < 10 ^ maxDigits :=
    calc 2 < 10 ^ 1 := by decide
      _ ≤ 10 ^ maxDigits := Nat.pow_le_pow_right (by decide) (by decide)
  exact ⟨hcount, (denotes_document sampleOutcomes ["\"😀\"\n".toList] (some 2)).2.2 hcount⟩

end Report

end SetupCatalog
