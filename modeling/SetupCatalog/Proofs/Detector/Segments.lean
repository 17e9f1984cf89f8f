import Mathlib.Data.List.Nodup
import SetupCatalog.Proofs.Detector.Scan
import SetupCatalog.Proofs.Rule.Shape

/-!
# The segments of a scan

The packages that every rule together finds come in segments, one for each rule, in the order of the
rules. Segments are not cut out of the result afterwards, which would not be possible: a record of
Chocolatey may come from a container, from a piped array or from a line of its own. A segment is
what a rule adds to the ones before it.

`packagesOf_segments` is the main statement. The sideload segment is the one whose length is known:
no other rule hands out the installer of sideloads, so the keys seen by then cannot stand in its
way.
-/

namespace SetupCatalog

open Text Pattern

/-! ## What a rule adds -/

/-- The rules that are applied before a rule. -/
def Rule.earlier (rule : Rule) : List Rule :=
  Rule.all.takeWhile fun other => other != rule

/-- What a rule adds to the packages that the earlier rules have found. -/
def segmentOf (script text : Text) (options : ScanOptions) (rule : Rule) : List Package :=
  newPackages
    (seenAfter [] (rule.earlier.flatMap fun other => other.candidates options script text))
    (rule.candidates options script text)

/-- A walk over what several rules recognise is one walk for each rule, where each starts with the
keys that the rules before it have recognised. -/
theorem newPackages_flatMap (found : Rule → List Package) (done rules : List Rule)
    (h : (done ++ rules).Nodup) :
    newPackages (seenAfter [] (done.flatMap found)) (rules.flatMap found) =
      rules.flatMap fun rule =>
        newPackages
          (seenAfter [] (((done ++ rules).takeWhile fun other => other != rule).flatMap found))
          (found rule) := by
  induction rules generalizing done with
  | nil => rfl
  | cons rule rules ih =>
    have hsplit : done ++ rule :: rules = (done ++ [rule]) ++ rules := by
      rw [List.append_assoc, List.singleton_append]
    have hbefore : (done ++ rule :: rules).takeWhile (fun other => other != rule) = done := by
      have hdone : ∀ other ∈ done, (other != rule) = true := by
        intro other hother
        rw [bne_iff_ne]
        exact (List.nodup_append.mp h).2.2 other hother rule List.mem_cons_self
      rw [List.takeWhile_append_of_pos hdone, List.takeWhile_cons_of_neg (by simp),
        List.append_nil]
    -- the keys of the rule join those of the rules before it
    have hseen : seenAfter (seenAfter [] (done.flatMap found)) (found rule) =
        seenAfter [] ((done ++ [rule]).flatMap found) := by
      rw [List.flatMap_append, seenAfter_append, List.flatMap_singleton]
    rw [List.flatMap_cons, newPackages_append, List.flatMap_cons, hbefore, hseen, hsplit]
    rw [ih (done ++ [rule]) (hsplit ▸ h)]

/-- The packages found are the segments of the rules, one after the other. -/
theorem packagesOf_eq_segments (script text : Text) (options : ScanOptions) :
    packagesOf script text options = Rule.all.flatMap (segmentOf script text options) := by
  rw [packagesOf_eq]
  exact newPackages_flatMap (fun rule => rule.candidates options script text) [] Rule.all
    (by decide)

/-- A rule's segment holds only what the rule recognises. -/
theorem mem_segmentOf {script text : Text} {options : ScanOptions} {rule : Rule} {p : Package}
    (h : p ∈ segmentOf script text options rule) : p ∈ rule.candidates options script text :=
  (mem_newPackages h).1

/-! ## The sideload segment -/

namespace Rule.Sideload

/-- A text contains the call that sideloads a package: the word `Add-AppxPackage` in any letter
case, with no word character before or after it. -/
def Marked (text : Text) : Prop :=
  ∃ before word after, text = before ++ word ++ after ∧ Spells "Add-AppxPackage".toList word ∧
    wordStarts before.getLast? = true ∧ wordEnds after = true

/-- The marker occurs exactly in a marked text. -/
theorem occursIn_marker_iff {text : Text} : marker.occursIn text = true ↔ Marked text := by
  rw [occursIn_iff]
  simp only [marker, bind, Option.bind_eq_some_iff, Option.guard_eq_some', exists_const, pure,
    keyword_eq_some_iff]
  constructor
  · rintro ⟨before, rest, a, after, rfl, hstart, after', ⟨word, hword, rfl⟩, hend, -⟩
    exact ⟨before, word, after', (List.append_assoc _ _ _).symm, hword, hstart, hend⟩
  · rintro ⟨before, word, after, rfl, hword, hstart, hend⟩
    exact ⟨before, word ++ after, (), after, List.append_assoc _ _ _, hstart, after,
      ⟨word, hword, rfl⟩, hend, rfl⟩

instance (text : Text) : Decidable (Marked text) :=
  decidable_of_iff _ occursIn_marker_iff

example : Marked "try { add-appxpackage -Path $p }".toList := by decide

example : ¬ Marked "Add-AppxPackages".toList := by decide

/-- The rule recognises one package in a marked text, and none in any other. -/
theorem length_candidates (options : ScanOptions) (script text : Text) :
    (candidates options script text).length = if Marked text then 1 else 0 := by
  have hmarked : Marked text ↔ (marker.first? text).isSome = true := occursIn_marker_iff.symm
  rw [candidates]
  cases hfirst : marker.first? text with
  | none =>
    rw [hfirst] at hmarked
    rw [if_neg (hmarked.not.mpr Bool.false_ne_true)]
    rfl
  | some hit =>
    rw [hfirst] at hmarked
    rw [if_pos (hmarked.mpr rfl)]
    rfl

/-- The rule adds all that it recognises: there is at most one package, and its key is that of a
sideload, which no earlier rule has seen. -/
theorem segmentOf_eq (script text : Text) (options : ScanOptions) :
    segmentOf script text options .sideload = candidates options script text := by
  refine newPackages_of_fresh ?_ ?_
  · show ((candidates options script text).map Package.key).Nodup
    rw [candidates]
    cases marker.first? text with
    | none => exact List.nodup_nil
    | some hit => exact List.nodup_singleton _
  · intro p hp hseen
    rcases key_mem_seenAfter_iff.mp hseen with hseen | ⟨q, hq, hkey⟩
    · cases hseen
    · obtain ⟨rule, hrule, hq⟩ := List.mem_flatMap.mp hq
      have hp' : p.installer = .sideload := List.mem_singleton.mp (shape_of_mem_candidates hp).1
      have hq' : q.installer = .sideload := (Package.key_eq_iff.mp hkey).1.trans hp'
      have hmem := (shape_of_mem_candidates hq).1
      rw [hq'] at hmem
      rw [eq_sideload_of_mem_installers hmem] at hrule
      exact absurd hrule (by decide)

end Rule.Sideload

/-! ## The whole -/

/-- **What is found is well formed.** The packages found in a script are six segments in the order
of the rules. What stands in a segment is recognised by its rule and has the shape of the rule. The
sideload segment holds at most one package, and holds one exactly if the script is marked. Every
package is sound and has an install command. -/
theorem packagesOf_segments (script text : Text) (options : ScanOptions) :
    let segment := segmentOf script text options
    packagesOf script text options =
      segment .container ++ segment .pipedArray ++ segment .choco ++ segment .winget ++
        segment .psModule ++ segment .sideload ∧
    (∀ rule, ∀ p ∈ segment rule, p ∈ rule.candidates options script text ∧ rule.Shape p) ∧
    ((segment .sideload).length ≤ 1 ∧
      ((segment .sideload).length = 1 ↔ Rule.Sideload.Marked text)) ∧
    ∀ p ∈ packagesOf script text options,
      p.Sound script ∧ ∃ command, p.installCommand = .ok command := by
  intro segment
  refine ⟨?_, ?_, ?_, ?_⟩
  · rw [packagesOf_eq_segments]
    simp [Rule.all, segment]
  · intro rule p hp
    have hcandidate := mem_segmentOf hp
    exact ⟨hcandidate, Rule.shape_of_mem_candidates hcandidate⟩
  · have hlength : (segment .sideload).length = if Rule.Sideload.Marked text then 1 else 0 := by
      show (segmentOf script text options .sideload).length = _
      -- no earlier rule gives a sideload, so none of its candidates is dropped
      rw [Rule.Sideload.segmentOf_eq, Rule.Sideload.length_candidates]
    rw [hlength]
    split
    · next hmarked => exact ⟨Nat.le_refl 1, iff_of_true rfl hmarked⟩
    · next hmarked => exact ⟨Nat.zero_le 1, iff_of_false Nat.zero_ne_one hmarked⟩
  · intro p hp
    rw [packagesOf_eq_segments] at hp
    obtain ⟨rule, -, hp⟩ := List.mem_flatMap.mp hp
    have hsound := Rule.sound_of_mem_candidates (mem_segmentOf hp)
    exact ⟨hsound, hsound.exists_installCommand⟩

end SetupCatalog
