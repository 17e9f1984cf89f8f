import SetupCatalog.Proofs.Detector.Scan

/-!
# The earlier detector wins

A scan is one walk over all that the detectors of a line-up recognise, in their order, so the facts
about such walks carry over: each pair of installer and identity is listed once, by the record of
the earliest detector that recognises it.

`scan_firstWins` is the main statement. Its first half is about a single detector and any keys seen
before it, its second half about any line-up at all, with rules repeated or in another order, each
with options of its own.
-/

namespace SetupCatalog

/-- Whether a record stands for the given installer and identity. -/
def Package.declares (installer : Installer) (id : Text) (p : Package) : Bool :=
  p.installer = installer ∧ p.id = id

/-- A record declares an installer and an identifier by having both. -/
theorem Package.declares_iff {installer : Installer} {id : Text} {p : Package} :
    p.declares installer id = true ↔ p.installer = installer ∧ p.id = id := by
  simp [declares]

/-- Standing for a pair is having its key. -/
theorem Package.declares_eq_key_beq (installer : Installer) (id : Text) :
    Package.declares installer id = fun p => p.key == packageKey installer id := by
  funext p
  rw [Bool.eq_iff_iff, declares_iff, beq_iff_eq, Package.key, packageKey_eq_iff]

/-- A detector by itself finds, for every pair, the first record that it recognises. -/
theorem Detector.find?_scan_alone (d : Detector) (script text : Text) (installer : Installer)
    (id : Text) :
    (d.scan script text []).1.find? (Package.declares installer id) =
      (d.recognised script text).find? (Package.declares installer id) := by
  rw [scan_packages, Package.declares_eq_key_beq, find?_newPackages List.not_mem_nil]

namespace LineUp

/-- No pair of installer and identity is listed twice. -/
theorem nodup_scan (l : LineUp) (script text : Text) :
    ((l.scan script text).1.map fun p => (p.installer, p.id)).Nodup := by
  have hkeys := nodup_newPackages [] (l.detectors.flatMap fun d => d.recognised script text)
  rw [← scan_packages, List.nodup_iff_pairwise_ne, List.pairwise_map] at hkeys
  rw [List.nodup_iff_pairwise_ne, List.pairwise_map]
  refine hkeys.imp ?_
  intro p q hne hpair
  exact hne (Package.key_eq_iff.mpr (Prod.mk.inj hpair))

/-- The record listed for a pair is the one of the earliest detector that recognises the pair. -/
theorem find?_scan (l : LineUp) (script text : Text) (installer : Installer) (id : Text) :
    (l.scan script text).1.find? (Package.declares installer id) =
      l.detectors.findSome? fun d =>
        (d.scan script text []).1.find? (Package.declares installer id) := by
  have hwalk : (l.scan script text).1.find? (Package.declares installer id) =
      (l.detectors.flatMap fun d => d.recognised script text).find?
        (Package.declares installer id) := by
    rw [scan_packages, Package.declares_eq_key_beq, find?_newPackages List.not_mem_nil]
  rw [hwalk, List.find?_flatMap]
  congr 1
  funext d
  rw [Detector.find?_scan_alone]

/-- Whatever some detector recognises is listed. -/
theorem exists_scan {l : LineUp} {d : Detector} {script text : Text} {p : Package}
    (hd : d ∈ l.detectors) (hp : p ∈ (d.scan script text []).1) :
    ∃ q ∈ (l.scan script text).1, q.installer = p.installer ∧ q.id = p.id := by
  rw [Detector.scan_packages] at hp
  have hmem : p ∈ l.detectors.flatMap fun d => d.recognised script text :=
    List.mem_flatMap.mpr ⟨d, hd, (mem_newPackages hp).1⟩
  obtain ⟨q, hq, hkey⟩ := exists_newPackages hmem List.not_mem_nil
  rw [← scan_packages] at hq
  exact ⟨q, hq, Package.key_eq_iff.mp hkey⟩

end LineUp

/-- **The first declaration wins.** The keys seen before only leave packages out of what a detector
finds by itself, and afterwards the keys of what it found have been seen too. A line-up lists no
pair of installer and identity twice, lists every pair that one of its detectors recognises, and
lists it by the record of the earliest such detector. -/
theorem scan_firstWins :
    (∀ (d : Detector) (script text : Text) (seen : Seen),
      (d.scan script text seen).1 = (d.scan script text []).1.filter (fun p => p.key ∉ seen) ∧
      ∀ key, key ∈ (d.scan script text seen).2.1 ↔
        key ∈ seen ∨ key ∈ (d.scan script text seen).1.map Package.key) ∧
    ∀ (l : LineUp) (script text : Text),
      ((l.scan script text).1.map fun p => (p.installer, p.id)).Nodup ∧
      (∀ d ∈ l.detectors, ∀ p ∈ (d.scan script text []).1,
        ∃ q ∈ (l.scan script text).1, q.installer = p.installer ∧ q.id = p.id) ∧
      ∀ (installer : Installer) (id : Text),
        (l.scan script text).1.find? (Package.declares installer id) =
          l.detectors.findSome? fun d =>
            (d.scan script text []).1.find? (Package.declares installer id) := by
  constructor
  · intro d script text seen
    refine ⟨newPackages_of_seen seen _, ?_⟩
    intro key
    rw [Detector.scan_seen, Detector.scan_packages, mem_seenAfter_iff]
  · intro l script text
    exact ⟨l.nodup_scan script text, fun d hd p hp => LineUp.exists_scan hd hp,
      l.find?_scan script text⟩

end SetupCatalog
