import SetupCatalog.Rule.Basic

/-!
# Which packages are new

`newPackages` walks through packages with a set of seen keys that grows as it goes. This module says
what the walk amounts to, so that nobody has to walk again:

* two walks in a row are one walk over both lists (`newPackages_append`);
* what was seen before a walk only leaves packages out and never changes or reorders the others
  (`newPackages_of_seen`);
* no key comes out twice (`nodup_newPackages`), and the package that comes out for a key is the
  first one that has it (`find?_newPackages`).

The seen keys are a set that happens to be kept as a list: a walk depends on the keys that are in it
and on nothing else.
-/

namespace SetupCatalog

/-! ## One step of the walk -/

/-- A record whose key has been seen is dropped. -/
theorem newPackages_cons_of_mem {seen : Seen} {p : Package} (h : p.key ∈ seen)
    (ps : List Package) : newPackages seen (p :: ps) = newPackages seen ps := by
  rw [newPackages, accept_of_mem h]

/-- A record whose key is new is kept, and its key is seen from then on. -/
theorem newPackages_cons_of_not_mem {seen : Seen} {p : Package} (h : p.key ∉ seen)
    (ps : List Package) : newPackages seen (p :: ps) = p :: newPackages (p.key :: seen) ps := by
  rw [newPackages, accept_of_not_mem h]

/-- A key that has been seen adds nothing. -/
theorem seenAfter_cons_of_mem {seen : Seen} {p : Package} (h : p.key ∈ seen)
    (ps : List Package) : seenAfter seen (p :: ps) = seenAfter seen ps := by
  rw [seenAfter, accept_of_mem h, Option.getD_none]

/-- A new key is added. -/
theorem seenAfter_cons_of_not_mem {seen : Seen} {p : Package} (h : p.key ∉ seen)
    (ps : List Package) : seenAfter seen (p :: ps) = seenAfter (p.key :: seen) ps := by
  rw [seenAfter, accept_of_not_mem h, Option.getD_some]

/-! ## Walks in a row -/

/-- The packages that are new in two lists met one after the other. -/
theorem newPackages_append (seen : Seen) (ps qs : List Package) :
    newPackages seen (ps ++ qs) = newPackages seen ps ++ newPackages (seenAfter seen ps) qs := by
  induction ps generalizing seen with
  | nil => rfl
  | cons p ps ih =>
    rw [List.cons_append]
    by_cases h : p.key ∈ seen
    · rw [newPackages_cons_of_mem h, newPackages_cons_of_mem h, seenAfter_cons_of_mem h, ih]
    · rw [newPackages_cons_of_not_mem h, newPackages_cons_of_not_mem h,
        seenAfter_cons_of_not_mem h, ih, List.cons_append]

/-- The keys seen add up over two lists of records. -/
theorem seenAfter_append (seen : Seen) (ps qs : List Package) :
    seenAfter seen (ps ++ qs) = seenAfter (seenAfter seen ps) qs := by
  induction ps generalizing seen with
  | nil => rfl
  | cons p ps ih => rw [List.cons_append, seenAfter, ih, seenAfter]

/-! ## What was seen before -/

/-- A walk that starts with the keys of `old` and of `seen` finds what a walk that starts with those
of `old` finds, less the packages whose keys are in `seen`. -/
theorem newPackages_of_union {old seen both : Seen} (ps : List Package)
    (h : ∀ k, k ∈ both ↔ k ∈ old ∨ k ∈ seen) :
    newPackages both ps = (newPackages old ps).filter fun p => p.key ∉ seen := by
  induction ps generalizing old both with
  | nil => rfl
  | cons p ps ih =>
    by_cases hold : p.key ∈ old
    · rw [newPackages_cons_of_mem ((h _).mpr (Or.inl hold)), newPackages_cons_of_mem hold]
      exact ih h
    · rw [newPackages_cons_of_not_mem hold]
      by_cases hseen : p.key ∈ seen
      · -- only the walk from `old` takes the package up, and the filter takes it out again
        have hboth : ∀ k, k ∈ both ↔ k ∈ p.key :: old ∨ k ∈ seen := by
          intro k
          rw [h k, List.mem_cons]
          constructor
          · rintro (hk | hk)
            · exact Or.inl (Or.inr hk)
            · exact Or.inr hk
          · rintro ((rfl | hk) | hk)
            · exact Or.inr hseen
            · exact Or.inl hk
            · exact Or.inr hk
        rw [newPackages_cons_of_mem ((h _).mpr (Or.inr hseen)), ih hboth,
          List.filter_cons_of_neg (by simpa using hseen)]
      · have hnew : p.key ∉ both := fun hk => ((h _).mp hk).elim hold hseen
        have hboth : ∀ k, k ∈ p.key :: both ↔ k ∈ p.key :: old ∨ k ∈ seen := by
          intro k
          rw [List.mem_cons, List.mem_cons, h k, or_assoc]
        rw [newPackages_cons_of_not_mem hnew, ih hboth,
          List.filter_cons_of_pos (by simpa using hseen)]

/-- The seen keys only leave packages out: what is new after `seen` is what is new from the start
and has a key outside `seen`. -/
theorem newPackages_of_seen (seen : Seen) (ps : List Package) :
    newPackages seen ps = (newPackages [] ps).filter fun p => p.key ∉ seen :=
  newPackages_of_union ps fun k => by simp

/-- Packages with different keys, none of them seen before, all come out. -/
theorem newPackages_of_fresh {seen : Seen} {ps : List Package}
    (hnodup : (ps.map Package.key).Nodup) (hfresh : ∀ p ∈ ps, p.key ∉ seen) :
    newPackages seen ps = ps := by
  induction ps generalizing seen with
  | nil => rfl
  | cons p ps ih =>
    rw [List.map_cons, List.nodup_cons] at hnodup
    rw [newPackages_cons_of_not_mem (hfresh p List.mem_cons_self), ih hnodup.2]
    intro q hq hseen
    rcases List.mem_cons.mp hseen with hkey | hseen
    · exact hnodup.1 (List.mem_map.mpr ⟨q, hq, hkey⟩)
    · exact hfresh q (List.mem_cons_of_mem p hq) hseen

/-! ## The package that comes out for a key -/

/-- No key comes out twice. -/
theorem nodup_newPackages (seen : Seen) (ps : List Package) :
    ((newPackages seen ps).map Package.key).Nodup := by
  induction ps generalizing seen with
  | nil => exact List.nodup_nil
  | cons p ps ih =>
    by_cases h : p.key ∈ seen
    · rw [newPackages_cons_of_mem h]
      exact ih seen
    · rw [newPackages_cons_of_not_mem h, List.map_cons, List.nodup_cons]
      refine ⟨?_, ih _⟩
      intro hmem
      obtain ⟨q, hq, hkey⟩ := List.mem_map.mp hmem
      exact (mem_newPackages hq).2 (hkey ▸ List.mem_cons_self)

/-- For a key that was not seen, the package that comes out is the first one that has the key. -/
theorem find?_newPackages {seen : Seen} {key : Text} (h : key ∉ seen) (ps : List Package) :
    (newPackages seen ps).find? (fun p => p.key == key) = ps.find? fun p => p.key == key := by
  induction ps generalizing seen with
  | nil => rfl
  | cons p ps ih =>
    by_cases hp : p.key = key
    · rw [newPackages_cons_of_not_mem (hp ▸ h), List.find?_cons_of_pos (by simpa using hp),
        List.find?_cons_of_pos (by simpa using hp)]
    · rw [List.find?_cons_of_neg (by simpa using hp)]
      by_cases hseen : p.key ∈ seen
      · rw [newPackages_cons_of_mem hseen, ih h]
      · have hkey : key ∉ p.key :: seen := by
          rw [List.mem_cons]
          exact fun hk => hk.elim (fun e => hp e.symm) h
        rw [newPackages_cons_of_not_mem hseen, List.find?_cons_of_neg (by simpa using hp), ih hkey]

/-- Every package met is represented: some package with its key comes out, unless the key was seen
before. -/
theorem exists_newPackages {seen : Seen} {ps : List Package} {p : Package} (hp : p ∈ ps)
    (hseen : p.key ∉ seen) : ∃ q ∈ newPackages seen ps, q.key = p.key := by
  have hsome : (ps.find? fun q => q.key == p.key).isSome := by
    rw [List.find?_isSome]
    exact ⟨p, hp, beq_self_eq_true _⟩
  rw [← find?_newPackages hseen, List.find?_isSome] at hsome
  obtain ⟨q, hq, hkey⟩ := hsome
  exact ⟨q, hq, beq_iff_eq.mp hkey⟩

/-- After a walk the keys seen are those seen before and those of the packages that came out. -/
theorem mem_seenAfter_iff {seen : Seen} {ps : List Package} {key : Text} :
    key ∈ seenAfter seen ps ↔ key ∈ seen ∨ key ∈ (newPackages seen ps).map Package.key := by
  rw [key_mem_seenAfter_iff, List.mem_map]
  constructor
  · rintro (hk | ⟨p, hp, rfl⟩)
    · exact Or.inl hk
    · by_cases hseen : p.key ∈ seen
      · exact Or.inl hseen
      · exact Or.inr (exists_newPackages hp hseen)
  · rintro (hk | ⟨q, hq, rfl⟩)
    · exact Or.inl hk
    · exact Or.inr ⟨q, (mem_newPackages hq).1, rfl⟩

end SetupCatalog
