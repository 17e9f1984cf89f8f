import SetupCatalog.Text.Basic

/-!
# Patterns and where they match

A pattern looks at one spot of a text: it sees the character before the spot and the text after it.
Where it matches, it says what it found and what follows. `Pattern.first?` finds the leftmost match
and `Pattern.all` the matches from left to right, each starting where the one before has ended.

The main statements are `Pattern.first?_eq_some_iff`, which says that a match is the leftmost one
exactly if the pattern fails at every earlier spot, and `Pattern.first?_eq_none_iff`.
-/

namespace SetupCatalog

/-- A pattern reads the character before a spot and the text after it. Where it matches, it returns
what it found and the text after the match. -/
abbrev Pattern (α : Type) :=
  Option Char → Text → Option (α × Text)

/-- A match of a pattern in a text. -/
structure Hit (α : Type) where
  /-- The characters before the match, the nearest first. -/
  before : Text
  /-- What the pattern found. -/
  found : α
  /-- The text after the match. -/
  after : Text

namespace Hit

/-- The offset of the match. -/
def offset {α : Type} (h : Hit α) : Nat :=
  h.before.length

end Hit

namespace Pattern

variable {α : Type}

/-- The leftmost match at or after the spot that has `before` behind it, the nearest character
first. -/
def firstFrom (p : Pattern α) (before : Text) : Text → Option (Hit α)
  | [] => (p before.head? []).map fun (a, rest) => ⟨before, a, rest⟩
  | c :: t =>
    match p before.head? (c :: t) with
    | some (a, rest) => some ⟨before, a, rest⟩
    | none => firstFrom p (c :: before) t

/-- The leftmost match of a pattern in a text. -/
def first? (p : Pattern α) (t : Text) : Option (Hit α) :=
  firstFrom p [] t

/-- What the leftmost match found. -/
def find? (p : Pattern α) (t : Text) : Option α :=
  (p.first? t).map (·.found)

/-- Whether the pattern matches somewhere in the text. -/
def occursIn (p : Pattern α) (t : Text) : Bool :=
  (p.first? t).isSome

/-- The matches after the next `skip` characters, which belong to an earlier match. A match is
expected to be at least one character long. -/
def allFrom (p : Pattern α) (skip : Nat) (before : Text) : Text → List (Hit α)
  | [] => []
  | c :: t =>
    match skip with
    | skip + 1 => allFrom p skip (c :: before) t
    | 0 =>
      match p before.head? (c :: t) with
      | some (a, rest) => ⟨before, a, rest⟩ :: allFrom p (t.length - rest.length) (c :: before) t
      | none => allFrom p 0 (c :: before) t

/-- The matches of a pattern from left to right, none overlapping the one before. -/
def all (p : Pattern α) (t : Text) : List (Hit α) :=
  allFrom p 0 [] t

/-! ## The leftmost match -/

theorem firstFrom_eq_some_iff {p : Pattern α} {before t : Text} {h : Hit α} :
    firstFrom p before t = some h ↔
      ∃ skipped rest, t = skipped ++ rest ∧ h.before = skipped.reverse ++ before ∧
        p h.before.head? rest = some (h.found, h.after) ∧
        ∀ u c v, skipped = u ++ c :: v →
          p (u.reverse ++ before).head? (c :: v ++ rest) = none := by
  induction t generalizing before with
  | nil =>
    simp only [firstFrom, Option.map_eq_some_iff, Prod.exists]
    constructor
    · rintro ⟨a, r, hp, rfl⟩
      exact ⟨[], [], rfl, rfl, hp, by simp⟩
    · rintro ⟨skipped, rest, hs, hb, hp, -⟩
      obtain ⟨rfl, rfl⟩ := List.append_eq_nil_iff.1 hs.symm
      refine ⟨h.found, h.after, by simpa [hb] using hp, ?_⟩
      cases h
      simp_all
  | cons c t ih =>
    unfold firstFrom
    cases hp : p before.head? (c :: t) with
    | some r =>
      obtain ⟨a, r⟩ := r
      simp only [Option.some.injEq]
      constructor
      · rintro rfl
        exact ⟨[], c :: t, rfl, rfl, hp, by simp⟩
      · rintro ⟨skipped, rest, hs, hb, hq, hno⟩
        cases skipped with
        | nil =>
          simp only [List.nil_append, List.reverse_nil] at hs hb
          subst hs
          rw [hb, hp] at hq
          simp only [Option.some.injEq, Prod.mk.injEq] at hq
          cases h
          simp_all
        | cons d u =>
          simp only [List.cons_append, List.cons.injEq] at hs
          obtain ⟨rfl, rfl⟩ := hs
          have := hno [] c u rfl
          simp [hp] at this
    | none =>
      simp only
      rw [ih]
      constructor
      · rintro ⟨skipped, rest, rfl, hb, hq, hno⟩
        refine ⟨c :: skipped, rest, rfl, by simp [hb], hq, ?_⟩
        intro u d v huv
        cases u with
        | nil =>
          simp only [List.nil_append, List.cons.injEq] at huv
          obtain ⟨rfl, rfl⟩ := huv
          simpa using hp
        | cons e u =>
          simp only [List.cons_append, List.cons.injEq] at huv
          obtain ⟨rfl, rfl⟩ := huv
          simpa using hno u d v rfl
      · rintro ⟨skipped, rest, hs, hb, hq, hno⟩
        cases skipped with
        | nil =>
          simp only [List.nil_append, List.reverse_nil] at hs hb
          subst hs
          rw [hb, hp] at hq
          cases hq
        | cons d u =>
          simp only [List.cons_append, List.cons.injEq] at hs
          obtain ⟨rfl, rfl⟩ := hs
          refine ⟨u, rest, rfl, by simp [hb], hq, ?_⟩
          intro u' e v huv
          simpa using hno (c :: u') e v (by simp [huv])

/-- A match is the leftmost one exactly if the pattern matches there and fails at every earlier
spot. -/
theorem first?_eq_some_iff {p : Pattern α} {t : Text} {h : Hit α} :
    p.first? t = some h ↔
      ∃ rest, t = h.before.reverse ++ rest ∧ p h.before.head? rest = some (h.found, h.after) ∧
        ∀ u c v, h.before.reverse = u ++ c :: v → p u.getLast? (c :: v ++ rest) = none := by
  unfold first?
  rw [firstFrom_eq_some_iff]
  constructor
  · rintro ⟨skipped, rest, rfl, hb, hp, hno⟩
    simp only [List.append_nil] at hb
    refine ⟨rest, by simp [hb], hp, ?_⟩
    intro u c v huv
    simpa using hno u c v (by simpa [hb] using huv)
  · rintro ⟨rest, ht, hp, hno⟩
    refine ⟨h.before.reverse, rest, ht, by simp, hp, ?_⟩
    intro u c v huv
    simpa using hno u c v huv

/-- A pattern has no match in a text exactly if it fails at every spot of it. -/
theorem first?_eq_none_iff {p : Pattern α} {t : Text} :
    p.first? t = none ↔ ∀ u v, t = u ++ v → p u.getLast? v = none := by
  have from_iff : ∀ (t before : Text), firstFrom p before t = none ↔
      ∀ u v, t = u ++ v → p (u.reverse ++ before).head? v = none := by
    intro t
    induction t with
    | nil =>
      intro before
      simp only [firstFrom, Option.map_eq_none_iff]
      constructor
      · intro hp u v huv
        obtain ⟨rfl, rfl⟩ := List.append_eq_nil_iff.1 huv.symm
        simpa using hp
      · intro hno
        simpa using hno [] [] rfl
    | cons c t ih =>
      intro before
      unfold firstFrom
      cases hp : p before.head? (c :: t) with
      | some r =>
        simp only [reduceCtorEq, false_iff]
        intro hno
        simpa [hp] using hno [] (c :: t) rfl
      | none =>
        simp only
        rw [ih]
        constructor
        · intro hno u v huv
          cases u with
          | nil =>
            simp only [List.nil_append] at huv
            subst huv
            simpa using hp
          | cons d u =>
            simp only [List.cons_append, List.cons.injEq] at huv
            obtain ⟨rfl, rfl⟩ := huv
            simpa using hno u v rfl
        · intro hno u v huv
          simpa using hno (c :: u) v (by simp [huv])
  unfold first?
  rw [from_iff]
  simp

end Pattern

end SetupCatalog
