import Mathlib.Logic.Basic

/-!
# Steps that can fail

A computation that can fail is a sequence of steps, and it comes to something only if every one of
them does. Each lemma takes one step off such a sequence.
-/

namespace SetupCatalog

variable {ε ε' α β : Type} {b : β}

/-- Two steps that come to something have both succeeded. -/
theorem exists_of_bind {step : Except ε α} {next : α → Except ε β} (h : step >>= next = .ok b) :
    ∃ a, step = .ok a ∧ next a = .ok b := by
  cases step with
  | error e => cases h
  | ok a => exact ⟨a, rfl, h⟩

variable {c : Prop} [Decidable c]

/-- So have a step that depends on a condition, and the one after it. -/
theorem exists_of_ite_bind {step step' : Except ε α} {next : α → Except ε β}
    (h : (if c then step >>= next else step' >>= next) = .ok b) :
    ∃ a, (if c then step else step') = .ok a ∧ next a = .ok b := by
  by_cases hc : c
  · rw [if_pos hc] at h ⊢
    exact exists_of_bind h
  · rw [if_neg hc] at h ⊢
    exact exists_of_bind h

/-- What comes to something has not been given up. -/
theorem of_ite_throw {e : ε} {next : α → Except ε β} {other : Except ε β}
    (h : (if c then throw e >>= next else other) = .ok b) : ¬ c ∧ other = .ok b := by
  by_cases hc : c
  · rw [if_pos hc] at h
    cases h
  · rw [if_neg hc] at h
    exact ⟨hc, h⟩

/-- An error that is told in another way is still one. -/
theorem mapError_eq_ok_iff {tell : ε → ε'} {r : Except ε α} {a : α} :
    r.mapError tell = .ok a ↔ r = .ok a := by
  cases r with
  | error e => exact iff_of_false nofun nofun
  | ok found =>
    exact ⟨fun h => congrArg Except.ok (Except.ok.inj h),
      fun h => congrArg Except.ok (Except.ok.inj h)⟩

end SetupCatalog
