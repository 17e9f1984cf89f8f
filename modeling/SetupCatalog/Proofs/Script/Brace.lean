import Mathlib.Data.List.Basic
import SetupCatalog.Script.Block

/-!
# Counting braces

`bodyOf` walks through a text with the depth of nesting as a counter. What it finds is said here by
counts alone: a body closes as many braces as were open, and no beginning of it closes more
(`bodyOf_eq_some_iff`). A body is found exactly if some beginning of the text closes more braces
than are open (`isSome_bodyOf_iff`).

For a single open brace the body is `Balanced`. What stands behind a brace inside a balanced text
has a body of its own that ends inside the text (`Balanced.exists_body`): this is why containers
nest.
-/

namespace SetupCatalog.Script

open Text

/-- A text closes `depth` braces more than it opens, and no beginning of it closes more than that.
-/
structure Closes (depth : Nat) (t : Text) : Prop where
  total : t.count '}' = t.count '{' + depth
  within : ∀ u, u <+: t → u.count '}' ≤ u.count '{' + depth

/-- A text is balanced: it closes the braces that it opens, each after it was opened. -/
def Balanced (t : Text) : Prop :=
  Closes 0 t

/-! ## One character -/

/-- The end of a text closes only what has nothing open. -/
theorem closes_nil_iff {depth : Nat} : Closes depth [] ↔ depth = 0 := by
  constructor
  · intro h
    simpa using h.total.symm
  · rintro rfl
    exact ⟨rfl, fun u hu => by rw [List.prefix_nil.mp hu]; exact Nat.le_refl 0⟩

/-- The beginnings of a text that starts with `c` are the empty one and those that start with `c`.
-/
theorem forall_prefix_cons_iff {P : Text → Prop} {c : Char} {t : Text} :
    (∀ u, u <+: c :: t → P u) ↔ P [] ∧ ∀ u, u <+: t → P (c :: u) := by
  constructor
  · intro h
    exact ⟨h [] List.nil_prefix, fun u hu => h (c :: u) ((List.prefix_cons_inj c).mpr hu)⟩
  · rintro ⟨hnil, hcons⟩ u hu
    rcases List.prefix_cons_iff.mp hu with rfl | ⟨v, rfl, hv⟩
    · exact hnil
    · exact hcons v hv

/-- An opening brace leaves one more to be closed. -/
theorem closes_open_cons_iff {depth : Nat} {t : Text} :
    Closes depth ('{' :: t) ↔ Closes (depth + 1) t := by
  constructor
  · rintro ⟨htotal, hwithin⟩
    have hcons := (forall_prefix_cons_iff.mp hwithin).2
    simp only [List.count_cons, beq_iff_eq, Char.reduceEq, if_true, if_false] at htotal hcons
    exact ⟨by omega, fun u hu => by have := hcons u hu; omega⟩
  · rintro ⟨htotal, hwithin⟩
    refine ⟨?_, forall_prefix_cons_iff.mpr ⟨by simp, fun u hu => ?_⟩⟩
    · simp only [List.count_cons, beq_iff_eq, Char.reduceEq, if_true, if_false]
      omega
    · have := hwithin u hu
      simp only [List.count_cons, beq_iff_eq, Char.reduceEq, if_true, if_false]
      omega

/-- A closing brace needs an open one. -/
theorem closes_close_cons_iff {depth : Nat} {t : Text} :
    Closes depth ('}' :: t) ↔ ∃ others, depth = others + 1 ∧ Closes others t := by
  constructor
  · rintro ⟨htotal, hwithin⟩
    have hcons := (forall_prefix_cons_iff.mp hwithin).2
    simp only [List.count_cons, beq_iff_eq, Char.reduceEq, if_true, if_false] at htotal hcons
    have hfirst := hcons [] List.nil_prefix
    simp only [List.count_nil] at hfirst
    exact ⟨depth - 1, by omega, by omega, fun u hu => by have := hcons u hu; omega⟩
  · rintro ⟨others, rfl, htotal, hwithin⟩
    refine ⟨?_, forall_prefix_cons_iff.mpr ⟨by simp, fun u hu => ?_⟩⟩
    · simp only [List.count_cons, beq_iff_eq, Char.reduceEq, if_true, if_false]
      omega
    · have := hwithin u hu
      simp only [List.count_cons, beq_iff_eq, Char.reduceEq, if_true, if_false]
      omega

/-- Any other character changes nothing. -/
theorem closes_cons_iff {depth : Nat} {c : Char} {t : Text} (hopen : c ≠ '{') (hclose : c ≠ '}') :
    Closes depth (c :: t) ↔ Closes depth t := by
  have hcount : ∀ u : Text, (c :: u).count '{' = u.count '{' ∧ (c :: u).count '}' = u.count '}' :=
    fun u => ⟨List.count_cons_of_ne hopen, List.count_cons_of_ne hclose⟩
  constructor
  · rintro ⟨htotal, hwithin⟩
    rw [(hcount t).1, (hcount t).2] at htotal
    refine ⟨htotal, fun u hu => ?_⟩
    rw [← (hcount u).1, ← (hcount u).2]
    exact (forall_prefix_cons_iff.mp hwithin).2 u hu
  · rintro ⟨htotal, hwithin⟩
    refine ⟨?_, forall_prefix_cons_iff.mpr ⟨by simp, fun u hu => ?_⟩⟩
    · rw [(hcount t).1, (hcount t).2, htotal]
    · rw [(hcount u).1, (hcount u).2]
      exact hwithin u hu

/-! ## The body that is found -/

theorem bodyOf_open (depth : Nat) (t : Text) :
    bodyOf depth ('{' :: t) = (bodyOf (depth + 1) t).map fun (b, rest) => ('{' :: b, rest) := by
  conv_lhs => unfold bodyOf
  rfl

theorem bodyOf_close_zero (t : Text) : bodyOf 0 ('}' :: t) = some ([], t) := by
  unfold bodyOf
  rfl

theorem bodyOf_close_succ (depth : Nat) (t : Text) :
    bodyOf (depth + 1) ('}' :: t) = (bodyOf depth t).map fun (b, rest) => ('}' :: b, rest) := by
  conv_lhs => unfold bodyOf
  rfl

theorem bodyOf_cons {c : Char} (hopen : c ≠ '{') (hclose : c ≠ '}') (depth : Nat) (t : Text) :
    bodyOf depth (c :: t) = (bodyOf depth t).map fun (b, rest) => (c :: b, rest) := by
  conv_lhs => unfold bodyOf
  rw [if_neg hopen, if_neg hclose]

/-- A body is found exactly where the text is one that closes the open braces but the last, a
closing brace, and the rest. -/
theorem bodyOf_eq_some_iff {depth : Nat} {t body rest : Text} :
    bodyOf depth t = some (body, rest) ↔ Closes depth body ∧ t = body ++ '}' :: rest := by
  induction t generalizing depth body rest with
  | nil => simp [bodyOf]
  | cons c t ih =>
    -- a character that is not the closing brace itself is the first one of the body
    have first : ∀ {after : Nat}, (∀ b, Closes depth (c :: b) ↔ Closes after b) →
        (Closes depth [] → c ≠ '}') →
        ((bodyOf after t).map (fun (b, rest) => (c :: b, rest)) = some (body, rest) ↔
          Closes depth body ∧ c :: t = body ++ '}' :: rest) := by
      intro after hcons hnil
      simp only [Option.map_eq_some_iff, Prod.mk.injEq, Prod.exists, ih]
      constructor
      · rintro ⟨b, r, ⟨hb, rfl⟩, rfl, rfl⟩
        exact ⟨(hcons b).mpr hb, rfl⟩
      · rintro ⟨hbody, ht⟩
        cases body with
        | nil => exact absurd (List.cons.inj ht).1 (hnil hbody)
        | cons d b =>
          rw [List.cons_append, List.cons.injEq] at ht
          obtain ⟨rfl, rfl⟩ := ht
          exact ⟨b, rest, ⟨(hcons b).mp hbody, rfl⟩, rfl, rfl⟩
    by_cases hopen : c = '{'
    · subst hopen
      rw [bodyOf_open]
      exact first (fun b => closes_open_cons_iff) (fun _ => by decide)
    · by_cases hclose : c = '}'
      · subst hclose
        cases depth with
        | zero =>
          rw [bodyOf_close_zero, Option.some.injEq, Prod.mk.injEq]
          constructor
          · rintro ⟨rfl, rfl⟩
            exact ⟨closes_nil_iff.mpr rfl, rfl⟩
          · rintro ⟨hbody, ht⟩
            cases body with
            | nil => exact ⟨rfl, (List.cons.inj ht).2⟩
            | cons d b =>
              obtain rfl := (List.cons.inj ht).1
              obtain ⟨others, hzero, -⟩ := closes_close_cons_iff.mp hbody
              cases hzero
        | succ depth =>
          rw [bodyOf_close_succ]
          refine first (fun b => ?_) fun hnil => absurd (closes_nil_iff.mp hnil) (by omega)
          simp [closes_close_cons_iff]
      · rw [bodyOf_cons hopen hclose]
        exact first (fun b => closes_cons_iff hopen hclose) fun _ => hclose

/-- A body is found as soon as some beginning of the text closes more braces than are open. -/
theorem isSome_bodyOf {depth : Nat} {t u : Text} (hu : u <+: t)
    (h : u.count '{' + depth < u.count '}') : (bodyOf depth t).isSome = true := by
  induction t generalizing depth u with
  | nil =>
    rw [List.prefix_nil.mp hu] at h
    simp at h
  | cons c t ih =>
    -- the front that closes more than it opens loses a character with the text; at a closing brace
    -- with nothing else open the body has ended
    rcases List.prefix_cons_iff.mp hu with rfl | ⟨v, rfl, hv⟩
    · simp at h
    · by_cases hopen : c = '{'
      · subst hopen
        simp only [List.count_cons, beq_iff_eq, Char.reduceEq, if_true, if_false] at h
        rw [bodyOf_open, Option.isSome_map]
        exact ih hv (by omega)
      · by_cases hclose : c = '}'
        · subst hclose
          simp only [List.count_cons, beq_iff_eq, Char.reduceEq, if_true, if_false] at h
          cases depth with
          | zero => rw [bodyOf_close_zero, Option.isSome_some]
          | succ depth =>
            rw [bodyOf_close_succ, Option.isSome_map]
            exact ih hv (by omega)
        · rw [List.count_cons_of_ne hopen, List.count_cons_of_ne hclose] at h
          rw [bodyOf_cons hopen hclose, Option.isSome_map]
          exact ih hv h

/-- A body is found exactly if some beginning of the text closes one brace more than are open. -/
theorem isSome_bodyOf_iff {depth : Nat} {t : Text} :
    (bodyOf depth t).isSome = true ↔ ∃ u, u <+: t ∧ u.count '}' = u.count '{' + (depth + 1) := by
  constructor
  · intro h
    obtain ⟨⟨body, rest⟩, hbody⟩ := Option.isSome_iff_exists.mp h
    obtain ⟨hcloses, rfl⟩ := bodyOf_eq_some_iff.mp hbody
    refine ⟨body ++ ['}'], ⟨rest, by simp⟩, ?_⟩
    have := hcloses.total
    simp only [List.count_append, List.count_singleton, beq_iff_eq, Char.reduceEq, if_true,
      if_false]
    omega
  · rintro ⟨u, hu, h⟩
    exact isSome_bodyOf hu (by omega)

/-! ## Balanced texts -/

/-- Two balanced texts are balanced one after the other. -/
theorem balanced_append {t u : Text} (ht : Balanced t) (hu : Balanced u) : Balanced (t ++ u) := by
  have htotal := ht.total
  have hutotal := hu.total
  refine ⟨?_, fun v hv => ?_⟩
  · rw [List.count_append, List.count_append]
    omega
  · rcases List.prefix_or_prefix_of_prefix hv (List.prefix_append t u) with hvt | ⟨w, rfl⟩
    · exact ht.within v hvt
    · have := hu.within w ((List.prefix_append_right_inj t).mp hv)
      rw [List.count_append, List.count_append]
      omega

/-- A text without braces is balanced. -/
theorem balanced_of_not_mem {t : Text} (hopen : '{' ∉ t) (hclose : '}' ∉ t) : Balanced t := by
  refine ⟨?_, fun u hu => ?_⟩
  · rw [List.count_eq_zero_of_not_mem hopen, List.count_eq_zero_of_not_mem hclose]
  · rw [List.count_eq_zero_of_not_mem fun hmem => hclose (hu.subset hmem)]
    exact Nat.zero_le _

/-- A balanced text in braces is balanced. -/
theorem balanced_braces {t : Text} (h : Balanced t) : Balanced ('{' :: t ++ ['}']) := by
  have hclosed : Closes 1 (t ++ ['}']) := by
    have htotal := h.total
    refine ⟨?_, fun u hu => ?_⟩
    · simp only [List.count_append, List.count_singleton, beq_iff_eq, Char.reduceEq, if_true,
        if_false]
      omega
    · rcases List.prefix_concat_iff.mp hu with rfl | hu
      · simp only [List.count_append, List.count_singleton, beq_iff_eq, Char.reduceEq, if_true,
          if_false]
        omega
      · have := h.within u hu
        omega
  exact closes_open_cons_iff.mpr hclosed

/-- What stands behind an opening brace inside a balanced text has a body that ends inside the text.
-/
theorem Balanced.exists_body {u v : Text} (h : Balanced (u ++ '{' :: v)) :
    ∃ body rest, Balanced body ∧ v = body ++ '}' :: rest := by
  have hbefore := h.within u (List.prefix_append u _)
  have htotal := h.total
  simp only [List.count_append, List.count_cons, beq_iff_eq, Char.reduceEq, if_true, if_false]
    at htotal
  have hsome : (bodyOf 0 v).isSome = true := isSome_bodyOf List.prefix_rfl (by omega)
  obtain ⟨⟨body, rest⟩, hbody⟩ := Option.isSome_iff_exists.mp hsome
  obtain ⟨hbalanced, hv⟩ := bodyOf_eq_some_iff.mp hbody
  exact ⟨body, rest, hbalanced, hv⟩

end SetupCatalog.Script
