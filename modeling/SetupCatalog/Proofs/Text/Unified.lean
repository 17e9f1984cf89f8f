import Mathlib.Data.List.TakeWhile
import SetupCatalog.Proofs.Text.Line
import SetupCatalog.Text.Blank

/-!
# Texts with one kind of line break

`unifyBreaks` makes every carriage return, alone or before a line feed, a line feed. The lemmas here
say what stays as it is. A text is gone through break by break (`breaks_induction`): it is empty, or
it starts with a character of a line, or with a whole line break. A spot between a carriage return
and the line feed after it is not one where a text can be parted (`MidBreak`); at every other spot
the parts are unified one by one (`unifyBreaks_append`).

A text keeps its lines (`lines_unifyBreaks`), and what a class of characters takes from its start
stays the same up to line breaks if the class does not tell the two line ends apart
(`takeWhile_unifyBreaks`).
-/

namespace SetupCatalog.Text

/-! ## Break by break -/

/-- A whole line break before a text: a carriage return and a line feed, or one of them that is not
part of such a pair. -/
inductive BreakBefore : Text → Text → Prop
  | pair (t : Text) : BreakBefore ['\r', '\n'] t
  | feed (t : Text) : BreakBefore ['\n'] t
  | «return» {t : Text} (h : t.head? ≠ some '\n') : BreakBefore ['\r'] t

/-- Two characters end a line: the carriage return and the line feed. -/
theorem isLineEnd_iff {c : Char} : isLineEnd c = true ↔ c = '\r' ∨ c = '\n' := by
  rw [isLineEnd, Bool.or_eq_true, beq_iff_eq, beq_iff_eq]

theorem unifyBreaks_nil : unifyBreaks [] = [] := rfl

/-- Only a carriage return before a line feed is dropped. -/
theorem unifyBreaks_cons_of_ne {c : Char} {t : Text} (h : c = '\r' → t.head? ≠ some '\n') :
    unifyBreaks (c :: t) = (if c = '\r' then '\n' else c) :: unifyBreaks t := by
  apply unifyBreaks.eq_3
  rintro u rfl rfl
  exact h rfl rfl

/-- What ends no line is no carriage return. -/
theorem ne_return_of_inside {c : Char} (hc : isLineEnd c = false) : c ≠ '\r' := by
  rintro rfl
  cases hc

/-- A character of a line stays. -/
theorem unifyBreaks_cons {c : Char} (hc : isLineEnd c = false) (t : Text) :
    unifyBreaks (c :: t) = c :: unifyBreaks t := by
  have hreturn := ne_return_of_inside hc
  rw [unifyBreaks_cons_of_ne (fun h => absurd h hreturn), if_neg hreturn]

/-- A line break becomes a line feed. -/
theorem unifyBreaks_break {b t : Text} (h : BreakBefore b t) :
    unifyBreaks (b ++ t) = '\n' :: unifyBreaks t := by
  cases h with
  | pair => rfl
  | feed => exact unifyBreaks_cons_of_ne (fun h => absurd h (by decide))
  | «return» h => exact unifyBreaks_cons_of_ne fun _ => h

/-- Every line break starts with a line end. -/
theorem BreakBefore.exists_cons {b t : Text} (h : BreakBefore b t) :
    ∃ e u, b ++ t = e :: u ∧ isLineEnd e = true := by
  cases h with
  | pair => exact ⟨'\r', _, rfl, rfl⟩
  | feed => exact ⟨'\n', _, rfl, rfl⟩
  | «return» => exact ⟨'\r', _, rfl, rfl⟩

/-- A line break has a character at least. -/
theorem BreakBefore.length_pos {b t : Text} (h : BreakBefore b t) : 0 < b.length := by
  cases h <;> exact Nat.succ_pos _

/-- Every character of a line break is a line end. -/
theorem BreakBefore.isLineEnd_of_mem {b t : Text} (h : BreakBefore b t) {c : Char} (hc : c ∈ b) :
    isLineEnd c = true := by
  cases h with
  | pair | feed | «return» =>
    simp only [List.mem_cons, List.not_mem_nil, or_false] at hc
    rcases hc with rfl | rfl <;> rfl

/-- A text is empty, or starts with a character of a line or with a whole line break. -/
theorem breaks_induction {P : Text → Prop} (nil : P [])
    (inside : ∀ c t, isLineEnd c = false → P t → P (c :: t))
    (lineBreak : ∀ b t, BreakBefore b t → P t → P (b ++ t)) (t : Text) : P t := by
  induction t using unifyBreaks.induct with
  | case1 => exact nil
  | case2 t ih => exact lineBreak ['\r', '\n'] t (.pair t) ih
  | case3 c t hpair ih =>
    cases hc : isLineEnd c with
    | false => exact inside c t hc ih
    | true =>
      rcases isLineEnd_iff.mp hc with rfl | rfl
      · refine lineBreak ['\r'] t (.return fun hhead => ?_) ih
        obtain ⟨u, rfl⟩ := List.head?_eq_some_iff.mp hhead
        exact hpair u rfl rfl
      · exact lineBreak ['\n'] t (.feed t) ih

/-- The second text is the first one with a line feed in the place of every line break. -/
inductive Unifies : Text → Text → Prop
  | nil : Unifies [] []
  | inside {c : Char} {t u : Text} (hc : isLineEnd c = false) :
      Unifies t u → Unifies (c :: t) (c :: u)
  | lineBreak {b t u : Text} (hb : BreakBefore b t) : Unifies t u → Unifies (b ++ t) ('\n' :: u)

/-- Making every line break a line feed does this and nothing else. -/
theorem unifies_iff {t u : Text} : Unifies t u ↔ u = unifyBreaks t := by
  constructor
  · intro h
    induction h with
    | nil => rfl
    | inside hc _ ih => rw [unifyBreaks_cons hc, ih]
    | lineBreak hb _ ih => rw [unifyBreaks_break hb, ih]
  · rintro rfl
    induction t using breaks_induction with
    | nil => exact .nil
    | inside c t hc ih =>
      rw [unifyBreaks_cons hc]
      exact .inside hc ih
    | lineBreak b t hb ih =>
      rw [unifyBreaks_break hb]
      exact .lineBreak hb ih

/-- A text without carriage returns stays as it is. -/
theorem unifyBreaks_of_not_mem {t : Text} (h : '\r' ∉ t) : unifyBreaks t = t := by
  induction t with
  | nil => rfl
  | cons c t ih =>
    rw [List.mem_cons, not_or] at h
    rw [unifyBreaks_cons_of_ne (fun hc => absurd hc.symm h.1), if_neg (Ne.symm h.1), ih h.2]

/-- A text without line ends stays as it is. -/
theorem unifyBreaks_of_inside {t : Text} (h : ∀ c ∈ t, isLineEnd c = false) :
    unifyBreaks t = t := by
  apply unifyBreaks_of_not_mem
  intro hmem
  cases h '\r' hmem

/-- Whether every carriage return of a text stands before a line feed. -/
def returnsPaired : Text → Bool
  | [] => true
  | c :: t => (c != '\r' || t.head? == some '\n') && returnsPaired t

/-- Where carriage returns stand before line feeds only, each has one behind it. -/
theorem head?_of_returnsPaired {u v : Text} (h : returnsPaired (u ++ '\r' :: v) = true) :
    v.head? = some '\n' := by
  induction u with
  | nil =>
    rw [List.nil_append, returnsPaired, bne_self_eq_false, Bool.false_or, Bool.and_eq_true,
      beq_iff_eq] at h
    exact h.1
  | cons c u ih =>
    rw [List.cons_append, returnsPaired, Bool.and_eq_true] at h
    exact ih h.2

/-! ## Parting a text -/

/-- The spot between two texts lies between a carriage return and the line feed after it. -/
def MidBreak (prev : Option Char) (t : Text) : Prop :=
  prev = some '\r' ∧ t.head? = some '\n'

/-- Only after a carriage return can a spot be inside of a line break. -/
theorem not_midBreak_of_ne {prev : Option Char} {t : Text} (h : prev ≠ some '\r') :
    ¬ MidBreak prev t :=
  fun hmid => h hmid.1

/-- Apart from a spot inside a line break, the two parts of a text are unified one by one. -/
theorem unifyBreaks_append {u v : Text} (h : ¬ MidBreak u.getLast? v) :
    unifyBreaks (u ++ v) = unifyBreaks u ++ unifyBreaks v := by
  induction u using breaks_induction with
  | nil => rfl
  | inside c u hc ih =>
    rw [List.cons_append, unifyBreaks_cons hc, unifyBreaks_cons hc, List.cons_append]
    cases u with
    | nil => rfl
    | cons d u => rw [ih (by rwa [List.getLast?_cons_cons] at h)]
  | lineBreak b u hb ih =>
    -- a single return stays one, since the second part does not start with the feed that would
    -- complete a pair
    have hbreak : BreakBefore b (u ++ v) := by
      cases hb with
      | pair => exact .pair _
      | feed => exact .feed _
      | «return» hu =>
        refine .return fun hhead => ?_
        cases u with
        | nil => exact h ⟨rfl, hhead⟩
        | cons d u => exact hu hhead
    rw [List.append_assoc, unifyBreaks_break hbreak, unifyBreaks_break hb, List.cons_append]
    cases u with
    | nil => rfl
    | cons d u =>
      have hlast : (b ++ d :: u).getLast? = (d :: u).getLast? := by
        rw [List.getLast?_append, List.getLast?_cons, Option.some_or]
      rw [ih (hlast ▸ h)]

/-- A beginning without line ends stays as it is. -/
theorem unifyBreaks_append_inside {u : Text} (h : ∀ c ∈ u, isLineEnd c = false) (v : Text) :
    unifyBreaks (u ++ v) = u ++ unifyBreaks v := by
  have hend : ¬ MidBreak u.getLast? v := by
    apply not_midBreak_of_ne
    intro hlast
    cases h '\r' (List.mem_of_getLast? hlast)
  rw [unifyBreaks_append hend, unifyBreaks_of_inside h]

/-- A text leaves `rest` behind, and leaves off outside of a line break wherever it stands. -/
def LeavesWhole (t rest : Text) : Prop :=
  ∃ read, t = read ++ rest ∧ ∀ before : Text, ¬ MidBreak (before ++ read).getLast? rest

/-- What is read before that does not matter. -/
theorem LeavesWhole.append {t rest : Text} (h : t.LeavesWhole rest) (u : Text) :
    LeavesWhole (u ++ t) rest := by
  obtain ⟨read, rfl, hread⟩ := h
  refine ⟨u ++ read, (List.append_assoc u read rest).symm, fun before => ?_⟩
  rw [← List.append_assoc]
  exact hread (before ++ u)

/-- A text leaves off outside of a line break behind a character of a line. -/
theorem leavesWhole_cons {c : Char} (hc : isLineEnd c = false) (rest : Text) :
    LeavesWhole (c :: rest) rest := by
  refine ⟨[c], rfl, fun before => not_midBreak_of_ne ?_⟩
  rw [List.getLast?_concat]
  rintro ⟨⟩
  cases hc

/-- A text leaves off outside of a line break where no line feed follows. -/
theorem leavesWhole_of_head? {rest : Text} (h : rest.head? ≠ some '\n') : LeavesWhole rest rest :=
  ⟨[], rfl, fun _ hmid => h hmid.2⟩

/-- A line end as a unified text has it. -/
def unifyChar (c : Char) : Char :=
  if c = '\r' then '\n' else c

/-- A character that ends no line stays. -/
theorem unifyChar_of_inside {c : Char} (hc : isLineEnd c = false) : unifyChar c = c :=
  if_neg (ne_return_of_inside hc)

/-- One that ends a line becomes a line feed. -/
theorem unifyChar_of_end {c : Char} (hc : isLineEnd c = true) : unifyChar c = '\n' := by
  rcases isLineEnd_iff.mp hc with rfl | rfl <;> rfl

/-- The last character of a text stays, unless it is a line end. -/
theorem getLast?_unifyBreaks (t : Text) : (unifyBreaks t).getLast? = t.getLast?.map unifyChar := by
  induction t using breaks_induction with
  | nil => rfl
  | inside c t hc ih =>
    rw [unifyBreaks_cons hc, List.getLast?_cons, List.getLast?_cons, ih]
    cases t.getLast? with
    | none => exact congrArg some (unifyChar_of_inside hc).symm
    | some d => rfl
  | lineBreak b t hb ih =>
    have hlast : b.getLast?.map unifyChar = some '\n' := by cases hb <;> rfl
    rw [unifyBreaks_break hb, List.getLast?_cons, List.getLast?_append, ih]
    cases t.getLast? with
    | none => exact hlast.symm
    | some d => rfl

/-! ## Classes of characters -/

/-- A class does not tell the line ends apart. -/
def BreakBlind (p : Char → Bool) : Prop :=
  p '\r' = p '\n'

instance (p : Char → Bool) : Decidable (BreakBlind p) :=
  inferInstanceAs (Decidable (p '\r' = p '\n'))

/-- A break-blind class has both ends of lines in it, or none. -/
theorem BreakBlind.eq {p : Char → Bool} (hp : BreakBlind p) {c : Char} (hc : isLineEnd c = true) :
    p c = p '\n' := by
  rcases isLineEnd_iff.mp hc with rfl | rfl
  · exact hp
  · rfl

/-- What a class takes from the start of a text, and what it leaves, are unified one by one. -/
theorem takeWhile_dropWhile_unifyBreaks {p : Char → Bool} (hp : BreakBlind p) (t : Text) :
    (unifyBreaks t).takeWhile p = unifyBreaks (t.takeWhile p) ∧
      (unifyBreaks t).dropWhile p = unifyBreaks (t.dropWhile p) := by
  induction t using breaks_induction with
  | nil => exact ⟨rfl, rfl⟩
  | inside c t hc ih =>
    rw [unifyBreaks_cons hc]
    by_cases hpc : p c = true
    · rw [List.takeWhile_cons_of_pos hpc, List.takeWhile_cons_of_pos hpc,
        List.dropWhile_cons_of_pos hpc, List.dropWhile_cons_of_pos hpc, ih.1, ih.2,
        unifyBreaks_cons hc]
      exact ⟨rfl, rfl⟩
    · rw [List.takeWhile_cons_of_neg hpc, List.takeWhile_cons_of_neg hpc,
        List.dropWhile_cons_of_neg hpc, List.dropWhile_cons_of_neg hpc, unifyBreaks_cons hc]
      exact ⟨rfl, rfl⟩
  | lineBreak b t hb ih =>
    rw [unifyBreaks_break hb]
    by_cases hfeed : p '\n' = true
    · have hall : ∀ c ∈ b, p c = true := by
        intro c hc
        rw [hp.eq (hb.isLineEnd_of_mem hc), hfeed]
      -- the test is the same for all line ends, so a break is taken whole or left whole
      have hbreak : BreakBefore b (t.takeWhile p) := by
        cases hb with
        | pair => exact .pair _
        | feed => exact .feed _
        | «return» h =>
          refine .return fun hhead => h ?_
          cases t with
          | nil => cases hhead
          | cons d t =>
            by_cases hd : p d = true
            · rwa [List.takeWhile_cons_of_pos hd] at hhead
            · rw [List.takeWhile_cons_of_neg hd] at hhead
              cases hhead
      rw [List.takeWhile_cons_of_pos hfeed, List.dropWhile_cons_of_pos hfeed,
        List.takeWhile_append_of_pos hall, List.dropWhile_append_of_pos hall, ih.1, ih.2,
        unifyBreaks_break hbreak]
      exact ⟨rfl, rfl⟩
    · obtain ⟨e, u, heq, he⟩ := hb.exists_cons
      have hpe : ¬ p e = true := by rwa [hp.eq he]
      rw [List.takeWhile_cons_of_neg hfeed, List.dropWhile_cons_of_neg hfeed,
        ← unifyBreaks_break hb, heq, List.takeWhile_cons_of_neg hpe,
        List.dropWhile_cons_of_neg hpe]
      exact ⟨rfl, rfl⟩

/-- What is taken of the text by a break-blind class is taken of both texts. -/
theorem takeWhile_unifyBreaks {p : Char → Bool} (hp : BreakBlind p) (t : Text) :
    (unifyBreaks t).takeWhile p = unifyBreaks (t.takeWhile p) :=
  (takeWhile_dropWhile_unifyBreaks hp t).1

/-- And so is what is dropped. -/
theorem dropWhile_unifyBreaks {p : Char → Bool} (hp : BreakBlind p) (t : Text) :
    (unifyBreaks t).dropWhile p = unifyBreaks (t.dropWhile p) :=
  (takeWhile_dropWhile_unifyBreaks hp t).2

/-- A class that leaves the line ends out takes the same from the start of a text. -/
theorem takeWhile_unifyBreaks_inside {p : Char → Bool} (hp : BreakBlind p) (hfeed : p '\n' = false)
    (t : Text) : (unifyBreaks t).takeWhile p = t.takeWhile p := by
  rw [takeWhile_unifyBreaks hp, unifyBreaks_of_inside]
  intro c hc
  cases hend : isLineEnd c with
  | false => rfl
  | true =>
    have hpc := List.mem_takeWhile_imp hc
    rw [hp.eq hend, hfeed] at hpc
    cases hpc

/-- Line breaks are blank, so they are trimmed whole. -/
theorem trimStart_unifyBreaks (t : Text) : trimStart (unifyBreaks t) = unifyBreaks (trimStart t) :=
  dropWhile_unifyBreaks (by decide) t

/-- A class does not tell the first characters apart. -/
theorem any_head?_unifyBreaks {p : Char → Bool} (hp : BreakBlind p) (t : Text) :
    (unifyBreaks t).head?.any p = t.head?.any p := by
  induction t using breaks_induction with
  | nil => rfl
  | inside c t hc _ => rw [unifyBreaks_cons hc]; rfl
  | lineBreak b t hb _ =>
    obtain ⟨e, u, heq, he⟩ := hb.exists_cons
    rw [unifyBreaks_break hb, heq]
    exact (hp.eq he).symm

/-- A text has the end of a line in it exactly if it has one after that. -/
theorem any_isLineEnd_unifyBreaks (t : Text) : (unifyBreaks t).any isLineEnd = t.any isLineEnd := by
  induction t using breaks_induction with
  | nil => rfl
  | inside c t hc ih => rw [unifyBreaks_cons hc, List.any_cons, List.any_cons, ih]
  | lineBreak b t hb _ =>
    obtain ⟨e, u, heq, he⟩ := hb.exists_cons
    rw [unifyBreaks_break hb, heq, List.any_cons, List.any_cons, he, Bool.true_or]
    rfl

/-! ## Lines -/

/-- A line break of the narrow sense ends an empty line. -/
theorem lines_break {b t : Text} (h : BreakBefore b t) : lines (b ++ t) = [] :: lines t := by
  cases h with
  | pair => rfl
  | feed => exact (lines_cons fun _ h => absurd h (by decide)).trans (if_pos (by decide))
  | «return» h =>
    refine (lines_cons fun u _ ht => ?_).trans (if_pos (by decide))
    subst ht
    exact h rfl

/-- A text keeps its lines. -/
theorem lines_unifyBreaks (t : Text) : lines (unifyBreaks t) = lines t := by
  induction t using breaks_induction with
  | nil => rfl
  | inside c t hc ih =>
    have hreturn := ne_return_of_inside hc
    rw [unifyBreaks_cons hc, lines_cons fun _ h => absurd h hreturn,
      lines_cons fun _ h => absurd h hreturn, ih]
  | lineBreak b t hb ih =>
    rw [unifyBreaks_break hb, lines_break hb, ← List.singleton_append, lines_break (.feed _), ih]

end SetupCatalog.Text
