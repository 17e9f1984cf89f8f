import SetupCatalog.Proofs.Pattern.Sweep
import SetupCatalog.Proofs.Rule.Field
import SetupCatalog.Rule.PipedArray

/-!
# What is read of a piped array

What a text looked like if the readers of the rule for piped arrays have read it: a literal, a run
of literals, the beginning of an array, and the loop.

A run of literals is read one literal at a time. What is so after one literal, and stays so when a
comma and a run are read after it, is so after every run (`literalRun_induction`).

The rule keeps only the text of a run and looks for the literals in it once more. The search goes
from hit to hit and knows nothing of commas, but it finds the very literals that were read
(`literalValues_consumed`), since no literal starts in the gap between two of them.
-/

namespace SetupCatalog.Rule.PipedArray

open Text Pattern

/-! ## Literals -/

theorem isQuote_single : isQuote '\'' = true := by
  decide

/-- A quote does not start a comment. -/
theorem isQuote_ne_hash {q : Char} (hq : isQuote q = true) : q ≠ '#' := by
  rintro rfl
  exact absurd hq (by decide)

/-- A quote ends no line. -/
theorem isLineEnd_of_isQuote {q : Char} (hq : isQuote q = true) : isLineEnd q = false :=
  isLineEnd_eq_false_of_isBlank (isBlank_eq_false_of_isQuote hq)

/-- A literal is a value on one line with equal quotes around it, and the quote is not in the value.
What comes after it, and what before, does not matter. -/
theorem literal_eq_some_iff {prev : Option Char} {t value rest : Text} :
    literal prev t = some (value, rest) ↔
      ∃ q, isQuote q = true ∧ value ≠ [] ∧ q ∉ value ∧ value.OneLine ∧
        t = q :: (value ++ q :: rest) := by
  constructor
  · intro h
    unfold literal at h
    split at h
    · cases h
    · next q u =>
      split at h
      · next hq =>
        simp only [bind, Option.bind_eq_some_iff, pure, Option.some.injEq, Prod.exists,
          Prod.mk.injEq] at h
        obtain ⟨word, after, hword, after', hclose, rfl, rfl⟩ := h
        obtain ⟨hne, hchars, rfl⟩ := of_someOf_eq_some hword
        obtain rfl := symbol_eq_some_iff.mp hclose
        -- what is read between the quotes has neither the quote nor a line end in it
        have hinside : ∀ c ∈ word, c ≠ q ∧ isLineEnd c = false := by
          intro c hc
          have := hchars c hc
          rwa [Bool.and_eq_true, bne_iff_ne, Bool.not_eq_true'] at this
        exact ⟨q, hq, hne, fun hmem => (hinside q hmem).1 rfl, fun c hc => (hinside c hc).2, rfl⟩
      · cases h
  · rintro ⟨q, hq, hne, hquote, hline, rfl⟩
    have hinside : ∀ c ∈ value, (c != q && !isLineEnd c) = true := by
      intro c hc
      rw [Bool.and_eq_true, bne_iff_ne, Bool.not_eq_true']
      exact ⟨fun e => hquote (e ▸ hc), hline c hc⟩
    have hword : someOf (fun c => c != q && !isLineEnd c) (value ++ q :: rest) =
        some (value, q :: rest) := someOf_append_cons hne hinside (by simp)
    rw [literal, if_pos hq]
    simp only [hword, bind, Option.bind_some, symbol_eq_some_iff.mpr rfl]
    rfl

/-- No literal starts with a character that is no quote. -/
theorem literal_cons_eq_none {c : Char} (hc : isQuote c = false) (prev : Option Char) (t : Text) :
    literal prev (c :: t) = none := by
  rw [literal, if_neg (by rw [hc]; exact Bool.false_ne_true)]

/-- What holds of one literal, and of a literal with a comma and a run after it if it holds of the
run, holds of every run. -/
theorem literalRun_induction {P : Text → List Text → Text → Prop}
    (single : ∀ t value rest, literal none t = some (value, rest) → P t [value] rest)
    (more : ∀ t value after t' others rest, literal none t = some (value, after) →
      symbol ',' (trimStart after) = some t' → P (trimStart t') others rest →
      P t (value :: others) rest)
    {most : Nat} {t : Text} {found : List Text} {rest : Text}
    (h : literalRun most t = some (found, rest)) : P t found rest := by
  induction most generalizing t found rest with
  | zero => cases h
  | succ most ih =>
    simp only [literalRun, bind, Option.bind_eq_some_iff, Prod.exists] at h
    obtain ⟨value, after, hvalue, h⟩ := h
    split at h
    · next others rest' hmore =>
      cases h
      obtain ⟨t', hcomma, hothers⟩ := Option.bind_eq_some_iff.mp hmore
      exact more t value after t' others rest hvalue hcomma (ih hothers)
    · cases h
      exact single t value rest hvalue

/-- Every literal of a run stays on one line, although the run need not. -/
theorem literalRun_oneLine {most : Nat} {t : Text} {found : List Text} {rest : Text}
    (h : literalRun most t = some (found, rest)) : ∀ value ∈ found, value.OneLine := by
  refine literalRun_induction (P := fun _ found _ => ∀ value ∈ found, value.OneLine) ?_ ?_ h
  · intro t value rest hvalue other hother
    obtain ⟨-, -, -, -, hline, -⟩ := literal_eq_some_iff.mp hvalue
    rw [List.mem_singleton.mp hother]
    exact hline
  · intro t value after t' others rest hvalue _ ih other hother
    obtain ⟨-, -, -, -, hline, -⟩ := literal_eq_some_iff.mp hvalue
    rcases List.mem_cons.mp hother with rfl | hother
    · exact hline
    · exact ih other hother

/-- A quote does not belong to the gap between two literals: blanks, a comma, and blanks again. -/
theorem isQuote_eq_false_of_mem_gap {before after : Text} (hbefore : ∀ b ∈ before, isBlank b = true)
    (hafter : ∀ b ∈ after, isBlank b = true) {c : Char} (hc : c ∈ before ++ ',' :: after) :
    isQuote c = false := by
  refine eq_false_of_ne_true fun hquote => ?_
  have hvisible := isBlank_eq_false_of_isQuote hquote
  rcases List.mem_append.mp hc with hc | hc
  · rw [hbefore c hc] at hvisible
    cases hvisible
  · rcases List.mem_cons.mp hc with rfl | hc
    · exact absurd hquote (by decide)
    · rw [hafter c hc] at hvisible
      cases hvisible

/-- A sweep finds a literal that it comes to, and goes on behind it. -/
theorem sweep_literal {q : Char} {value : Text} (hq : isQuote q = true) (hne : value ≠ [])
    (hquote : q ∉ value) (hline : value.OneLine) (before rest : Text) :
    literal.allFrom 0 before (q :: (value ++ q :: rest)) =
      ⟨before, value, rest⟩ ::
        literal.allFrom 0 ((q :: (value ++ [q])).reverse ++ before) rest := by
  have hread : literal before.head? (q :: ((value ++ [q]) ++ rest)) = some (value, rest) :=
    literal_eq_some_iff.mpr ⟨q, hq, hne, hquote, hline, by simp⟩
  rw [← allFrom_of_read hread, List.append_assoc, List.singleton_append]

/-- The reader of runs and a sweep for literals agree. The text of a run, taken for itself, ends
with a quote, and a sweep over it finds the literals that the run was read of, one after the other:
it never takes the end of one literal and the start of the next for the quotes of a literal between
them, whatever quotes stand in the values. -/
theorem exists_of_literalRun {most : Nat} {t : Text} {found : List Text} {rest : Text}
    (h : literalRun most t = some (found, rest)) :
    ∃ run q, t = run ++ rest ∧ run.getLast? = some q ∧ isQuote q = true ∧
      ∀ before, (literal.allFrom 0 before run).map (·.found) = found := by
  refine literalRun_induction (P := fun t found rest =>
    ∃ run q, t = run ++ rest ∧ run.getLast? = some q ∧ isQuote q = true ∧
      ∀ before, (literal.allFrom 0 before run).map (·.found) = found) ?_ ?_ h
  · intro t value rest hvalue
    obtain ⟨q, hq, hne, hquote, hline, rfl⟩ := literal_eq_some_iff.mp hvalue
    refine ⟨q :: (value ++ [q]), q, ?_, ?_, hq, fun before => ?_⟩
    · rw [List.cons_append, List.append_assoc, List.singleton_append]
    · rw [← List.cons_append, List.getLast?_concat]
    · rw [sweep_literal hq hne hquote hline before []]
      rfl
  · intro t value after t' others rest hvalue hcomma ih
    obtain ⟨q, hq, hne, hquote, hline, rfl⟩ := literal_eq_some_iff.mp hvalue
    obtain ⟨blanks, hblanks, rfl⟩ := (symbol_trimStart_eq_some_iff (by decide)).mp hcomma
    obtain ⟨run, last, hrun, hlast, hclosed, hsweep⟩ := ih
    have hafter : t' = t'.takeWhile isBlank ++ (run ++ rest) := by
      rw [← hrun, trimStart, List.takeWhile_append_dropWhile]
    -- between two literals there are only blanks and a comma, where no literal starts
    let gap := blanks ++ ',' :: t'.takeWhile isBlank
    have hgap : literal.PassesOver gap run := passesOver_of_forall_mem (fun c hc prev u =>
      literal_cons_eq_none (isQuote_eq_false_of_mem_gap hblanks
        (fun b hb => List.mem_takeWhile_imp hb) hc) prev u) run
    refine ⟨q :: (value ++ q :: (gap ++ run)), last, ?_, ?_, hclosed, fun before => ?_⟩
    · conv_lhs => rw [hafter]
      simp [gap]
    · simp [List.getLast?_append, List.getLast?_cons, hlast]
    · rw [sweep_literal hq hne hquote hline before (gap ++ run), allFrom_append_of_passesOver hgap,
        List.map_cons, hsweep]

/-- What a run of literals leaves is an end of the text. -/
theorem suffix_of_literalRun {most : Nat} {t : Text} {found : List Text} {rest : Text}
    (h : literalRun most t = some (found, rest)) : rest <:+ t := by
  obtain ⟨run, -, rfl, -⟩ := exists_of_literalRun h
  exact List.suffix_append run rest

/-- **Looking for the literals of a run once more finds the same values.** -/
theorem literalValues_consumed {most : Nat} {t : Text} {found : List Text} {rest : Text}
    (h : literalRun most t = some (found, rest)) :
    literalValues (consumed t rest) = values found := by
  obtain ⟨run, -, rfl, -, -, hsweep⟩ := exists_of_literalRun h
  rw [consumed_append, literalValues, Pattern.all, hsweep]

/-! ## Loops -/

/-- The beginning of an array has no hash sign, and starts with an at sign if it is not empty. -/
theorem exists_arrayOpening (t : Text) :
    ∃ opening, t = opening ++ arrayOpening t ∧ '#' ∉ opening ∧
      (opening = [] ∨ opening.head? = some '@') := by
  unfold arrayOpening
  split
  · next u hopening =>
    obtain ⟨v, hat, hparenthesis⟩ := Option.bind_eq_some_iff.mp hopening
    obtain rfl := symbol_eq_some_iff.mp hat
    obtain rfl := symbol_eq_some_iff.mp hparenthesis
    have hsplit : u.takeWhile isBlank ++ trimStart u = u := List.takeWhile_append_dropWhile
    refine ⟨'@' :: '(' :: u.takeWhile isBlank, ?_, ?_, Or.inr rfl⟩
    · conv_lhs => rw [← hsplit]
      rfl
    · intro hmem
      -- the two signs and the blanks behind them
      rcases List.mem_cons.mp hmem with hmem | hmem
      · exact absurd hmem (by decide)
      rcases List.mem_cons.mp hmem with hmem | hmem
      · exact absurd hmem (by decide)
      exact isBlank_ne_hash (List.mem_takeWhile_imp hmem) rfl
  · exact ⟨[], rfl, List.not_mem_nil, Or.inl rfl⟩

/-- A loop starts with a quote or with an at sign. -/
theorem loop_cons_eq_none {c : Char} (hat : c ≠ '@') (hquote : isQuote c = false)
    (prev : Option Char) (t : Text) : loop prev (c :: t) = none := by
  have hopening : arrayOpening (c :: t) = c :: t := by
    rw [arrayOpening, symbol_cons_of_ne hat]
    rfl
  simp only [loop, bind, hopening, List.head?_cons, Option.any_some, hquote]
  rfl

/-- A piped loop leaves what comes after a closing brace. -/
theorem suffix_of_pipedLoop {t body rest : Text} (h : pipedLoop t = some (body, rest)) :
    '}' :: rest <:+ t := by
  simp only [pipedLoop, bind, Option.bind_eq_some_iff, pure, Option.some.injEq, Prod.mk.injEq] at h
  obtain ⟨t₁, hpipe, t₂, hword, t₃, hopen, rest, hclose, -, rfl⟩ := h
  have hparenthesis : (symbol ')' (trimStart t)).getD (trimStart t) <:+ trimStart t := by
    cases hsymbol : symbol ')' (trimStart t) with
    | none => exact List.suffix_refl _
    | some u => exact suffix_of_symbol hsymbol
  have h₁ : t₁ <:+ t := (suffix_of_symbol hpipe).trans
    ((trimStart_suffix _).trans (hparenthesis.trans (trimStart_suffix t)))
  have h₂ : t₂ <:+ t := (suffix_of_anyKeyword hword).trans ((trimStart_suffix t₁).trans h₁)
  have h₃ : t₃ <:+ t := (suffix_of_symbol hopen).trans ((trimStart_suffix t₂).trans h₂)
  rw [← symbol_eq_some_iff.mp hclose]
  exact (List.dropWhile_suffix _).trans h₃

/-- A loop is read of a run of literals and of what it is piped into. The values of the loop are
those of the literals. -/
theorem exists_literalRun_of_loop {prev : Option Char} {t : Text} {found : Loop} {after : Text}
    (h : loop prev t = some (found, after)) :
    ∃ literals rest,
      literalRun (arrayOpening t).length (arrayOpening t) = some (literals, rest) ∧
        literalValues found.run = values literals ∧ (arrayOpening t).head?.any isQuote = true ∧
        pipedLoop rest = some (found.body, after) := by
  simp only [loop, bind, Option.bind_eq_some_iff, pure, Option.some.injEq, Prod.exists,
    Prod.mk.injEq, Option.guard_eq_some', exists_const] at h
  obtain ⟨hquote, literals, rest, hrun, body, after', hloop, rfl, rfl⟩ := h
  exact ⟨literals, rest, hrun, literalValues_consumed hrun, hquote, hloop⟩

/-- A loop over literals ends with a closing brace. -/
theorem exists_of_loop_eq_some {prev : Option Char} {t : Text} {found : Loop} {rest : Text}
    (h : loop prev t = some (found, rest)) : ∃ read, t = read ++ ['}'] ++ rest := by
  obtain ⟨literals, t', hrun, -, -, hloop⟩ := exists_literalRun_of_loop h
  obtain ⟨opening, ht, -⟩ := exists_arrayOpening t
  obtain ⟨read, hread⟩ := (suffix_of_pipedLoop hloop).trans
    ((suffix_of_literalRun hrun).trans ⟨opening, ht.symm⟩)
  exact ⟨read, by rw [← hread, List.append_assoc, List.singleton_append]⟩

end SetupCatalog.Rule.PipedArray
