import Mathlib.Algebra.GroupWithZero.Nat
import SetupCatalog.Command.Install

/-!
# The statements of a script

A script that is put together from plain code and from literals is read piece by piece: code without
quotes is read as it is, and a literal as the text that was written (`partsFrom_code_append`,
`partsFrom_literal_append`). Its statements are what stands between the characters of the code that
end statements (`statements_append_end`).

For the converse two numbers are enough, which the reading does not change. Every literal is read
from twice as many quotes as it stands for, and two more (`countP_isQuote_eq`); and there is one
statement more than there are ends (`length_statements`).
-/

namespace SetupCatalog.PowerShell

/-- A text that stands outside of literals. -/
def code (t : Text) : List Part :=
  t.map .code

/-- Code has no literals. -/
@[simp]
theorem count_literal_code (t value : Text) : (code t).count (.literal value) = 0 := by
  refine List.count_eq_zero.mpr fun hmem => ?_
  obtain ⟨c, -, hc⟩ := List.mem_map.mp hmem
  cases hc

/-! ## Reading piece by piece -/

/-- Code without quotes is read as it is. -/
theorem partsFrom_code_append {t : Text} (h : ∀ c ∈ t, isQuote c = false) (rest : Text) :
    partsFrom .code (t ++ rest) = (partsFrom .code rest).map (code t ++ ·) := by
  induction t with
  | nil => exact Option.map_id'.symm
  | cons c t ih =>
    have hc : isQuote c = false := h c List.mem_cons_self
    have ht := ih fun d hd => h d (List.mem_cons_of_mem c hd)
    rw [List.cons_append, partsFrom, hc, if_neg Bool.false_ne_true, ht, Option.map_map]
    rfl

/-- A literal is read as the text that was written, if code comes after it. -/
theorem partsFrom_literal_append {value t : Text}
    (hvalue : ∀ c ∈ value, isTypographicQuote c = false) (ht : ∀ c ∈ t, isQuote c = false)
    (hne : t ≠ []) (rest : Text) :
    partsFrom .code (literal value ++ (t ++ rest)) =
      (partsFrom .code rest).map fun parts => .literal value :: (code t ++ parts) := by
  have hopen : isQuote '\'' = true := rfl
  obtain ⟨c, t, rfl⟩ := List.exists_cons_of_ne_nil hne
  have hc : isQuote c = false := ht c List.mem_cons_self
  have hcode := partsFrom_code_append (fun d hd => ht d (List.mem_cons_of_mem c hd)) rest
  rw [literal, List.append_assoc, List.cons_append, List.singleton_append, partsFrom, if_pos hopen,
    partsFrom_literalBody hvalue, List.nil_append, List.cons_append, partsFrom, hc,
    if_neg Bool.false_ne_true, hcode, Option.map_map]
  rfl

/-! ## Statements -/

/-- Code ends no statement if none of its characters does. -/
theorem forall_mem_code {t : Text} :
    (∀ part ∈ code t, part.endsStatement = false) ↔ ∀ c ∈ t, (Part.code c).endsStatement = false :=
  List.forall_mem_map

/-- There is always a statement, be it an empty one. -/
theorem statements_ne_nil (parts : List Part) : statements parts ≠ [] := by
  cases parts with
  | nil => exact List.cons_ne_nil _ _
  | cons part parts =>
    rw [statements]
    split
    · exact List.cons_ne_nil _ _
    · split
      · exact List.cons_ne_nil _ _
      · exact List.cons_ne_nil _ _

/-- A part that ends a statement ends the first one, which is empty. -/
theorem statements_cons_end {part : Part} (h : part.endsStatement = true) (parts : List Part) :
    statements (part :: parts) = [] :: statements parts := by
  rw [statements, if_pos h]

/-- A part that ends no statement belongs to the first statement. -/
theorem statements_cons {part : Part} (h : part.endsStatement = false) {parts : List Part}
    {s : List Part} {ss : List (List Part)} (hparts : statements parts = s :: ss) :
    statements (part :: parts) = (part :: s) :: ss := by
  rw [statements, h, if_neg Bool.false_ne_true, hparts]

/-- Parts that end no statement are one statement. -/
theorem statements_of_forall {s : List Part} (h : ∀ part ∈ s, part.endsStatement = false) :
    statements s = [s] := by
  induction s with
  | nil => rfl
  | cons part s ih =>
    have hpart : part.endsStatement = false := h part List.mem_cons_self
    exact statements_cons hpart (ih fun q hq => h q (List.mem_cons_of_mem part hq))

/-- A part that ends a statement separates what is before it from what is after it. -/
theorem statements_append_end {last : Part} (hlast : last.endsStatement = true)
    (first rest : List Part) :
    statements (first ++ last :: rest) = statements first ++ statements rest := by
  induction first with
  | nil => exact statements_cons_end hlast rest
  | cons part first ih =>
    cases hpart : part.endsStatement with
    | true =>
      rw [List.cons_append, statements_cons_end hpart, statements_cons_end hpart, ih,
        List.cons_append]
    | false =>
      obtain ⟨s, ss, hfirst⟩ := List.exists_cons_of_ne_nil (statements_ne_nil first)
      rw [hfirst, List.cons_append] at ih
      rw [List.cons_append, statements_cons hpart ih, statements_cons hpart hfirst,
        List.cons_append]

/-- There is one statement more than there are ends of statements. -/
theorem length_statements (parts : List Part) :
    (statements parts).length = parts.countP Part.endsStatement + 1 := by
  induction parts with
  | nil => rfl
  | cons part parts ih =>
    cases hpart : part.endsStatement with
    | true =>
      rw [statements_cons_end hpart, List.length_cons, ih, List.countP_cons_of_pos hpart]
    | false =>
      obtain ⟨s, ss, hparts⟩ := List.exists_cons_of_ne_nil (statements_ne_nil parts)
      have hnot : ¬ part.endsStatement = true := Bool.not_eq_true _ ▸ hpart
      rw [statements_cons hpart hparts, List.countP_cons_of_neg hnot, ← ih, hparts,
        List.length_cons, List.length_cons]

/-- Where there is only one statement, nothing ends one. -/
theorem statements_eq_singleton {parts s : List Part} (h : statements parts = [s]) :
    parts = s ∧ ∀ part ∈ s, part.endsStatement = false := by
  have hcount : parts.countP Part.endsStatement = 0 := by
    have hlength := length_statements parts
    rw [h, List.length_singleton] at hlength
    omega
  have hends : ∀ part ∈ parts, part.endsStatement = false := fun part hpart =>
    eq_false_of_ne_true (List.countP_eq_zero.mp hcount part hpart)
  rw [statements_of_forall hends] at h
  obtain rfl := List.singleton_inj.mp h
  exact ⟨rfl, hends⟩

/-! ## Quotes -/

/-- The number of quotes that a part is read from. -/
def Part.quotes : Part → Nat
  | code _ => 0
  | literal value => 2 * value.countP isQuote + 2

/-- The number of quotes that were read before a spot for the literal that is open there. -/
def Spot.quotes : Spot → Nat
  | code => 0
  | inside value => 2 * value.countP isQuote + 1
  | afterQuote value => 2 * value.countP isQuote + 2

/-- The number of quotes that the given parts are read from. -/
def quotes (parts : List Part) : Nat :=
  (parts.map Part.quotes).sum

@[simp]
theorem quotes_nil : quotes [] = 0 :=
  rfl

@[simp]
theorem quotes_cons (part : Part) (parts : List Part) :
    quotes (part :: parts) = part.quotes + quotes parts := by
  rw [quotes, List.map_cons, List.sum_cons, quotes]

/-- Quotes are counted part by part. -/
@[simp]
theorem quotes_append (first second : List Part) :
    quotes (first ++ second) = quotes first + quotes second := by
  rw [quotes, List.map_append, List.sum_append, quotes, quotes]

/-- Code that is no literal has no quotes. -/
@[simp]
theorem quotes_code (t : Text) : quotes (code t) = 0 := by
  induction t with
  | nil => rfl
  | cons c t ih =>
    rw [code, List.map_cons, quotes_cons, ← code, ih]
    rfl

/-- The parts from a spot on are read from the quotes before the spot that still count and those
after it. -/
theorem quotes_partsFrom {spot : Spot} {t : Text} {parts : List Part}
    (h : partsFrom spot t = some parts) : spot.quotes + t.countP isQuote = quotes parts := by
  -- the quotes that are still to be read and those already read at the spot add up to those of the
  -- parts
  fun_induction partsFrom spot t generalizing parts with
  | case1 =>
    obtain rfl := Option.some.inj h
    rfl
  | case2 => cases h
  | case3 value =>
    obtain rfl := Option.some.inj h
    rfl
  | case4 c t hquote ih =>
    have hrest := ih h
    rw [List.countP_cons_of_pos hquote, ← hrest]
    simp only [Spot.quotes, List.countP_nil]
    omega
  | case5 c t hquote ih =>
    obtain ⟨rest, hread, rfl⟩ := Option.map_eq_some_iff.mp h
    rw [List.countP_cons_of_neg hquote, ih hread, quotes_cons, Part.quotes, Nat.zero_add]
  | case6 value c t hquote ih =>
    have hrest := ih h
    rw [List.countP_cons_of_pos hquote, ← hrest]
    simp only [Spot.quotes]
    omega
  | case7 value c t hquote ih =>
    have hrest := ih h
    rw [List.countP_cons_of_neg hquote, ← hrest]
    simp only [Spot.quotes, List.countP_append, List.countP_singleton, if_neg hquote]
    omega
  | case8 value c t hquote ih =>
    have hrest := ih h
    rw [List.countP_cons_of_pos hquote, ← hrest]
    simp only [Spot.quotes, List.countP_append, List.countP_singleton, if_pos hquote]
    omega
  | case9 value c t hquote ih =>
    obtain ⟨rest, hread, rfl⟩ := Option.map_eq_some_iff.mp h
    have hrest := ih hread
    rw [List.countP_cons_of_neg hquote, quotes_cons, quotes_cons, ← hrest]
    simp only [Spot.quotes, Part.quotes]
    omega

/-- A script has as many quotes as its parts are read from. -/
theorem countP_isQuote_eq {script : Text} {parts : List Part} (h : parts? script = some parts) :
    script.countP isQuote = quotes parts := by
  rw [← quotes_partsFrom h, Spot.quotes, Nat.zero_add]

/-- What ends a statement is not read from quotes. -/
theorem quotes_flatten_statements (parts : List Part) :
    quotes (statements parts).flatten = quotes parts := by
  induction parts with
  | nil => rfl
  | cons part parts ih =>
    cases hpart : part.endsStatement with
    | true =>
      have hquotes : part.quotes = 0 := by
        cases part with
        | code c => rfl
        | literal value => cases hpart
      rw [statements_cons_end hpart, List.flatten_cons, List.nil_append, ih, quotes_cons, hquotes,
        Nat.zero_add]
    | false =>
      obtain ⟨s, ss, hparts⟩ := List.exists_cons_of_ne_nil (statements_ne_nil parts)
      rw [hparts, List.flatten_cons] at ih
      rw [statements_cons hpart hparts, List.flatten_cons, List.cons_append, quotes_cons, ih,
        quotes_cons]

/-- Only the plain quote is written twice, so a literal misses one quote for each typographic quote.
-/
theorem countP_isQuote_literal (value : Text) :
    (literal value).countP isQuote + value.countP isTypographicQuote =
      (Part.literal value).quotes := by
  -- only the plain quote is doubled, so a typographic quote stands once where two would be read as
  -- one
  have hbody : (literalBody value).countP isQuote + value.countP isTypographicQuote =
      2 * value.countP isQuote := by
    induction value with
    | nil => rfl
    | cons c value ih =>
      rw [literalBody] at ih ⊢
      rw [List.flatMap_cons, List.countP_append]
      by_cases hplain : c = '\''
      · have hquote : isQuote c = true := by simp [isQuote, hplain]
        have htypographic : ¬ isTypographicQuote c = true := by simp [hplain, isTypographicQuote]
        have htwice : ['\'', '\''].countP isQuote = 2 := by decide
        rw [if_pos hplain, List.countP_cons_of_neg htypographic, List.countP_cons_of_pos hquote,
          htwice]
        omega
      · have hquote : isQuote c = isTypographicQuote c := by simp [isQuote, hplain]
        rw [if_neg hplain, List.countP_singleton, List.countP_cons, List.countP_cons, hquote]
        split <;> omega
  have hend : ['\''].countP isQuote = 1 := by decide
  rw [literal, List.cons_append, List.countP_cons_of_pos rfl, List.countP_append, Part.quotes, hend]
  omega

end SetupCatalog.PowerShell
