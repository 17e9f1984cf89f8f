import SetupCatalog.Proofs.Pattern.Extension
import SetupCatalog.Proofs.Pattern.Sweep
import SetupCatalog.Proofs.Text.Piece
import SetupCatalog.Script.Argument

/-!
# The words of an argument text

`arguments` finds the words of a text with a sweep. Here the words are said by how the text is
written: blanks part the words, a word in quotes ends with its quote, and a bare word ends where a
blank comes next (`arguments_cons_blank`, `arguments_quoted`, `arguments_bare`).

A text `SplitsInto` words if they are its words whatever comes after it. Any text is such a text and
after it a bare word that is cut off by the end, or a quote that is not closed
(`exists_splitsInto_append`). What a text goes on with matters to this last word alone.

A `Spelling` is a word as somebody writes it, bare or in quotes. It is read back
(`Spelling.arguments_append`).
-/

namespace SetupCatalog.Script

open Text Pattern

/-! ## One word -/

/-- An argument does not ask what stands before it. -/
theorem argument_of_blind (prev : Option Char) (t : Text) : argument prev t = argument none t := rfl

/-- What a sweep finds does not depend on what was passed before. -/
theorem map_found_allFrom (skip : Nat) (before before' t : Text) :
    (argument.allFrom skip before t).map (·.found) =
      (argument.allFrom skip before' t).map (·.found) := by
  induction t generalizing skip before before' with
  | nil => cases skip <;> rfl
  | cons c t ih =>
    cases skip with
    | succ skip => exact ih skip _ _
    | zero =>
      rw [allFrom, allFrom, argument_of_blind, argument_of_blind before'.head?]
      cases argument none (c :: t) with
      | none => exact ih 0 _ _
      | some found => exact congrArg (found.1 :: ·) (ih _ _ _)

/-- The arguments of a text are its matches, without the quotes around them. -/
theorem arguments_eq (t : Text) :
    arguments t = ((argument.all t).map (·.found)).map unquoted := by
  rw [arguments, List.map_map]
  rfl

/-- The first word of a text that starts with it, and the words of the rest. -/
theorem arguments_of_read {read rest word : Text} (hne : read ≠ [])
    (h : argument none (read ++ rest) = some (word, rest)) :
    arguments (read ++ rest) = unquoted word :: arguments rest := by
  obtain ⟨c, read, rfl⟩ := List.exists_cons_of_ne_nil hne
  have hsweep := @allFrom_of_read _ argument c read [] rest word h
  rw [arguments_eq, arguments_eq, Pattern.all, List.cons_append, hsweep, List.map_cons,
    map_found_allFrom 0 _ [], Pattern.all, List.map_cons]

/-- A blank before the arguments does not count. -/
theorem arguments_cons_blank {c : Char} (hc : isBlank c = true) (t : Text) :
    arguments (c :: t) = arguments t := by
  have hquote : isQuote c = false := by
    rw [Bool.eq_false_iff]
    intro hquote
    rw [isBlank_eq_false_of_isQuote hquote] at hc
    cases hc
  have hnone : argument none (c :: t) = none := by
    rw [argument, hquote, Bool.false_and, if_neg Bool.false_ne_true]
    exact someOf_eq_none_iff.mpr (by simp [hc])
  rw [arguments_eq, arguments_eq, Pattern.all, allFrom, List.head?_nil, hnone]
  exact congrArg (List.map unquoted) (map_found_allFrom 0 _ _ t)

/-- Quotes are taken off. -/
theorem unquoted_quoted {q : Char} (hq : isQuote q = true) (inside : Text) :
    unquoted (q :: (inside ++ [q])) = inside := by
  rw [unquoted, hq, List.getLast?_concat, List.dropLast_concat]
  simp

/-- A word in quotes ends with its quote. -/
theorem arguments_quoted {q : Char} {inside : Text} (hq : isQuote q = true) (hinside : q ∉ inside)
    (rest : Text) : arguments (q :: (inside ++ q :: rest)) = inside :: arguments rest := by
  have hread : argument none (q :: (inside ++ q :: rest)) = some (q :: (inside ++ [q]), rest) := by
    have hcontains : (inside ++ q :: rest).contains q = true := by simp
    rw [argument, hq, hcontains, Bool.true_and, if_pos rfl, takeWhile_bne_append hinside,
      dropWhile_bne_append hinside]
    simp
  have hsplit : q :: (inside ++ q :: rest) = (q :: (inside ++ [q])) ++ rest := by simp
  rw [hsplit] at hread ⊢
  rw [arguments_of_read (List.cons_ne_nil _ _) hread, unquoted_quoted hq]

/-- A word that is not in quotes: it has no blanks, and it does not start with a quote. -/
def IsBare (word : Text) : Prop :=
  (∀ c ∈ word, isBlank c = false) ∧ word.head?.any isQuote = false

instance (word : Text) : Decidable (IsBare word) :=
  decidable_of_iff (word.any isBlank = false ∧ word.head?.any isQuote = false)
    (and_congr_left' any_eq_false_iff)

/-- The empty word is bare. -/
theorem isBare_nil : IsBare [] :=
  ⟨List.forall_mem_nil _, rfl⟩

/-- A bare word goes on as long as no blank comes. -/
theorem IsBare.append_cons {word more : Text} {c : Char} (hword : IsBare word)
    (hc : isQuote c = false) (hmore : ∀ d ∈ c :: more, isBlank d = false) :
    IsBare (word ++ c :: more) := by
  refine ⟨fun d hd => ?_, ?_⟩
  · rcases List.mem_append.mp hd with hd | hd
    · exact hword.1 d hd
    · exact hmore d hd
  · cases word with
    | nil => exact hc
    | cons e word => exact hword.2

/-- A bare word has no quotes to be taken off. -/
theorem unquoted_of_isBare {word : Text} (h : IsBare word) : unquoted word = word := by
  cases word with
  | nil => rfl
  | cons c word =>
    have hc : isQuote c = false := h.2
    rw [unquoted, hc]
    rfl

/-- A bare word ends before a blank, or where the text does. -/
theorem arguments_bare {word rest : Text} (hne : word ≠ []) (hword : IsBare word)
    (hrest : rest.head?.all isBlank = true) :
    arguments (word ++ rest) = word :: arguments rest := by
  have hread : argument none (word ++ rest) = some (word, rest) := by
    obtain ⟨c, others, rfl⟩ := List.exists_cons_of_ne_nil hne
    have hc : isQuote c = false := hword.2
    rw [List.cons_append, argument, hc, Bool.false_and, if_neg Bool.false_ne_true,
      ← List.cons_append]
    refine someOf_eq_some_iff.mpr ⟨hne, fun d hd => by rw [hword.1 d hd]; rfl, rfl, ?_⟩
    cases rest with
    | nil => rfl
    | cons d rest =>
      have hd : isBlank d = true := hrest
      simp [hd]
  rw [arguments_of_read hne hread, unquoted_of_isBare hword]

/-- The blank after a bare word belongs to no word. -/
theorem arguments_bare_cons {word rest : Text} {c : Char} (hne : word ≠ []) (hword : IsBare word)
    (hc : isBlank c = true) : arguments (word ++ c :: rest) = word :: arguments rest := by
  have hfirst : arguments (word ++ c :: rest) = word :: arguments (c :: rest) :=
    arguments_bare hne hword hc
  rw [hfirst, arguments_cons_blank hc]

/-! ## Texts that split into words -/

/-- A text splits into words: whatever comes after it, these are its words. -/
inductive SplitsInto : Text → List Text → Prop
  | nil : SplitsInto [] []
  | blank {c : Char} {t : Text} {words : List Text} (hc : isBlank c = true)
      (h : SplitsInto t words) : SplitsInto (c :: t) words
  | quoted {q : Char} {inside t : Text} {words : List Text} (hq : isQuote q = true)
      (hinside : q ∉ inside) (h : SplitsInto t words) :
      SplitsInto (q :: (inside ++ q :: t)) (inside :: words)
  | bare {word t : Text} {c : Char} {words : List Text} (hne : word ≠ []) (hword : IsBare word)
      (hc : isBlank c = true) (h : SplitsInto t words) :
      SplitsInto (word ++ c :: t) (word :: words)

/-- A text that splits into words gives them, and then what comes after it. -/
theorem SplitsInto.arguments_append {t : Text} {words : List Text} (h : SplitsInto t words)
    (rest : Text) : arguments (t ++ rest) = words ++ arguments rest := by
  induction h with
  | nil => rfl
  | blank hc _ ih => rw [List.cons_append, arguments_cons_blank hc, ih]
  | quoted hq hinside _ ih =>
    rw [List.cons_append, List.append_assoc, List.cons_append, arguments_quoted hq hinside, ih,
      List.cons_append]
  | bare hne hword hc _ ih =>
    rw [List.append_assoc, List.cons_append, arguments_bare_cons hne hword hc, ih, List.cons_append]

/-- A text that splits into words has them as arguments. -/
theorem SplitsInto.arguments {t : Text} {words : List Text} (h : SplitsInto t words) :
    arguments t = words := by
  have := h.arguments_append []
  rwa [List.append_nil, show Script.arguments [] = [] from rfl, List.append_nil] at this

/-- Two texts split into the words of both. -/
theorem SplitsInto.append {t u : Text} {words others : List Text} (ht : SplitsInto t words)
    (hu : SplitsInto u others) : SplitsInto (t ++ u) (words ++ others) := by
  induction ht with
  | nil => exact hu
  | blank hc _ ih => exact .blank hc ih
  | quoted hq hinside _ ih =>
    rw [List.cons_append, List.append_assoc, List.cons_append]
    exact .quoted hq hinside ih
  | bare hne hword hc _ ih =>
    rw [List.append_assoc, List.cons_append]
    exact .bare hne hword hc ih

/-- Blanks split into no words. -/
theorem splitsInto_blanks {t : Text} (h : ∀ c ∈ t, isBlank c = true) : SplitsInto t [] := by
  induction t with
  | nil => exact .nil
  | cons c t ih =>
    obtain ⟨hc, ht⟩ := List.forall_mem_cons.mp h
    exact .blank hc (ih ht)

/-- A quote opens a word and is not closed. -/
def LeavesOpen (t : Text) : Prop :=
  ∃ front words q rest, t = front ++ q :: rest ∧ SplitsInto front words ∧ isQuote q = true ∧
    q ∉ rest

/-- A quote that is left open stays open behind words. -/
theorem LeavesOpen.append {front rest : Text} {words : List Text} (hfront : SplitsInto front words)
    (h : LeavesOpen rest) : LeavesOpen (front ++ rest) := by
  obtain ⟨front', words', q, more, rfl, hfront', hq, hmore⟩ := h
  exact ⟨front ++ front', words ++ words', q, more, (List.append_assoc _ _ _).symm,
    hfront.append hfront', hq, hmore⟩

/-- A text is a bare word, or it starts with a blank or with a whole word, unless it leaves a quote
open. -/
theorem isBare_or_exists_splitsInto {t : Text} (h : ¬ LeavesOpen t) :
    IsBare t ∨ ∃ read rest words, t = read ++ rest ∧ read ≠ [] ∧ SplitsInto read words := by
  cases t with
  | nil => exact Or.inl isBare_nil
  | cons c t =>
    by_cases hblank : isBlank c = true
    · exact Or.inr ⟨[c], t, [], rfl, List.cons_ne_nil _ _, .blank hblank .nil⟩
    by_cases hquote : isQuote c = true
    · have hclosed : c ∈ t := by
        by_contra hopen
        exact h ⟨[], [], c, t, rfl, .nil, hquote, hopen⟩
      obtain ⟨inside, rest, rfl, hinside⟩ := List.eq_append_cons_of_mem hclosed
      exact Or.inr ⟨c :: (inside ++ [c]), rest, [inside], by simp, List.cons_ne_nil _ _,
        .quoted hquote hinside .nil⟩
    · -- a bare word: it ends at a blank, or where the text does
      have hfirst : (c :: t).takeWhile (fun d => !isBlank d) =
          c :: t.takeWhile fun d => !isBlank d :=
        List.takeWhile_cons_of_pos (by simpa using hblank)
      have hword : IsBare (c :: t.takeWhile fun d => !isBlank d) := by
        refine ⟨fun d hd => ?_, eq_false_of_ne_true hquote⟩
        rw [← hfirst] at hd
        simpa using List.mem_takeWhile_imp hd
      have hsplit := List.takeWhile_append_dropWhile (p := fun d => !isBlank d) (l := c :: t)
      have hhead := List.head?_dropWhile_not (fun d => !isBlank d) (c :: t)
      rw [hfirst] at hsplit
      cases hrest : (c :: t).dropWhile fun d => !isBlank d with
      | nil =>
        rw [hrest, List.append_nil] at hsplit
        exact Or.inl (hsplit ▸ hword)
      | cons d rest =>
        rw [hrest] at hsplit hhead
        have hd : isBlank d = true := by simpa using hhead
        exact Or.inr ⟨_, rest, _, by rw [← hsplit, List.append_cons], by simp,
          .bare (List.cons_ne_nil _ _) hword hd .nil⟩

/-- A text splits into words up to a bare word at its end, unless it leaves a quote open. -/
theorem exists_splitsInto_append {t : Text} (h : ¬ LeavesOpen t) :
    ∃ front words word, t = front ++ word ∧ SplitsInto front words ∧ IsBare word := by
  -- the first word is taken off, so what is left is shorter
  induction hn : t.length using Nat.strong_induction_on generalizing t with
  | _ n ih =>
    subst hn
    rcases isBare_or_exists_splitsInto h with hword | ⟨read, rest, words, rfl, hne, hread⟩
    · exact ⟨[], [], t, rfl, .nil, hword⟩
    · have hshorter : rest.length < (read ++ rest).length := by
        have := List.length_pos_of_ne_nil hne
        rw [List.length_append]
        omega
      obtain ⟨front, others, word, rfl, hfront, hword⟩ :=
        ih _ hshorter (fun hopen => h (hopen.append hread)) rfl
      exact ⟨read ++ front, words ++ others, word, (List.append_assoc _ _ _).symm,
        hread.append hfront, hword⟩

/-- The bare word at the end goes on with what comes after it, up to a blank. -/
theorem SplitsInto.arguments_append_cons {front word more : Text} {words : List Text} {c : Char}
    (hfront : SplitsInto front words) (hword : IsBare word) (hblank : isBlank c = false)
    (hquote : isQuote c = false) :
    Script.arguments (front ++ word ++ c :: more) =
      words ++ (word ++ c :: more.takeWhile fun d => !isBlank d) ::
        Script.arguments (more.dropWhile fun d => !isBlank d) := by
  -- the character joins the last word, which then goes on up to the next blank
  have hlast : IsBare (word ++ c :: more.takeWhile fun d => !isBlank d) := by
    refine hword.append_cons hquote (List.forall_mem_cons.mpr ⟨hblank, fun d hd => ?_⟩)
    simpa using List.mem_takeWhile_imp hd
  have hrest : (more.dropWhile fun d => !isBlank d).head?.all isBlank = true := by
    have := List.head?_dropWhile_not (fun d => !isBlank d) more
    cases hhead : (more.dropWhile fun d => !isBlank d).head? with
    | none => rfl
    | some d =>
      rw [hhead] at this
      simpa using this
  have hsplit : front ++ word ++ c :: more =
      front ++ ((word ++ c :: more.takeWhile fun d => !isBlank d) ++
        more.dropWhile fun d => !isBlank d) := by
    rw [List.append_assoc, List.append_assoc word, List.cons_append,
      List.takeWhile_append_dropWhile]
  rw [hsplit, hfront.arguments_append, arguments_bare (by simp) hlast hrest]

/-- Without quotes none is left open. -/
theorem not_leavesOpen {t : Text} (hquotes : ∀ c ∈ t, isQuote c = false) : ¬ LeavesOpen t := by
  rintro ⟨front, words, q, rest, rfl, -, hq, -⟩
  rw [hquotes q (by simp)] at hq
  cases hq

/-- A text without quotes that does not end inside a word splits into its words. -/
theorem splitsInto_arguments {t : Text} (hquotes : ∀ c ∈ t, isQuote c = false)
    (hends : t.getLast?.all isBlank = true) : SplitsInto t (arguments t) := by
  obtain ⟨front, words, word, rfl, hfront, hword⟩ :=
    exists_splitsInto_append (not_leavesOpen hquotes)
  obtain rfl | ⟨others, c, rfl⟩ := List.eq_nil_or_concat word
  · rw [List.append_nil, hfront.arguments]
    exact hfront
  · -- the last word would end with a blank
    rw [List.concat_eq_append, ← List.append_assoc, List.getLast?_concat] at hends
    have hc := hword.1 c (by simp)
    rw [show isBlank c = true from hends] at hc
    cases hc

/-! ## Flags -/

/-- A flag has a hyphen at least. -/
theorem ne_nil_of_isFlag {word : Text} (h : isFlag word = true) : word ≠ [] := by
  rintro rfl
  cases h

/-- A flag stays one with more behind it. -/
theorem isFlag_append {word : Text} (h : isFlag word = true) (more : Text) :
    isFlag (word ++ more) = true := by
  cases word with
  | nil => cases h
  | cons c word => exact h

/-- A flag without blanks is not in quotes. -/
theorem isBare_of_isFlag {word : Text} (hflag : isFlag word = true)
    (hsolid : ∀ c ∈ word, isBlank c = false) : IsBare word := by
  refine ⟨hsolid, ?_⟩
  rw [beq_iff_eq.mp hflag]
  rfl

/-- A word that starts with a letter or digit of ASCII is no flag. -/
theorem isFlag_eq_false_of_head? {word : Text} (h : word.head?.any isAsciiAlnum = true) :
    isFlag word = false := by
  rw [Bool.eq_false_iff]
  intro hflag
  rw [beq_iff_eq.mp hflag] at h
  cases h

/-! ## Written words -/

/-- Blanks, at least one. -/
abbrev Gap :=
  { t : Text // t ≠ [] ∧ t.all isBlank = true }

/-- A bare word with blanks behind it. -/
theorem splitsInto_bare {word : Text} (hne : word ≠ []) (hword : IsBare word) (gap : Gap) :
    SplitsInto (word ++ gap.val) [word] := by
  obtain ⟨gap, hgap, hblanks⟩ := gap
  obtain ⟨c, others, rfl⟩ := List.exists_cons_of_ne_nil hgap
  obtain ⟨hc, hothers⟩ := List.forall_mem_cons.mp (List.all_eq_true.mp hblanks)
  exact .bare hne hword hc (splitsInto_blanks hothers)

/-- A word as it is written: bare, or in quotes. -/
inductive Spelling where
  | bare (word : Text) (hne : word ≠ []) (hword : IsBare word)
  | quoted (quote : Char) (inside : Text) (hquote : isQuote quote = true)
      (hinside : quote ∉ inside)

namespace Spelling

/-- The word. -/
def word : Spelling → Text
  | bare word _ _ => word
  | quoted _ inside _ _ => inside

/-- The word as it is written. -/
def text : Spelling → Text
  | bare word _ _ => word
  | quoted quote inside _ _ => quote :: (inside ++ [quote])

/-- A spelling with a gap behind it splits into its word, whichever quotes it has. -/
theorem splitsInto (s : Spelling) (gap : Gap) : SplitsInto (s.text ++ gap.val) [s.word] := by
  cases s with
  | bare word hne hword => exact splitsInto_bare hne hword gap
  | quoted quote inside hquote hinside =>
    rw [text, List.cons_append, List.append_assoc, List.singleton_append]
    exact .quoted hquote hinside (splitsInto_blanks (List.all_eq_true.mp gap.property.2))

/-- A written word is read where a blank or nothing comes next. -/
theorem arguments_append (s : Spelling) {rest : Text} (hrest : rest.head?.all isBlank = true) :
    Script.arguments (s.text ++ rest) = s.word :: Script.arguments rest := by
  cases s with
  | bare word hne hword => exact arguments_bare hne hword hrest
  | quoted quote inside hquote hinside =>
    rw [text, List.cons_append, List.append_assoc, List.singleton_append]
    exact arguments_quoted hquote hinside rest

end Spelling

end SetupCatalog.Script
