import SetupCatalog.Proofs.Json.Grammar

/-!
# The reader keeps to the grammar

`read?` finds every value that a text denotes by the grammar with a limit of `maxDigits` digits. The
reader has fuel and a number of levels. What a phrase takes of the fuel is at most the characters
that it is written with, since each bracket and each comma is a character; and levels are taken by
the containers that are nested in it alone, so a value that `FitsIn` a number of levels is read with
them (`Reads.isRead`).
-/

namespace SetupCatalog.Json

open Text

/-! ## Texts -/

/-- A unit in front of those that have been read. -/
def withUnit (unit : Nat) : List Nat × Text → List Nat × Text
  | (units, rest) => (unit :: units, rest)

/-- A quote ends a text. -/
theorem readUnits_quote (t : Text) : readUnits ('"' :: t) = some ([], t) := by
  rw [readUnits.eq_def]
  rfl

/-- An escape with four digits stands for a unit. -/
theorem readUnits_unit (a b c d : Char) (t : Text) :
    readUnits ('\\' :: 'u' :: a :: b :: c :: d :: t) =
      (hexNumber? [a, b, c, d]).bind fun unit => (readUnits t).map (withUnit unit) := by
  rw [readUnits.eq_def]
  simp only [Option.map_eq_bind]
  rfl

/-- An escape with one letter stands for a character. -/
theorem readUnits_escape {d : Char} (hd : d ≠ 'u') (t : Text) :
    readUnits ('\\' :: d :: t) =
      (simpleEscape? d).bind fun e => (readUnits t).map (withUnit e.toNat) := by
  rw [readUnits.eq_def]
  simp only [Option.map_eq_bind, if_neg hd]
  rfl

/-- Every other character from the space on stands for itself. -/
theorem readUnits_plain {c : Char} (hquote : c ≠ '"') (hslash : c ≠ '\\') (hc : 32 ≤ c.toNat)
    (t : Text) : readUnits (c :: t) = (readUnits t).map (withUnit c.toNat) := by
  rw [readUnits.eq_def]
  simp only [if_neg hquote, if_neg hslash, if_neg (Nat.not_lt.mpr hc)]
  rfl

/-! ## What is read takes up characters -/

/-- A text takes up its closing quote at least. The cases are those of the reader. -/
theorem length_lt_of_readUnits {t rest : Text} {units : List Nat}
    (h : readUnits t = some (units, rest)) : rest.length < t.length := by
  have hmap : ∀ {u : Text} {unit : Nat} {units : List Nat},
      (readUnits u).map (withUnit unit) = some (units, rest) →
        ∃ further, readUnits u = some (further, rest) := by
    intro u unit units h
    obtain ⟨⟨further, after⟩, hread, heq⟩ := Option.map_eq_some_iff.mp h
    obtain ⟨-, rfl⟩ := Prod.mk.inj heq
    exact ⟨further, hread⟩
  -- the escapes of several characters, a plain character, and the spots where nothing is read
  induction t using readUnits.induct generalizing units with
  | case1 => cases h
  | case2 t =>
    rw [readUnits_quote] at h
    obtain ⟨-, rfl⟩ := Prod.mk.inj (Option.some.inj h)
    exact Nat.lt_succ_self _
  | case3 => cases h
  | case4 a b c d t _ ih =>
    rw [readUnits_unit, Option.bind_eq_some_iff] at h
    obtain ⟨unit, -, h⟩ := h
    obtain ⟨further, hread⟩ := hmap h
    have := ih hread
    simp only [List.length_cons]
    omega
  | case5 t ht _ =>
    rw [readUnits.eq_def] at h
    simp at h
  | case6 d t hd _ ih =>
    rw [readUnits_escape hd, Option.bind_eq_some_iff] at h
    obtain ⟨e, -, h⟩ := h
    obtain ⟨further, hread⟩ := hmap h
    have := ih hread
    simp only [List.length_cons]
    omega
  | case7 c t hquote hslash hcontrol =>
    rw [readUnits.eq_def] at h
    simp [hquote, hslash, hcontrol] at h
  | case8 c t hquote hslash hcontrol ih =>
    rw [readUnits_plain hquote hslash (Nat.not_lt.mp hcontrol)] at h
    obtain ⟨further, hread⟩ := hmap h
    exact Nat.lt_succ_of_lt (ih hread)

/-- So does the text that its units stand for. -/
theorem length_lt_of_readText {t s rest : Text} (h : readText t = some (s, rest)) :
    rest.length < t.length := by
  rw [readText, Option.map_eq_some_iff] at h
  obtain ⟨⟨units, after⟩, hread, heq⟩ := h
  rw [← (Prod.mk.inj heq).2]
  exact length_lt_of_readUnits hread

/-- Digits take up a character. -/
theorem length_lt_of_someDigits {t digits rest : Text} (h : someDigits t = some (digits, rest)) :
    rest.length < t.length := by
  rw [someDigits] at h
  split at h
  · cases h
  · next d ds hdigits =>
    obtain ⟨-, rfl⟩ := Prod.mk.inj (Option.some.inj h)
    have := congrArg List.length (List.takeWhile_append_dropWhile (p := Char.isDigit) (l := t))
    rw [List.length_append, hdigits, List.length_cons] at this
    omega

/-- A whole number takes up a character. -/
theorem length_lt_of_wholeDigits {t digits rest : Text}
    (h : wholeDigits t = some (digits, rest)) : rest.length < t.length := by
  rw [wholeDigits.eq_def] at h
  split at h
  · obtain ⟨-, rfl⟩ := Prod.mk.inj (Option.some.inj h)
    exact Nat.lt_succ_self _
  · exact length_lt_of_someDigits h

/-- A fraction takes up its point. -/
theorem length_lt_of_fraction {t digits rest : Text} (h : fraction t = some (digits, rest)) :
    rest.length < t.length := by
  rw [fraction.eq_def] at h
  split at h
  · exact Nat.lt_succ_of_lt (length_lt_of_someDigits h)
  · cases h

/-- An exponent takes up its letter. -/
theorem length_lt_of_exponent {t rest : Text} {e : Int} (h : exponent t = some (e, rest)) :
    rest.length < t.length := by
  cases t with
  | nil => cases h
  | cons c t =>
    rw [exponent.eq_def] at h
    simp only at h
    split at h
    · split at h
      -- with either sign and without one, what is left is what is left of the digits
      all_goals
        obtain ⟨⟨digits, after⟩, hread, heq⟩ := Option.map_eq_some_iff.mp h
        obtain ⟨-, rfl⟩ := Prod.mk.inj heq
        have := length_lt_of_someDigits hread
        simp only [List.length_cons]
        omega
    · cases h

/-- Whatever comes after its digits, a number takes up characters. -/
theorem ReadsUnsigned.length_lt {limit : Option Nat} {negative : Bool} {t rest : Text} {v : Json}
    (h : ReadsUnsigned limit negative t v rest) : rest.length < t.length := by
  cases h with
  | whole hwhole => exact length_lt_of_wholeDigits hwhole
  | fraction hwhole hfraction =>
    exact Nat.lt_trans (length_lt_of_fraction hfraction) (length_lt_of_wholeDigits hwhole)
  | exponent hwhole _ hexponent =>
    exact Nat.lt_trans (length_lt_of_exponent hexponent) (length_lt_of_wholeDigits hwhole)
  | both hwhole hfraction hexponent =>
    have := length_lt_of_wholeDigits hwhole
    have := length_lt_of_fraction hfraction
    have := length_lt_of_exponent hexponent
    omega

/-- A scalar takes up characters. -/
theorem ReadsScalar.length_lt {limit : Option Nat} {t rest : Text} {v : Json}
    (h : ReadsScalar limit t v rest) : rest.length < t.length := by
  cases h with
  | named hname ht =>
    obtain ⟨c, u, rfl, -⟩ := exists_lead_of_mem_names hname
    rw [ht, List.length_append, List.length_cons]
    omega
  | text ht h =>
    rw [ht]
    exact Nat.lt_succ_of_lt (length_lt_of_readText h)
  | negative ht h =>
    rw [ht]
    exact Nat.lt_succ_of_lt h.length_lt
  | unsigned h => exact h.length_lt

/-- Skipping space makes no text longer. -/
theorem length_skipSpace_le (t : Text) : (skipSpace t).length ≤ t.length :=
  (List.dropWhile_suffix isSpace).length_le

/-- A sign after white space takes up a character. -/
theorem length_lt_of_skipSpace {t u : Text} {c : Char} (h : skipSpace t = c :: u) :
    u.length < t.length := by
  have := length_skipSpace_le t
  rw [h, List.length_cons] at this
  exact this

/-- Every phrase takes up characters. -/
theorem Reads.length_lt {limit : Option Nat} {t rest : Text} {phrase : Phrase}
    (h : Reads limit t phrase rest) : rest.length < t.length := by
  -- each rule reads a bracket, a quote or a digit of its own
  induction h with
  | scalar h => exact h.length_lt
  | emptyArray ht hclose | emptyObject ht hclose =>
    rw [ht]
    exact Nat.lt_succ_of_lt (length_lt_of_skipSpace hclose)
  | @array t u rest items ht hitems ih =>
    rw [ht, List.length_cons]
    have := length_skipSpace_le u
    omega
  | @object t u rest fields ht hfields ih =>
    rw [ht, List.length_cons]
    have := length_skipSpace_le u
    omega
  | lastItem hitem hclose ih => exact Nat.lt_trans (length_lt_of_skipSpace hclose) ih
  | @item t after further rest item items hitem hcomma hitems ih ihItems =>
    have := length_lt_of_skipSpace hcomma
    have := length_skipSpace_le further
    omega
  | @lastField t u name afterName beyond after rest v ht hname hcolon hvalue hclose ih =>
    rw [ht, List.length_cons]
    have := length_lt_of_readText hname
    have := length_lt_of_skipSpace hcolon
    have := length_skipSpace_le beyond
    have := length_lt_of_skipSpace hclose
    omega
  | @field t u name afterName beyond after further rest v fields ht hname hcolon hvalue hcomma
      hfields ih ihFields =>
    rw [ht, List.length_cons]
    have := length_lt_of_readText hname
    have := length_lt_of_skipSpace hcolon
    have := length_skipSpace_le beyond
    have := length_lt_of_skipSpace hcomma
    have := length_skipSpace_le further
    omega

/-! ## The reader -/

/-- The reader reads the numbers of the grammar. -/
theorem readUnsigned_of_reads {negative : Bool} {t rest : Text} {v : Json}
    (h : ReadsUnsigned (some maxDigits) negative t v rest) :
    readUnsigned negative t = some (v, rest) := by
  cases h with
  | whole hwhole hfraction hexponent hlimit =>
    have hlimit := Nat.not_lt.mpr (of_decide_eq_true hlimit)
    simp [readUnsigned, hwhole, hfraction, hexponent, hlimit]
  | fraction hwhole hfraction hexponent | exponent hwhole hfraction hexponent
  | both hwhole hfraction hexponent =>
    simp [readUnsigned, hwhole, hfraction, hexponent]

/-- A number is not the name of a value. -/
theorem readNamed_eq_none {c : Char} {t : Text} (hc : c.isDigit = true) :
    readNamed (c :: t) = none ∧ readNamed ('-' :: c :: t) = none := by
  have hletter : ∀ d : Char, d.isDigit = false → d ≠ c := fun d hd => (ne_of_isDigit hc hd).symm
  constructor
  · simp [readNamed, namedValues, dropPrefix?, hletter 'n' rfl, hletter 't' rfl, hletter 'f' rfl,
      hletter 'N' rfl, hletter 'I' rfl, hletter '-' rfl]
  · simp [readNamed, namedValues, dropPrefix?, hletter 'I' rfl]

/-- A text that starts with no quote and no bracket is read as a name or a number. -/
theorem readValue_cons {c : Char} (hc : c ∉ ['"', '[', '\x7b']) (levels fuel : Nat) (t : Text) :
    readValue levels (fuel + 1) (c :: t) =
      valid ((readNamed (c :: t)).orElse fun _ => readNumber (c :: t)) := by
  simp only [List.mem_cons, List.not_mem_nil, or_false, not_or] at hc
  apply readValue.eq_7
  · intro u h
    exact hc.1 (List.cons.inj h).1
  · intro u h
    exact hc.2.1 (List.cons.inj h).1
  · intro u h
    exact hc.2.2 (List.cons.inj h).1

/-- The reader reads the scalars of the grammar, and needs no level for them. -/
theorem readValue_of_scalar {t rest : Text} {v : Json}
    (h : ReadsScalar (some maxDigits) t v rest) (levels fuel : Nat) :
    readValue levels (fuel + 1) t = .ok (v, rest) := by
  cases h with
  | named hname ht =>
    simp only [names, List.mem_cons, Prod.mk.injEq, List.not_mem_nil, or_false] at hname
    rcases hname with ⟨rfl, rfl⟩ | ⟨rfl, rfl⟩ | ⟨rfl, rfl⟩ <;> subst ht <;> rfl
  | text ht h =>
    rw [ht, readValue, h]
    rfl
  | @negative u _ _ ht h =>
    cases u with
    | nil => exact absurd h not_readsUnsigned_nil
    | cons c u =>
      rw [ht, readValue_cons (by decide), (readNamed_eq_none h.isDigit).2]
      rw [Option.orElse_none, readNumber, readUnsigned_of_reads h]
      rfl
  | unsigned h =>
    cases t with
    | nil => exact absurd h not_readsUnsigned_nil
    | cons c t =>
      -- a digit is the start of no name, text, array or object
      have hc : ∀ d : Char, d.isDigit = false → c ≠ d := fun d => ne_of_isDigit h.isDigit
      rw [readValue_cons (by simp [hc '"' rfl, hc '[' rfl, hc '\x7b' rfl]),
        (readNamed_eq_none h.isDigit).1, Option.orElse_none,
        readNumber.eq_2 _ (fun u heq => hc '-' rfl (List.cons.inj heq).1), readUnsigned_of_reads h]
      rfl

/-- What the reader makes of the text of a phrase. -/
def Phrase.IsRead (levels fuel : Nat) (t rest : Text) : Phrase → Prop
  | value v => readValue levels fuel t = .ok (v, rest)
  | items vs => readItems levels fuel t = .ok (vs, rest)
  | fields fs => readFields levels fuel t = .ok (fs, rest)

/-- At most so many containers are nested in a value. -/
inductive FitsIn : Nat → Json → Prop
  | null (levels : Nat) : FitsIn levels .null
  | bool (levels : Nat) (b : Bool) : FitsIn levels (.bool b)
  | int (levels : Nat) (n : Int) : FitsIn levels (.int n)
  | real (levels : Nat) (m e : Int) : FitsIn levels (.real m e)
  | notFinite (levels : Nat) : FitsIn levels .notFinite
  | text (levels : Nat) (s : Text) : FitsIn levels (.text s)
  | array {levels : Nat} {items : List Json} (h : ∀ item ∈ items, FitsIn levels item) :
      FitsIn (levels + 1) (.array items)
  | object {levels : Nat} {fields : List (Text × Json)}
      (h : ∀ field ∈ fields, FitsIn levels field.2) :
      FitsIn (levels + 1) (.object fields)

/-- At most so many containers are nested in each value of a phrase. -/
def Phrase.FitsIn (levels : Nat) : Phrase → Prop
  | value v => Json.FitsIn levels v
  | items vs => ∀ v ∈ vs, Json.FitsIn levels v
  | fields fs => ∀ field ∈ fs, Json.FitsIn levels field.2

/-- A scalar fits in any number of levels. -/
theorem ReadsScalar.fitsIn {limit : Option Nat} {t rest : Text} {v : Json}
    (h : ReadsScalar limit t v rest) (levels : Nat) : FitsIn levels v := by
  have hunsigned : ∀ {negative : Bool} {t : Text}, ReadsUnsigned limit negative t v rest →
      FitsIn levels v := by
    intro negative t h
    cases h with
    | whole => exact .int levels _
    | fraction | exponent | both => exact .real levels _ _
  cases h with
  | named hname ht =>
    simp only [names, List.mem_cons, Prod.mk.injEq, List.not_mem_nil, or_false] at hname
    rcases hname with ⟨-, rfl⟩ | ⟨-, rfl⟩ | ⟨-, rfl⟩
    · exact .null levels
    · exact .bool levels true
    · exact .bool levels false
  | text ht h => exact .text levels _
  | negative ht h => exact hunsigned h
  | unsigned h => exact hunsigned h

/-- No more containers are nested in a phrase than it has characters. -/
theorem Reads.fitsIn {limit : Option Nat} {t rest : Text} {phrase : Phrase}
    (h : Reads limit t phrase rest) :
    ∀ levels : Nat, t.length ≤ levels + rest.length → phrase.FitsIn levels := by
  -- an array or an object takes one level and one bracket at least
  have hlevel : ∀ {levels written left : Nat}, written + 1 ≤ levels + left → left ≤ written →
      ∃ below, levels = below + 1 ∧ written ≤ below + left := by
    intro levels written left hlevels hleft
    exact ⟨levels - 1, by omega, by omega⟩
  induction h with
  | scalar h => exact fun levels _ => h.fitsIn levels
  | @emptyArray t u rest ht hclose =>
    subst ht
    intro levels hlevels
    obtain ⟨below, rfl, -⟩ := hlevel hlevels (Nat.le_of_lt (length_lt_of_skipSpace hclose))
    exact .array (List.forall_mem_nil _)
  | @emptyObject t u rest ht hclose =>
    subst ht
    intro levels hlevels
    obtain ⟨below, rfl, -⟩ := hlevel hlevels (Nat.le_of_lt (length_lt_of_skipSpace hclose))
    exact .object (List.forall_mem_nil _)
  | @array t u rest items ht hitems ih =>
    subst ht
    intro levels hlevels
    have hshort := length_skipSpace_le u
    have hleft := Nat.le_trans (Nat.le_of_lt hitems.length_lt) hshort
    obtain ⟨below, rfl, hbelow⟩ := hlevel hlevels hleft
    exact .array (ih below (Nat.le_trans hshort hbelow))
  | @object t u rest fields ht hfields ih =>
    subst ht
    intro levels hlevels
    have hshort := length_skipSpace_le u
    have hleft := Nat.le_trans (Nat.le_of_lt hfields.length_lt) hshort
    obtain ⟨below, rfl, hbelow⟩ := hlevel hlevels hleft
    exact .object (ih below (Nat.le_trans hshort hbelow))
  | @lastItem t after rest item hitem hclose ih =>
    intro levels hlevels
    have := length_lt_of_skipSpace hclose
    exact List.forall_mem_singleton.mpr (ih levels (by omega))
  | @item t after further rest item items hitem hcomma hitems ih ihItems =>
    intro levels hlevels
    have := hitem.length_lt
    have := length_lt_of_skipSpace hcomma
    have := length_skipSpace_le further
    have := hitems.length_lt
    exact List.forall_mem_cons.mpr ⟨ih levels (by omega), ihItems levels (by omega)⟩
  | @lastField t u name afterName beyond after rest v ht hname hcolon hvalue hclose ih =>
    subst ht
    intro levels hlevels
    have := length_lt_of_readText hname
    have := length_lt_of_skipSpace hcolon
    have := length_skipSpace_le beyond
    have := length_lt_of_skipSpace hclose
    rw [List.length_cons] at hlevels
    exact List.forall_mem_singleton.mpr (ih levels (by omega))
  | @field t u name afterName beyond after further rest v fields ht hname hcolon hvalue hcomma
      hfields ih ihFields =>
    subst ht
    intro levels hlevels
    have := length_lt_of_readText hname
    have := length_lt_of_skipSpace hcolon
    have := length_skipSpace_le beyond
    have := hvalue.length_lt
    have := length_lt_of_skipSpace hcomma
    have := length_skipSpace_le further
    have := hfields.length_lt
    rw [List.length_cons] at hlevels
    exact List.forall_mem_cons.mpr ⟨ih levels (by omega), ihFields levels (by omega)⟩

/-- The reader reads every phrase of the grammar, given fuel for its characters and levels for the
containers in it. -/
theorem Reads.isRead {t rest : Text} {phrase : Phrase} (h : Reads (some maxDigits) t phrase rest) :
    ∀ levels fuel : Nat, phrase.FitsIn levels → t.length ≤ fuel + rest.length →
      phrase.IsRead levels fuel t rest := by
  -- the fuel that is left covers what is still to be read, since each part of a phrase is shorter
  -- than the whole by a character at least
  induction h with
  | scalar h =>
    intro levels fuel _ hfuel
    have := h.length_lt
    obtain ⟨fuel, rfl⟩ := Nat.exists_eq_succ_of_ne_zero (show fuel ≠ 0 by omega)
    exact readValue_of_scalar h levels fuel
  | @emptyArray t u rest ht hclose =>
    subst ht
    intro levels fuel hfits hfuel
    have := length_lt_of_skipSpace hclose
    rw [List.length_cons] at hfuel
    obtain ⟨fuel, rfl⟩ := Nat.exists_eq_succ_of_ne_zero (show fuel ≠ 0 by omega)
    cases hfits
    simp only [Phrase.IsRead, readValue, hclose]
  | @array t u rest items ht hitems ih =>
    subst ht
    intro levels fuel hfits hfuel
    have := hitems.length_lt
    have := length_skipSpace_le u
    rw [List.length_cons] at hfuel
    obtain ⟨fuel, rfl⟩ := Nat.exists_eq_succ_of_ne_zero (show fuel ≠ 0 by omega)
    cases hfits with
    | array hfits =>
    have hread : readItems _ fuel (skipSpace u) = .ok (items, rest) := ih _ fuel hfits (by omega)
    rw [Phrase.IsRead, readValue]
    split
    · next hclose =>
      rw [hclose] at hitems
      exact absurd hitems not_reads_items_closing
    · rw [hread]
      rfl
  | @emptyObject t u rest ht hclose =>
    subst ht
    intro levels fuel hfits hfuel
    have := length_lt_of_skipSpace hclose
    rw [List.length_cons] at hfuel
    obtain ⟨fuel, rfl⟩ := Nat.exists_eq_succ_of_ne_zero (show fuel ≠ 0 by omega)
    cases hfits
    simp only [Phrase.IsRead, readValue, hclose]
  | @object t u rest fields ht hfields ih =>
    subst ht
    intro levels fuel hfits hfuel
    have := hfields.length_lt
    have := length_skipSpace_le u
    rw [List.length_cons] at hfuel
    obtain ⟨fuel, rfl⟩ := Nat.exists_eq_succ_of_ne_zero (show fuel ≠ 0 by omega)
    cases hfits with
    | object hfits =>
    have hread : readFields _ fuel (skipSpace u) = .ok (fields, rest) := ih _ fuel hfits (by omega)
    rw [Phrase.IsRead, readValue]
    split
    · next hclose =>
      rw [hclose] at hfields
      exact absurd hfields not_reads_fields_closing
    · rw [hread]
      rfl
  | @lastItem t after rest item hitem hclose ih =>
    intro levels fuel hfits hfuel
    have := hitem.length_lt
    have := length_lt_of_skipSpace hclose
    obtain ⟨fuel, rfl⟩ := Nat.exists_eq_succ_of_ne_zero (show fuel ≠ 0 by omega)
    have hread : readValue levels fuel t = .ok (item, after) :=
      ih levels fuel (hfits item List.mem_cons_self) (by omega)
    rw [Phrase.IsRead, readItems, hread]
    simp only [bind, Except.bind, hclose]
    rfl
  | @item t after further rest item items hitem hcomma hitems ih ihItems =>
    intro levels fuel hfits hfuel
    obtain ⟨hfirst, hothers⟩ := List.forall_mem_cons.mp hfits
    have := hitem.length_lt
    have := length_lt_of_skipSpace hcomma
    have := length_skipSpace_le further
    have := hitems.length_lt
    obtain ⟨fuel, rfl⟩ := Nat.exists_eq_succ_of_ne_zero (show fuel ≠ 0 by omega)
    have hread : readValue levels fuel t = .ok (item, after) := ih levels fuel hfirst (by omega)
    have hreads : readItems levels fuel (skipSpace further) = .ok (items, rest) :=
      ihItems levels fuel hothers (by omega)
    rw [Phrase.IsRead, readItems, hread]
    simp only [bind, Except.bind, hcomma, hreads]
    rfl
  | @lastField t u name afterName beyond after rest v ht hname hcolon hvalue hclose ih =>
    subst ht
    intro levels fuel hfits hfuel
    have := length_lt_of_readText hname
    have := length_lt_of_skipSpace hcolon
    have := length_skipSpace_le beyond
    have := hvalue.length_lt
    have := length_lt_of_skipSpace hclose
    rw [List.length_cons] at hfuel
    obtain ⟨fuel, rfl⟩ := Nat.exists_eq_succ_of_ne_zero (show fuel ≠ 0 by omega)
    have hread : readValue levels fuel (skipSpace beyond) = .ok (v, after) :=
      ih levels fuel (hfits (name, v) List.mem_cons_self) (by omega)
    rw [Phrase.IsRead, readFields, hname]
    simp only [valid, Option.elim, bind, Except.bind, hcolon, hread, hclose]
    rfl
  | @field t u name afterName beyond after further rest v fields ht hname hcolon hvalue hcomma
      hfields ih ihFields =>
    subst ht
    intro levels fuel hfits hfuel
    obtain ⟨hfirst, hothers⟩ := List.forall_mem_cons.mp hfits
    have := length_lt_of_readText hname
    have := length_lt_of_skipSpace hcolon
    have := length_skipSpace_le beyond
    have := hvalue.length_lt
    have := length_lt_of_skipSpace hcomma
    have := length_skipSpace_le further
    have := hfields.length_lt
    rw [List.length_cons] at hfuel
    obtain ⟨fuel, rfl⟩ := Nat.exists_eq_succ_of_ne_zero (show fuel ≠ 0 by omega)
    have hread : readValue levels fuel (skipSpace beyond) = .ok (v, after) :=
      ih levels fuel hfirst (by omega)
    have hreads : readFields levels fuel (skipSpace further) = .ok (fields, rest) :=
      ihFields levels fuel hothers (by omega)
    rw [Phrase.IsRead, readFields, hname]
    simp only [valid, Option.elim, bind, Except.bind, hcolon, hread, hcomma, hreads]
    rfl

/-- The reader finds the value that a text denotes, if it fits in the levels. -/
theorem read_of_denotes {levels : Nat} {t : Text} {v : Json} (h : Denotes (some maxDigits) t v)
    (hfits : FitsIn levels v) : read levels t = .ok v := by
  obtain ⟨rest, hreads, hrest⟩ := h
  have hlength := length_skipSpace_le t
  have hread : readValue levels (t.length + 1) (skipSpace t) = .ok (v, rest) :=
    hreads.isRead levels _ hfits (by omega)
  rw [read, hread]
  simp only [bind, Except.bind, hrest]
  rfl

/-- The reader without a limit finds the value that a text denotes. -/
theorem read?_of_denotes {t : Text} {v : Json} (h : Denotes (some maxDigits) t v) :
    read? t = some v := by
  have hfits : FitsIn (t.length + 1) v := by
    obtain ⟨rest, hreads, -⟩ := h
    have hlength := length_skipSpace_le t
    exact hreads.fitsIn (t.length + 1) (by omega)
  rw [read?, read_of_denotes h hfits]
  rfl

end SetupCatalog.Json
