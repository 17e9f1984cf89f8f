import SetupCatalog.Json.Reader

/-!
# The grammar of JSON

`Reads` says which values stand at the start of a text, by the rules of the JSON grammar: white
space may stand around every bracket, comma and colon, and a number is as long as it can be. A text
`Denotes` the value that is read from it with nothing left but white space. The grammar sets no
limit on numbers but lets a reader set one, so the number of digits that a whole number may have is
a parameter, which may be missing.

A text denotes at most one value (`Denotes.unique`). `Json.read?` keeps to the grammar with its own
limit: it finds every value that a text denotes (`read?_of_denotes`). Its fuel and its levels of
nesting run out on no text, because every bracket and every item takes up a character.
-/

namespace SetupCatalog.Json

open Text

/-! ## Scalars -/

/-- Whether a whole number may have so many digits. -/
def accepts (limit : Option Nat) (digits : Nat) : Bool :=
  limit.all fun most => digits ≤ most

/-- A number without its sign stands at the start of a text: digits, perhaps a fraction and perhaps
an exponent. -/
inductive ReadsUnsigned (limit : Option Nat) (negative : Bool) (t : Text) : Json → Text → Prop
  | whole {digits rest : Text} (hwhole : wholeDigits t = some (digits, rest))
      (hfraction : fraction rest = none) (hexponent : exponent rest = none)
      (hlimit : accepts limit digits.length = true) :
      ReadsUnsigned limit negative t (.int (signed negative (decimalNumber digits))) rest
  | fraction {digits further after rest : Text} (hwhole : wholeDigits t = some (digits, after))
      (hfraction : fraction after = some (further, rest)) (hexponent : exponent rest = none) :
      ReadsUnsigned limit negative t
        (.real (signed negative (decimalNumber (digits ++ further))) (-further.length)) rest
  | exponent {digits after rest : Text} {e : Int} (hwhole : wholeDigits t = some (digits, after))
      (hfraction : Json.fraction after = none) (hexponent : exponent after = some (e, rest)) :
      ReadsUnsigned limit negative t (.real (signed negative (decimalNumber digits)) e) rest
  | both {digits further after beyond rest : Text} {e : Int}
      (hwhole : wholeDigits t = some (digits, after))
      (hfraction : Json.fraction after = some (further, beyond))
      (hexponent : Json.exponent beyond = some (e, rest)) :
      ReadsUnsigned limit negative t
        (.real (signed negative (decimalNumber (digits ++ further))) (e - further.length)) rest

/-- The values with a name of their own. -/
def names : List (Text × Json) :=
  [("null".toList, .null), ("true".toList, .bool true), ("false".toList, .bool false)]

/-- A value that holds no other values stands at the start of a text. -/
inductive ReadsScalar (limit : Option Nat) (t : Text) : Json → Text → Prop
  | named {name rest : Text} {v : Json} (hname : (name, v) ∈ names) (ht : t = name ++ rest) :
      ReadsScalar limit t v rest
  | text {u s rest : Text} (ht : t = '"' :: u) (h : readText u = some (s, rest)) :
      ReadsScalar limit t (.text s) rest
  | negative {u rest : Text} {v : Json} (ht : t = '-' :: u)
      (h : ReadsUnsigned limit true u v rest) : ReadsScalar limit t v rest
  | unsigned {v : Json} {rest : Text} (h : ReadsUnsigned limit false t v rest) :
      ReadsScalar limit t v rest

/-! ## Values -/

/-- What the rules of the grammar are about: a value, or what is left of an array or of an object,
up to and with its closing bracket. -/
inductive Phrase where
  | value (v : Json)
  | items (items : List Json)
  | fields (fields : List (Text × Json))

/-- A phrase stands at the start of a text, before the given rest. -/
inductive Reads (limit : Option Nat) : Text → Phrase → Text → Prop
  | scalar {t rest : Text} {v : Json} (h : ReadsScalar limit t v rest) :
      Reads limit t (.value v) rest
  | emptyArray {t u rest : Text} (ht : t = '[' :: u) (hclose : skipSpace u = ']' :: rest) :
      Reads limit t (.value (.array [])) rest
  | array {t u rest : Text} {items : List Json} (ht : t = '[' :: u)
      (hitems : Reads limit (skipSpace u) (.items items) rest) :
      Reads limit t (.value (.array items)) rest
  | emptyObject {t u rest : Text} (ht : t = '{' :: u) (hclose : skipSpace u = '}' :: rest) :
      Reads limit t (.value (.object [])) rest
  | object {t u rest : Text} {fields : List (Text × Json)} (ht : t = '{' :: u)
      (hfields : Reads limit (skipSpace u) (.fields fields) rest) :
      Reads limit t (.value (.object fields)) rest
  | lastItem {t after rest : Text} {item : Json} (hitem : Reads limit t (.value item) after)
      (hclose : skipSpace after = ']' :: rest) : Reads limit t (.items [item]) rest
  | item {t after further rest : Text} {item : Json} {items : List Json}
      (hitem : Reads limit t (.value item) after) (hcomma : skipSpace after = ',' :: further)
      (hitems : Reads limit (skipSpace further) (.items items) rest) :
      Reads limit t (.items (item :: items)) rest
  | lastField {t u name afterName beyond after rest : Text} {v : Json} (ht : t = '"' :: u)
      (hname : readText u = some (name, afterName)) (hcolon : skipSpace afterName = ':' :: beyond)
      (hvalue : Reads limit (skipSpace beyond) (.value v) after)
      (hclose : skipSpace after = '}' :: rest) : Reads limit t (.fields [(name, v)]) rest
  | field {t u name afterName beyond after further rest : Text} {v : Json}
      {fields : List (Text × Json)} (ht : t = '"' :: u)
      (hname : readText u = some (name, afterName)) (hcolon : skipSpace afterName = ':' :: beyond)
      (hvalue : Reads limit (skipSpace beyond) (.value v) after)
      (hcomma : skipSpace after = ',' :: further)
      (hfields : Reads limit (skipSpace further) (.fields fields) rest) :
      Reads limit t (.fields ((name, v) :: fields)) rest

/-- A text is a value with nothing but white space around it. -/
def Denotes (limit : Option Nat) (t : Text) (v : Json) : Prop :=
  ∃ rest, Reads limit (skipSpace t) (.value v) rest ∧ skipSpace rest = []

/-! ## A text denotes one value -/

variable {limit : Option Nat}

/-- What follows the digits tells which kind of number it is. -/
theorem ReadsUnsigned.unique {negative : Bool} {t rest rest' : Text} {v v' : Json}
    (h : ReadsUnsigned limit negative t v rest) (h' : ReadsUnsigned limit negative t v' rest') :
    v = v' ∧ rest = rest' := by
  cases h <;> cases h' <;> simp_all

/-- A number without its sign starts with a digit. -/
theorem ReadsUnsigned.isDigit {negative : Bool} {c : Char} {t rest : Text} {v : Json}
    (h : ReadsUnsigned limit negative (c :: t) v rest) : c.isDigit = true := by
  have hwhole : wholeDigits (c :: t) ≠ none := by
    cases h with
    | whole hwhole | fraction hwhole | exponent hwhole | both hwhole => simp [hwhole]
  by_cases hzero : c = '0'
  · rw [hzero]
    rfl
  · rw [wholeDigits.eq_2 _ (by simpa using hzero), someDigits] at hwhole
    by_cases hdigit : c.isDigit = true
    · exact hdigit
    · rw [List.takeWhile_cons_of_neg hdigit] at hwhole
      exact absurd rfl hwhole

/-- A number has digits. -/
theorem not_readsUnsigned_nil {negative : Bool} {rest : Text} {v : Json} :
    ¬ ReadsUnsigned limit negative [] v rest := by
  rintro (hwhole | hwhole | hwhole | hwhole) <;> cases hwhole

/-- The name of a value starts with a letter of its own. -/
theorem exists_lead_of_mem_names {name : Text} {v : Json} (h : (name, v) ∈ names) :
    ∃ c u, name = c :: u ∧ c ∈ ['n', 't', 'f'] := by
  simp only [names, List.mem_cons, Prod.mk.injEq, List.not_mem_nil, or_false] at h
  rcases h with ⟨rfl, -⟩ | ⟨rfl, -⟩ | ⟨rfl, -⟩
  · exact ⟨'n', _, rfl, by decide⟩
  · exact ⟨'t', _, rfl, by decide⟩
  · exact ⟨'f', _, rfl, by decide⟩

/-- What a scalar starts with tells its kind. -/
theorem readsScalar_cons_iff {c : Char} {t rest : Text} {v : Json} :
    ReadsScalar limit (c :: t) v rest ↔
      (c ∈ ['n', 't', 'f'] ∧ ∃ name, (name, v) ∈ names ∧ c :: t = name ++ rest) ∨
      (c = '"' ∧ ∃ s, v = .text s ∧ readText t = some (s, rest)) ∨
      (c = '-' ∧ ReadsUnsigned limit true t v rest) ∨
      (c.isDigit = true ∧ ReadsUnsigned limit false (c :: t) v rest) := by
  constructor
  · intro h
    -- each rule asks for another first character
    cases h with
    | named hname ht =>
      obtain ⟨d, u, rfl, hd⟩ := exists_lead_of_mem_names hname
      refine Or.inl ⟨?_, _, hname, ht⟩
      rw [(List.cons.inj ht).1]
      exact hd
    | text ht h =>
      obtain ⟨rfl, rfl⟩ := List.cons.inj ht
      exact Or.inr (Or.inl ⟨rfl, _, rfl, h⟩)
    | negative ht h =>
      obtain ⟨rfl, rfl⟩ := List.cons.inj ht
      exact Or.inr (Or.inr (Or.inl ⟨rfl, h⟩))
    | unsigned h => exact Or.inr (Or.inr (Or.inr ⟨h.isDigit, h⟩))
  · rintro (⟨-, name, hname, ht⟩ | ⟨rfl, s, rfl, h⟩ | ⟨rfl, h⟩ | ⟨-, h⟩)
    · exact .named hname ht
    · exact .text rfl h
    · exact .negative rfl h
    · exact .unsigned h

/-- Nothing is no value. -/
theorem not_readsScalar_nil {rest : Text} {v : Json} : ¬ ReadsScalar limit [] v rest := by
  intro h
  cases h with
  | named hname ht =>
    obtain ⟨c, u, rfl, -⟩ := exists_lead_of_mem_names hname
    cases ht
  | text ht h | negative ht h => cases ht
  | unsigned h => exact not_readsUnsigned_nil h

/-- No digit starts a scalar of another kind. -/
theorem ne_of_isDigit {c d : Char} (hc : c.isDigit = true) (hd : d.isDigit = false) : c ≠ d := by
  rintro rfl
  rw [hc] at hd
  cases hd

/-- No scalar starts with a bracket. -/
theorem not_readsScalar_bracket {c : Char} {t rest : Text} {v : Json}
    (hc : c ∈ ['[', ']', '\x7b', '\x7d']) : ¬ ReadsScalar limit (c :: t) v rest := by
  rw [readsScalar_cons_iff]
  simp only [List.mem_cons, List.not_mem_nil, or_false] at hc
  rcases hc with rfl | rfl | rfl | rfl <;> simp [Char.isDigit]

/-- A text starts with the names of no two values. -/
theorem eq_of_mem_names {name name' rest rest' : Text} {v v' : Json} (h : (name, v) ∈ names)
    (h' : (name', v') ∈ names) (ht : name ++ rest = name' ++ rest') : v = v' ∧ rest = rest' := by
  simp only [names, List.mem_cons, Prod.mk.injEq, List.not_mem_nil, or_false] at h h'
  rcases h with ⟨rfl, rfl⟩ | ⟨rfl, rfl⟩ | ⟨rfl, rfl⟩ <;>
    rcases h' with ⟨rfl, rfl⟩ | ⟨rfl, rfl⟩ | ⟨rfl, rfl⟩ <;> simp_all

/-- A scalar is read in one way, since its first character tells its kind. -/
theorem ReadsScalar.unique {t rest rest' : Text} {v v' : Json} (h : ReadsScalar limit t v rest)
    (h' : ReadsScalar limit t v' rest') : v = v' ∧ rest = rest' := by
  cases t with
  | nil => exact absurd h not_readsScalar_nil
  | cons c t =>
    rw [readsScalar_cons_iff] at h h'
    -- the first character tells the rule, so both readings use the same one
    rcases h with ⟨hc, name, hname, ht⟩ | ⟨rfl, s, rfl, h⟩ | ⟨rfl, h⟩ | ⟨hc, h⟩
    · obtain ⟨name', hname', ht'⟩ : ∃ name, (name, v') ∈ names ∧ c :: t = name ++ rest' := by
        simp only [List.mem_cons, List.not_mem_nil, or_false] at hc
        rcases hc with rfl | rfl | rfl <;> simpa [Char.isDigit] using h'
      exact eq_of_mem_names hname hname' (ht ▸ ht')
    · obtain ⟨s', rfl, hread⟩ : ∃ s, v' = .text s ∧ readText t = some (s, rest') := by
        simpa [Char.isDigit] using h'
      obtain ⟨rfl, rfl⟩ := Prod.mk.inj (Option.some.inj (h.symm.trans hread))
      exact ⟨rfl, rfl⟩
    · replace h' : ReadsUnsigned limit true t v' rest' := by
        simpa [Char.isDigit] using h'
      exact h.unique h'
    · have hother : ∀ d : Char, d.isDigit = false → c ≠ d := fun d => ne_of_isDigit hc
      replace h' : ReadsUnsigned limit false (c :: t) v' rest' := by
        simpa [hother 'n' rfl, hother 't' rfl, hother 'f' rfl, hother '"' rfl, hother '-' rfl, hc]
          using h'
      exact h.unique h'

/-- No value starts with a closing bracket, so no item does. -/
theorem not_reads_items_closing {t rest : Text} {items : List Json} :
    ¬ Reads limit (']' :: t) (.items items) rest := by
  have hvalue : ∀ {v : Json} {after : Text}, ¬ Reads limit (']' :: t) (.value v) after := by
    intro v after h
    cases h with
    | scalar h => exact not_readsScalar_bracket (by decide) h
    | emptyArray ht _ | array ht _ | emptyObject ht _ | object ht _ => simp at ht
  intro h
  cases h with
  | lastItem hitem _ | item hitem _ _ => exact hvalue hitem

/-- Nor does a list of fields start with a closing brace. -/
theorem not_reads_fields_closing {t rest : Text} {fields : List (Text × Json)} :
    ¬ Reads limit ('\x7d' :: t) (.fields fields) rest := by
  intro h
  cases h with
  | lastField ht _ _ _ _ | field ht _ _ _ _ _ => simp at ht

/-- The rules of one kind read one phrase only, and leave one rest. -/
def Phrase.IsOnly (limit : Option Nat) (t rest : Text) : Phrase → Prop
  | value v => ∀ v' rest', Reads limit t (.value v') rest' → v = v' ∧ rest = rest'
  | items vs => ∀ vs' rest', Reads limit t (.items vs') rest' → vs = vs' ∧ rest = rest'
  | fields fs => ∀ fs' rest', Reads limit t (.fields fs') rest' → fs = fs' ∧ rest = rest'

/-- The first rule that reads a text is the only one of its kind that does, since the first
character or what stands after the first value tells them apart. -/
theorem Reads.isOnly {t rest : Text} {phrase : Phrase} (h : Reads limit t phrase rest) :
    phrase.IsOnly limit t rest := by
  -- a bracket tells an empty list from one with items; a comma or a closing bracket tells whether
  -- an item is the last
  induction h with
  | scalar h =>
    intro v' rest' h'
    cases h' with
    | scalar h' => exact h.unique h'
    | emptyArray ht _ | array ht _ | emptyObject ht _ | object ht _ =>
      subst ht
      exact absurd h (not_readsScalar_bracket (by decide))
  | emptyArray ht hclose =>
    subst ht
    intro v' rest' h'
    cases h' with
    | scalar h' => exact absurd h' (not_readsScalar_bracket (by decide))
    | emptyArray ht hclose' => simp_all
    | array ht hitems =>
      obtain rfl := (List.cons.inj ht).2
      rw [hclose] at hitems
      exact absurd hitems not_reads_items_closing
    | emptyObject ht _ | object ht _ => simp at ht
  | array ht hitems ih =>
    subst ht
    intro v' rest' h'
    cases h' with
    | scalar h' => exact absurd h' (not_readsScalar_bracket (by decide))
    | emptyArray ht hclose =>
      obtain rfl := (List.cons.inj ht).2
      rw [hclose] at hitems
      exact absurd hitems not_reads_items_closing
    | array ht hitems' =>
      obtain rfl := (List.cons.inj ht).2
      obtain ⟨rfl, rfl⟩ := ih _ _ hitems'
      exact ⟨rfl, rfl⟩
    | emptyObject ht _ | object ht _ => simp at ht
  | emptyObject ht hclose =>
    subst ht
    intro v' rest' h'
    cases h' with
    | scalar h' => exact absurd h' (not_readsScalar_bracket (by decide))
    | emptyArray ht _ | array ht _ => simp at ht
    | emptyObject ht hclose' => simp_all
    | object ht hfields =>
      obtain rfl := (List.cons.inj ht).2
      rw [hclose] at hfields
      exact absurd hfields not_reads_fields_closing
  | object ht hfields ih =>
    subst ht
    intro v' rest' h'
    cases h' with
    | scalar h' => exact absurd h' (not_readsScalar_bracket (by decide))
    | emptyArray ht _ | array ht _ => simp at ht
    | emptyObject ht hclose =>
      obtain rfl := (List.cons.inj ht).2
      rw [hclose] at hfields
      exact absurd hfields not_reads_fields_closing
    | object ht hfields' =>
      obtain rfl := (List.cons.inj ht).2
      obtain ⟨rfl, rfl⟩ := ih _ _ hfields'
      exact ⟨rfl, rfl⟩
  | lastItem hitem hclose ih =>
    intro vs' rest' h'
    cases h' with
    | lastItem hitem' hclose' | item hitem' hclose' _ =>
      obtain ⟨rfl, rfl⟩ := ih _ _ hitem'
      simp_all
  | item hitem hcomma hitems ih ihItems =>
    intro vs' rest' h'
    cases h' with
    | lastItem hitem' hclose' =>
      obtain ⟨rfl, rfl⟩ := ih _ _ hitem'
      simp_all
    | item hitem' hcomma' hitems' =>
      obtain ⟨rfl, rfl⟩ := ih _ _ hitem'
      obtain rfl := (List.cons.inj (hcomma.symm.trans hcomma')).2
      obtain ⟨rfl, rfl⟩ := ihItems _ _ hitems'
      exact ⟨rfl, rfl⟩
  | lastField ht hname hcolon hvalue hclose ih =>
    subst ht
    intro fs' rest' h'
    cases h' with
    | lastField ht' hname' hcolon' hvalue' hclose' | field ht' hname' hcolon' hvalue' hclose' _ =>
      obtain rfl := (List.cons.inj ht').2
      obtain ⟨rfl, rfl⟩ := Prod.mk.inj (Option.some.inj (hname.symm.trans hname'))
      obtain rfl := (List.cons.inj (hcolon.symm.trans hcolon')).2
      obtain ⟨rfl, rfl⟩ := ih _ _ hvalue'
      simp_all
  | field ht hname hcolon hvalue hcomma hfields ih ihFields =>
    subst ht
    intro fs' rest' h'
    cases h' with
    | lastField ht' hname' hcolon' hvalue' hclose' =>
      obtain rfl := (List.cons.inj ht').2
      obtain ⟨rfl, rfl⟩ := Prod.mk.inj (Option.some.inj (hname.symm.trans hname'))
      obtain rfl := (List.cons.inj (hcolon.symm.trans hcolon')).2
      obtain ⟨rfl, rfl⟩ := ih _ _ hvalue'
      simp_all
    | field ht' hname' hcolon' hvalue' hcomma' hfields' =>
      obtain rfl := (List.cons.inj ht').2
      obtain ⟨rfl, rfl⟩ := Prod.mk.inj (Option.some.inj (hname.symm.trans hname'))
      obtain rfl := (List.cons.inj (hcolon.symm.trans hcolon')).2
      obtain ⟨rfl, rfl⟩ := ih _ _ hvalue'
      obtain rfl := (List.cons.inj (hcomma.symm.trans hcomma')).2
      obtain ⟨rfl, rfl⟩ := ihFields _ _ hfields'
      exact ⟨rfl, rfl⟩

/-- A text denotes at most one value. -/
theorem Denotes.unique {t : Text} {v v' : Json} (h : Denotes limit t v) (h' : Denotes limit t v') :
    v = v' := by
  obtain ⟨rest, hread, -⟩ := h
  obtain ⟨rest', hread', -⟩ := h'
  exact (hread.isOnly _ _ hread').1

end SetupCatalog.Json
