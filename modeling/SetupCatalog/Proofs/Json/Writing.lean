import SetupCatalog.Proofs.Json.Token

/-!
# What is written is read back

A value without a number that is not finite is `Standard`. Whatever the indentation is, a standard
value is written as a text that denotes it by the grammar of JSON (`denotes_write`), in ASCII alone
(`isAscii_write`).

Every part of a value is read back with a rest after it (`IsReadBack`). Only a number must not go on
in the rest, and what the writer puts after a value never continues a number.
-/

namespace SetupCatalog.Json

open Text

/-! ## Values -/

/-- A value has no number that is not finite, and no whole number with more digits than the limit
allows. -/
inductive Standard (limit : Option Nat) : Json → Prop
  | null : Standard limit .null
  | bool (b : Bool) : Standard limit (.bool b)
  | int {n : Int} (h : accepts limit (ofNat n.natAbs).length = true) : Standard limit (.int n)
  | real (m e : Int) : Standard limit (.real m e)
  | text (s : Text) : Standard limit (.text s)
  | array {items : List Json} (h : ∀ item ∈ items, Standard limit item) :
      Standard limit (.array items)
  | object {fields : List (Text × Json)} (h : ∀ field ∈ fields, Standard limit field.2) :
      Standard limit (.object fields)

/-- A text that does not start with white space. -/
def StartsAtOnce (t : Text) : Prop :=
  ∃ c u, t = c :: u ∧ isSpace c = false

/-- What comes after a text does not change how it starts. -/
theorem StartsAtOnce.append {t : Text} (h : StartsAtOnce t) (u : Text) : StartsAtOnce (t ++ u) := by
  obtain ⟨c, v, rfl, hc⟩ := h
  exact ⟨c, v ++ u, rfl, hc⟩

/-- White space is skipped up to a text that starts at once. -/
theorem skipSpace_append {gap t : Text} (hgap : ∀ c ∈ gap, isSpace c = true)
    (ht : StartsAtOnce t) : skipSpace (gap ++ t) = t := by
  obtain ⟨c, u, rfl, hc⟩ := ht
  rw [skipSpace, List.dropWhile_append_of_pos hgap, List.dropWhile_cons_of_neg (by simp [hc])]

/-- No white space is skipped at the start of such a text. -/
theorem skipSpace_of_startsAtOnce {t : Text} (ht : StartsAtOnce t) : skipSpace t = t :=
  @skipSpace_append [] t (fun _ hc => nomatch hc) ht

/-- A number starts with a digit or a sign. -/
theorem startsAtOnce_ofInt (n : Int) : StartsAtOnce (ofInt n) := by
  cases n with
  | negSucc k => exact ⟨'-', _, rfl, rfl⟩
  | ofNat k =>
    obtain ⟨c, u, hcons, hc⟩ := exists_ofNat_cons k
    have hne : ∀ d : Char, d.isDigit = false → c ≠ d := fun d => ne_of_isDigit hc
    exact ⟨c, u, hcons, by simp [isSpace, hne ' ' rfl, hne '\t' rfl, hne '\n' rfl, hne '\r' rfl]⟩

/-- A text starts with a quote. -/
theorem startsAtOnce_writeText (s : Text) : StartsAtOnce (writeText s) :=
  ⟨'"', _, rfl, rfl⟩

/-- So no value is written with white space at its start. -/
theorem startsAtOnce_writeAt (indent : Option Int) (depth : Nat) (v : Json) :
    StartsAtOnce (writeAt indent depth v) := by
  cases v with
  | null => exact ⟨'n', _, rfl, rfl⟩
  | bool b => cases b <;> exact ⟨_, _, rfl, rfl⟩
  | int n => exact startsAtOnce_ofInt n
  | real m e => exact (startsAtOnce_ofInt m).append _
  | notFinite => exact ⟨'N', _, rfl, rfl⟩
  | text s => exact startsAtOnce_writeText s
  | array items => cases items <;> exact ⟨'[', _, rfl, rfl⟩
  | object fields => rcases fields with _ | ⟨⟨name, value⟩, fields⟩ <;> exact ⟨'\x7b', _, rfl, rfl⟩

/-- A line break with its indentation is white space. -/
theorem isSpace_of_mem_lineBreak {indent : Option Int} {depth : Nat} {c : Char}
    (hc : c ∈ lineBreak indent depth) : isSpace c = true := by
  cases indent with
  | none => cases hc
  | some width =>
    rcases List.mem_cons.mp hc with rfl | hc
    · rfl
    · rw [List.eq_of_mem_replicate hc]
      rfl

/-- A separator is a comma and white space. -/
theorem exists_separator (indent : Option Int) (depth : Nat) :
    ∃ gap, separator indent depth = ',' :: gap ∧ ∀ c ∈ gap, isSpace c = true := by
  cases indent with
  | none => exact ⟨[' '], rfl, List.forall_mem_singleton.mpr rfl⟩
  | some width => exact ⟨_, rfl, fun c => isSpace_of_mem_lineBreak⟩

/-- A number ends before any character that cannot go on with it. -/
theorem endsNumber_cons {c : Char} {t : Text} (hdigit : c.isDigit = false)
    (hc : c ∉ ['.', 'e', 'E']) : EndsNumber (c :: t) := by
  rintro d hd
  obtain rfl := Option.some.inj hd
  simpa [hdigit] using hc

/-- Neither white space nor a bracket continues a number. -/
theorem endsNumber_lineBreak {indent : Option Int} {depth : Nat} {c : Char} {t : Text}
    (hdigit : c.isDigit = false) (hc : c ∉ ['.', 'e', 'E']) :
    EndsNumber (lineBreak indent depth ++ c :: t) := by
  cases indent with
  | none => exact endsNumber_cons hdigit hc
  | some width => exact endsNumber_cons rfl (by decide)

/-- The line break before an item is skipped. -/
theorem skipSpace_lineBreak {indent : Option Int} {depth : Nat} {t : Text} (h : StartsAtOnce t) :
    skipSpace (lineBreak indent depth ++ t) = t :=
  skipSpace_append (fun _ => isSpace_of_mem_lineBreak) h

/-- What is written for a value at any depth is read back with every rest that does not continue a
number. -/
def IsReadBack (limit : Option Nat) (indent : Option Int) (v : Json) : Prop :=
  ∀ depth rest, EndsNumber rest → Reads limit (writeAt indent depth v ++ rest) (.value v) rest

/-- The items of an array are read back if each of them is. -/
theorem reads_writeItems {limit : Option Nat} {indent : Option Int} {item : Json}
    {items : List Json} (hitem : IsReadBack limit indent item)
    (hitems : ∀ item ∈ items, IsReadBack limit indent item) (depth inner : Nat) (rest : Text) :
    Reads limit (writeAt indent inner item ++ (writeItems indent inner items ++
      (lineBreak indent depth ++ ']' :: rest))) (.items (item :: items)) rest := by
  induction items generalizing item with
  | nil =>
    apply Reads.lastItem
    · exact hitem inner _ (endsNumber_lineBreak rfl (by decide))
    · exact skipSpace_lineBreak ⟨']', rest, rfl, rfl⟩
  | cons next items ih =>
    obtain ⟨gap, hseparator, hgap⟩ := exists_separator indent inner
    rw [writeItems, hseparator]
    simp only [List.append_assoc, List.cons_append]
    apply Reads.item
    · exact hitem inner _ (endsNumber_cons rfl (by decide))
    · exact skipSpace_of_startsAtOnce ⟨',', _, rfl, rfl⟩
    · rw [skipSpace_append hgap ((startsAtOnce_writeAt indent inner next).append _)]
      exact ih (hitems next List.mem_cons_self) fun item h => hitems item (List.mem_cons_of_mem _ h)

/-- A name and its colon in front of a value. -/
theorem writeText_append (name t : Text) :
    writeText name ++ t = '"' :: (name.flatMap writeChar ++ '"' :: t) := by
  rw [writeText, List.cons_append, List.cons_append, List.append_assoc]
  rfl

/-- The fields of an object are read back if each of their values is. -/
theorem reads_writeFields {limit : Option Nat} {indent : Option Int} {name : Text} {value : Json}
    {fields : List (Text × Json)} (hvalue : IsReadBack limit indent value)
    (hfields : ∀ field ∈ fields, IsReadBack limit indent field.2) (depth inner : Nat)
    (rest : Text) :
    Reads limit (writeText name ++ (':' :: ' ' :: (writeAt indent inner value ++
      (writeFields indent inner fields ++ (lineBreak indent depth ++ '\x7d' :: rest)))))
      (.fields ((name, value) :: fields)) rest := by
  have hspace : ∀ (v : Json) (t : Text), skipSpace (' ' :: (writeAt indent inner v ++ t)) =
      writeAt indent inner v ++ t := by
    intro v t
    exact @skipSpace_append [' '] _ (List.forall_mem_singleton.mpr rfl)
      ((startsAtOnce_writeAt indent inner v).append t)
  -- the induction is on the fields behind the first one, which is the one that is read next
  induction fields generalizing name value with
  | nil =>
    apply Reads.lastField (writeText_append name _) (readText_writeText name _)
    · exact skipSpace_of_startsAtOnce ⟨':', _, rfl, rfl⟩
    · rw [hspace]
      exact hvalue inner _ (endsNumber_lineBreak rfl (by decide))
    · exact skipSpace_lineBreak ⟨'\x7d', rest, rfl, rfl⟩
  | cons field fields ih =>
    obtain ⟨next, nextValue⟩ := field
    obtain ⟨gap, hseparator, hgap⟩ := exists_separator indent inner
    rw [writeFields, hseparator]
    simp only [List.append_assoc, List.cons_append, List.nil_append]
    apply Reads.field (writeText_append name _) (readText_writeText name _)
    · exact skipSpace_of_startsAtOnce ⟨':', _, rfl, rfl⟩
    · rw [hspace]
      exact hvalue inner _ (endsNumber_cons rfl (by decide))
    · exact skipSpace_of_startsAtOnce ⟨',', _, rfl, rfl⟩
    · rw [skipSpace_append hgap ((startsAtOnce_writeText next).append _)]
      exact ih (hfields (next, nextValue) List.mem_cons_self)
        fun field h => hfields field (List.mem_cons_of_mem _ h)

/-- A standard value is read back. -/
theorem Standard.isReadBack {limit : Option Nat} {v : Json} (h : Standard limit v)
    (indent : Option Int) : IsReadBack limit indent v := by
  -- scalars are read back on their own; an array or an object by the rules for its items or fields
  induction h with
  | null =>
    intro depth rest _
    refine .scalar (.named ?_ rfl)
    simp [names, writeAt]
  | bool b =>
    intro depth rest _
    refine .scalar (.named ?_ rfl)
    cases b <;> simp [names, writeAt]
  | int hlimit =>
    intro depth rest hrest
    exact .scalar (readsScalar_ofInt hlimit hrest)
  | real m e =>
    intro depth rest hrest
    exact .scalar (readsScalar_ofInt_exponent m e hrest)
  | text s =>
    intro depth rest _
    exact .scalar (.text (writeText_append s rest) (readText_writeText s rest))
  | @array items _ ih =>
    intro depth rest _
    cases items with
    | nil => exact .emptyArray rfl (skipSpace_of_startsAtOnce ⟨']', rest, rfl, rfl⟩)
    | cons item items =>
      rw [writeAt]
      simp only [List.append_assoc, List.cons_append, List.nil_append]
      apply Reads.array rfl
      rw [skipSpace_lineBreak ((startsAtOnce_writeAt indent (depth + 1) item).append _)]
      exact reads_writeItems (ih item List.mem_cons_self)
        (fun item h => ih item (List.mem_cons_of_mem _ h)) depth (depth + 1) rest
  | @object fields _ ih =>
    intro depth rest _
    cases fields with
    | nil => exact .emptyObject rfl (skipSpace_of_startsAtOnce ⟨'\x7d', rest, rfl, rfl⟩)
    | cons field fields =>
      obtain ⟨name, value⟩ := field
      rw [writeAt]
      simp only [List.append_assoc, List.cons_append, List.nil_append]
      apply Reads.object rfl
      rw [skipSpace_lineBreak ((startsAtOnce_writeText name).append _)]
      exact reads_writeFields (ih (name, value) List.mem_cons_self)
        (fun field h => ih field (List.mem_cons_of_mem _ h)) depth (depth + 1) rest

/-- What is written for a standard value denotes the value. -/
theorem denotes_write {limit : Option Nat} {v : Json} (h : Standard limit v)
    (indent : Option Int) : Denotes limit (write indent v) v := by
  have hread := h.isReadBack indent 0 [] (fun _ hc => nomatch hc)
  rw [List.append_nil] at hread
  refine ⟨[], ?_, rfl⟩
  rw [write, skipSpace_of_startsAtOnce (startsAtOnce_writeAt indent 0 v)]
  exact hread

/-! ## ASCII -/

/-- A text is in ASCII alone. -/
def IsAscii (t : Text) : Prop :=
  ∀ c ∈ t, c.toNat < 128

/-- Whether a text is in ASCII is decided character by character. -/
theorem isAscii_iff {t : Text} : (t.all fun c => c.toNat < 128) = true ↔ IsAscii t := by
  simp only [List.all_eq_true, decide_eq_true_eq, IsAscii]

instance (t : Text) : Decidable (IsAscii t) :=
  decidable_of_iff _ isAscii_iff

/-- Two parts in ASCII are in ASCII together. -/
theorem IsAscii.append {t u : Text} (ht : IsAscii t) (hu : IsAscii u) : IsAscii (t ++ u) :=
  List.forall_mem_append.mpr ⟨ht, hu⟩

/-- So are a character and a text. -/
theorem IsAscii.cons {c : Char} {t : Text} (hc : c.toNat < 128) (ht : IsAscii t) :
    IsAscii (c :: t) :=
  List.forall_mem_cons.mpr ⟨hc, ht⟩

/-- A character below 128 is ASCII. -/
theorem isAscii_singleton {c : Char} (hc : c.toNat < 128) : IsAscii [c] :=
  IsAscii.cons hc fun _ h => nomatch h

/-- The digits are in ASCII. -/
theorem isAscii_digitChar {d : Nat} (hd : d < 16) : IsAscii [d.digitChar] := by
  have : ∀ d < 16, IsAscii [Nat.digitChar d] := by decide
  exact this d hd

/-- So is a number in digits, to any base that has them. -/
theorem isAscii_toDigits {base : Nat} (hbase : 1 < base ∧ base ≤ 16) (n : Nat) :
    IsAscii (Nat.toDigits base n) := by
  induction n using Nat.strongRecOn with
  | ind n ih =>
    by_cases hn : n < base
    · rw [Nat.toDigits_of_lt_base hn]
      exact isAscii_digitChar (by omega)
    · have hpos : 0 < n := by omega
      have hlast : n % base < base := Nat.mod_lt n (by omega)
      rw [Nat.toDigits_of_base_le hbase.1 (Nat.not_lt.mp hn)]
      exact (ih (n / base) (Nat.div_lt_self hpos hbase.1)).append (isAscii_digitChar (by omega))

/-- The escape of a unit is in ASCII. -/
theorem isAscii_unitEscape (n : Nat) : IsAscii (unitEscape n) := by
  apply IsAscii.cons (by decide)
  apply IsAscii.cons (by decide)
  apply IsAscii.append _ (isAscii_toDigits (by decide) n)
  intro c hc
  rw [List.eq_of_mem_replicate hc]
  decide

/-- However a character is written, it is in ASCII. -/
theorem isAscii_writeChar (c : Char) : IsAscii (writeChar c) := by
  rcases writeChar_cases c with ⟨d, hwrite, hd, -⟩ | ⟨hwrite, -, -, -, hc⟩ | ⟨hwrite, -⟩ |
      ⟨hwrite, -⟩
  · rw [hwrite]
    exact IsAscii.cons (by decide) (isAscii_singleton hd)
  · rw [hwrite]
    exact isAscii_singleton (by omega)
  · rw [hwrite]
    exact isAscii_unitEscape _
  · rw [hwrite]
    exact (isAscii_unitEscape _).append (isAscii_unitEscape _)

/-- So a text is written in ASCII. -/
theorem isAscii_writeText (s : Text) : IsAscii (writeText s) := by
  apply IsAscii.cons (by decide)
  apply IsAscii.append _ (isAscii_singleton (by decide))
  intro c hc
  obtain ⟨d, -, hc⟩ := List.mem_flatMap.mp hc
  exact isAscii_writeChar d c hc

/-- A number is written in ASCII. -/
theorem isAscii_ofInt (n : Int) : IsAscii (ofInt n) := by
  cases n with
  | ofNat k => exact isAscii_toDigits (by decide) k
  | negSucc k => exact IsAscii.cons (by decide) (isAscii_toDigits (by decide) (k + 1))

/-- White space is in ASCII. -/
theorem toNat_lt_of_isSpace {c : Char} (h : isSpace c = true) : c.toNat < 128 := by
  simp only [isSpace, Bool.or_eq_true, beq_iff_eq] at h
  rcases h with ((rfl | rfl) | rfl) | rfl <;> decide

/-- A line break and its indentation are ASCII. -/
theorem isAscii_lineBreak (indent : Option Int) (depth : Nat) : IsAscii (lineBreak indent depth) :=
  fun _ hc => toNat_lt_of_isSpace (isSpace_of_mem_lineBreak hc)

/-- A separator is ASCII. -/
theorem isAscii_separator (indent : Option Int) (depth : Nat) :
    IsAscii (separator indent depth) := by
  obtain ⟨gap, hseparator, hgap⟩ := exists_separator indent depth
  rw [hseparator]
  exact IsAscii.cons (by decide) fun c hc => toNat_lt_of_isSpace (hgap c hc)

/-- Items are in ASCII together if each of them is. -/
theorem isAscii_writeItems {indent : Option Int} {items : List Json}
    (h : ∀ item ∈ items, ∀ depth, IsAscii (writeAt indent depth item)) (depth : Nat) :
    IsAscii (writeItems indent depth items) := by
  induction items with
  | nil => exact fun _ hc => nomatch hc
  | cons item items ih =>
    obtain ⟨hitem, hitems⟩ := List.forall_mem_cons.mp h
    exact ((isAscii_separator indent depth).append (hitem depth)).append (ih hitems)

/-- Fields are in ASCII together if each value is: their names are texts. -/
theorem isAscii_writeFields {indent : Option Int} {fields : List (Text × Json)}
    (h : ∀ field ∈ fields, ∀ depth, IsAscii (writeAt indent depth field.2)) (depth : Nat) :
    IsAscii (writeFields indent depth fields) := by
  induction fields with
  | nil => exact fun _ hc => nomatch hc
  | cons field fields ih =>
    obtain ⟨hfield, hfields⟩ := List.forall_mem_cons.mp h
    exact ((((isAscii_separator indent depth).append (isAscii_writeText field.1)).append
      (by decide)).append (hfield depth)).append (ih hfields)

/-- A standard value is written in ASCII alone. -/
theorem Standard.isAscii_writeAt {limit : Option Nat} {v : Json} (h : Standard limit v)
    (indent : Option Int) (depth : Nat) : IsAscii (writeAt indent depth v) := by
  have hbracket : ∀ {c d : Char} {t : Text} (depth : Nat), IsAscii [c] → IsAscii [d] →
      IsAscii t →
        IsAscii (c :: lineBreak indent (depth + 1) ++ t ++ lineBreak indent depth ++ [d]) := by
    intro c d t depth hc hd ht
    have hopen : IsAscii (c :: lineBreak indent (depth + 1)) :=
      hc.append (isAscii_lineBreak indent (depth + 1))
    exact ((hopen.append ht).append (isAscii_lineBreak indent depth)).append hd
  -- the depth grows inside of an array and of an object
  induction h generalizing depth with
  | null =>
    rw [writeAt]
    decide
  | bool b => cases b <;> (rw [writeAt]; decide)
  | int _ => exact isAscii_ofInt _
  | real m e => exact (isAscii_ofInt m).append (IsAscii.cons (by decide) (isAscii_ofInt e))
  | text s => exact isAscii_writeText s
  | @array items _ ih =>
    cases items with
    | nil =>
      rw [writeAt]
      decide
    | cons item items =>
      obtain ⟨hitem, hitems⟩ := List.forall_mem_cons.mp ih
      have hinner := (hitem (depth + 1)).append (isAscii_writeItems hitems (depth + 1))
      rw [writeAt, List.append_assoc _ (writeAt indent (depth + 1) item)]
      exact hbracket depth (by decide) (by decide) hinner
  | @object fields _ ih =>
    cases fields with
    | nil =>
      rw [writeAt]
      decide
    | cons field fields =>
      obtain ⟨name, value⟩ := field
      obtain ⟨hvalue, hfields⟩ := List.forall_mem_cons.mp ih
      have hinner : IsAscii (writeText name ++ ([':', ' '] ++
          (writeAt indent (depth + 1) value ++ writeFields indent (depth + 1) fields))) :=
        (isAscii_writeText name).append (IsAscii.append (by decide)
          ((hvalue (depth + 1)).append (isAscii_writeFields hfields (depth + 1))))
      have hwhole := hbracket depth (show IsAscii ['\x7b'] by decide)
        (show IsAscii ['\x7d'] by decide) hinner
      rw [writeAt]
      simpa only [List.append_assoc, List.cons_append, List.nil_append] using hwhole

/-- Every standard value is written in ASCII. -/
theorem isAscii_write {limit : Option Nat} {v : Json} (h : Standard limit v)
    (indent : Option Int) : IsAscii (write indent v) :=
  h.isAscii_writeAt indent 0

end SetupCatalog.Json
