import SetupCatalog.Proofs.Rule.Entry
import SetupCatalog.Proofs.Script.Comment

/-!
# Written rows are read back

A `Row` is an entry of a container as scripts commonly write it: a key, and behind it a table with
the label and the identity. `Row.line` writes it on one line.

The rule looks for the fields from the left and takes the first that it finds. Keys and labels may
spell the names of fields themselves. They stand in quotes, though, and a field needs an equals sign
after its name, which no quoted text has (`field_in_quotes_eq_none`). So the fields that are found
are those that were written, and `declared?_line` says what the row declares.
-/

namespace SetupCatalog.Rule.Container

open Text Pattern Script

/-! ## How rows are written -/

/-- Whether a character is a letter or a digit of ASCII, a space, a dot, a hyphen or an underscore.
-/
def isPlain (c : Char) : Bool :=
  isAsciiAlnum c || c == ' ' || c == '.' || c == '-' || c == '_'

/-- A text of plain characters. -/
abbrev Plain :=
  { t : Text // t.all isPlain = true }

/-- An entry of a container. -/
structure Row where
  /-- What the entry is filed under. -/
  key : Plain
  /-- The label of the package. -/
  label : Plain
  /-- The identity of the package. -/
  id : Plain
  id_visible : strip id.val ≠ []

/-- A field as it is written. -/
def fieldText (name value : Text) : Text :=
  name ++ (" = '".toList ++ (value ++ ['\'']))

/-- The fields of a row as they are written. -/
def Row.fields (r : Row) : Text :=
  ' ' :: (fieldText "Name".toList r.label ++ ("; ".toList ++ (fieldText "Id".toList r.id ++ [' '])))

/-- A row as it is written. -/
def Row.line (r : Row) : Text :=
  "    '".toList ++ (r.key ++ ("' = @".toList ++ ('{' :: r.fields ++ ['}'])))

/-! ## The characters of a row -/

/-- Whether a character can stand in the fields of a row. -/
def isFieldChar (c : Char) : Bool :=
  isPlain c || c == '\'' || c == '=' || c == ';'

/-- Whether a character can stand in a row. -/
def isRowChar (c : Char) : Bool :=
  isFieldChar c || c == '@' || c == '{' || c == '}'

/-- A part of a plain text is plain. -/
theorem Plain.all_of_append (plain : Plain) {u v : Text} (h : plain.val = u ++ v) :
    v.all isPlain = true := by
  have hwhole := plain.property
  rw [h, List.all_append, Bool.and_eq_true] at hwhole
  exact hwhole.2

/-- A plain text can stand in the fields of a row. -/
theorem Plain.all_isFieldChar (plain : Plain) : plain.val.all isFieldChar = true := by
  refine List.all_eq_true.mpr fun c hc => ?_
  rw [isFieldChar, List.all_eq_true.mp plain.property c hc]
  rfl

/-- The characters between the braces of a row. -/
theorem Row.all_fields (r : Row) : r.fields.all isFieldChar = true := by
  simp only [Row.fields, fieldText, List.all_cons, List.all_append, r.label.all_isFieldChar,
    r.id.all_isFieldChar, Bool.true_and]
  decide

/-- The characters of a whole row: none of them ends a line. -/
theorem Row.all_line (r : Row) : r.line.all isRowChar = true := by
  have hfield : ∀ t : Text, t.all isFieldChar = true → t.all isRowChar = true := by
    intro t ht
    refine List.all_eq_true.mpr fun c hc => ?_
    rw [isRowChar, List.all_eq_true.mp ht c hc]
    rfl
  simp only [Row.line, List.all_cons, List.all_append, hfield _ r.all_fields,
    hfield _ r.key.all_isFieldChar, Bool.and_true, Bool.true_and]
  decide

/-- A row stays on its line: a plain character is a space, or it is not blank. -/
theorem Row.isLineBreak_eq_false (r : Row) : ∀ c ∈ r.line, isLineBreak c = false := by
  intro c hc
  have hrow := List.all_eq_true.mp r.all_line c hc
  simp only [isRowChar, isFieldChar, isPlain, Bool.or_eq_true, beq_iff_eq] at hrow
  rcases hrow with ((((((((((h | rfl) | rfl) | rfl) | rfl) | rfl) | rfl) | rfl) | rfl) | rfl) | rfl)
  · cases hbreak : isLineBreak c with
    | false => rfl
    | true =>
      have := isBlank_eq_false_of_isWord (isWord_of_isAsciiAlnum h)
      rw [isBlank_of_isLineBreak hbreak] at this
      cases this
  all_goals decide

/-! ## Finding the fields -/

/-- No field has its name in a quoted text: an equals sign would have to come before the quote. -/
theorem field_in_quotes_eq_none {name : Text} (hname : name.any (sameLetter · '\'') = false)
    {plain : Text} (hplain : plain.all isPlain = true) (rest : Text) :
    (keyword name (plain ++ '\'' :: rest)).bind fieldValue = none := by
  rw [Option.eq_none_iff_forall_ne_some]
  rintro ⟨value, rest'⟩ h
  obtain ⟨after, hkeyword, hvalue⟩ := Option.bind_eq_some_iff.mp h
  obtain ⟨spelt, hspelt, hsplit⟩ := keyword_eq_some_iff.mp hkeyword
  obtain ⟨blanks, blanks', quoted, hblanks, -, rfl, -⟩ := fieldValue_eq_some_iff.mp hvalue
  -- the quote is neither spelt in the name nor among the blanks after it
  have hquote : '\'' ∉ spelt ++ blanks := by
    intro hmem
    rcases List.mem_append.mp hmem with hmem | hmem
    · obtain ⟨w, hw, hsame⟩ := hspelt.exists_sameLetter hmem
      rw [any_eq_false_iff.mp hname w hw] at hsame
      cases hsame
    · exact absurd (hblanks _ hmem) (by decide)
  have hequals : '=' ∉ plain := not_mem_of_all hplain (by decide)
  rw [← List.append_assoc] at hsplit
  rcases List.append_eq_append_iff.mp hsplit with ⟨w, hw, hrest⟩ | ⟨w, hw, hrest⟩
  · cases w with
    | nil => exact absurd (List.cons.inj hrest).1 (by decide)
    | cons c w =>
      obtain rfl := (List.cons.inj hrest).1
      exact hquote (hw ▸ by simp)
  · cases w with
    | nil => exact absurd (List.cons.inj hrest).1 (by decide)
    | cons c w =>
      obtain rfl := (List.cons.inj hrest).1
      exact hequals (hw ▸ by simp)

/-- A name's field is read where a word starts, from its keyword and its value. -/
theorem nameField_eq_some_iff {prev : Option Char} {t value rest : Text} :
    nameField prev t = some (value, rest) ↔ wordStarts prev = true ∧
      (keyword "Name".toList t).bind fieldValue = some (value, rest) := by
  simp only [nameField, bind, Option.bind_eq_some_iff, Option.guard_eq_some', exists_const]

/-- No name's field starts at another letter than its own. -/
theorem nameField_cons_eq_none {c : Char} (hc : sameLetter 'N' c = false) (prev : Option Char)
    (t : Text) : nameField prev (c :: t) = none := by
  have hname : keyword "Name".toList (c :: t) = none := keyword_cons_eq_none hc
  rw [Option.eq_none_iff_forall_ne_some]
  rintro ⟨value, rest⟩ h
  have := (nameField_eq_some_iff.mp h).2
  rw [hname] at this
  cases this

/-- No identifier's field starts at another letter than one of its two spellings. -/
theorem idField_cons_eq_none {c : Char} (hp : sameLetter 'P' c = false)
    (hi : sameLetter 'I' c = false) (prev : Option Char) (t : Text) :
    idField prev (c :: t) = none := by
  have hpackage : keyword "PackageId".toList (c :: t) = none := keyword_cons_eq_none hp
  have hid : keyword "Id".toList (c :: t) = none := keyword_cons_eq_none hi
  rw [Option.eq_none_iff_forall_ne_some]
  rintro ⟨value, rest⟩ h
  obtain ⟨-, after, hword, -⟩ := idField_eq_some_iff.mp h
  rw [hpackage, hid] at hword
  cases hword <;> contradiction

/-- A search for a label passes over quoted texts. -/
theorem nameField_passesOver_quoted (plain : Plain) (rest : Text) :
    nameField.PassesOver plain ('\'' :: rest) := by
  intro u c v huv prev
  have hplain := plain.all_of_append huv
  rw [Option.eq_none_iff_forall_ne_some]
  rintro ⟨value, rest'⟩ h
  have := (nameField_eq_some_iff.mp h).2
  rw [field_in_quotes_eq_none (by decide) hplain rest] at this
  cases this

/-- A search for an identity passes over quoted texts. -/
theorem idField_passesOver_quoted (plain : Plain) (rest : Text) :
    idField.PassesOver plain ('\'' :: rest) := by
  intro u c v huv prev
  have hplain := plain.all_of_append huv
  rw [Option.eq_none_iff_forall_ne_some]
  rintro ⟨value, rest'⟩ h
  obtain ⟨-, after, hword, hvalue⟩ := idField_eq_some_iff.mp h
  have hread : ∀ name : Text, keyword name (c :: v ++ '\'' :: rest) = some after →
      name.any (sameLetter · '\'') = false → False := by
    intro name hname hquote
    have hnone := field_in_quotes_eq_none hquote hplain rest
    rw [hname, Option.bind_some, hvalue] at hnone
    cases hnone
  exact hword.elim (fun hname => hread _ hname (by decide)) fun hname => hread _ hname (by decide)

/-- The value of a written field is read. -/
theorem fieldValue_text (plain : Plain) (rest : Text) :
    fieldValue (" = '".toList ++ (plain.val ++ '\'' :: rest)) = some (plain.val, rest) := by
  have hspace : ∀ b ∈ [' '], isBlank b = true := List.all_eq_true.mp (by decide)
  refine fieldValue_eq_some_iff.mpr ⟨[' '], [' '], '\'' :: (plain.val ++ '\'' :: rest), hspace,
    hspace, rfl, quotedValue_eq_some_iff.mpr ⟨'\'', by decide, ?_, ?_, rfl⟩⟩
  · exact not_mem_of_all plain.property (by decide)
  · exact not_mem_of_all plain.property (by decide)

/-- A written name is read back, where a word starts. -/
theorem nameField_text (plain : Plain) {prev : Option Char} (hprev : wordStarts prev = true)
    (rest : Text) :
    nameField prev (fieldText "Name".toList plain ++ rest) = some (plain.val, rest) := by
  refine nameField_eq_some_iff.mpr ⟨hprev, ?_⟩
  rw [fieldText, List.append_assoc, keyword_self, Option.bind_some, List.append_assoc,
    List.append_assoc]
  exact fieldValue_text plain rest

/-- A written identifier is read back, where a word starts. -/
theorem idField_text (plain : Plain) {prev : Option Char} (hprev : wordStarts prev = true)
    (rest : Text) :
    idField prev (fieldText "Id".toList plain ++ rest) = some (plain.val, rest) := by
  refine idField_eq_some_iff.mpr ⟨hprev, _, Or.inr ?_, fieldValue_text plain rest⟩
  rw [fieldText, List.append_assoc, keyword_self, List.append_assoc, List.append_assoc]
  rfl

/-- The label that is found on a row is its label. -/
theorem Row.find?_nameField (r : Row) : nameField.find? r.line = some r.label.val := by
  have hletters : ∀ fixed : Text, fixed.any (sameLetter 'N') = false → ∀ rest,
      nameField.PassesOver fixed rest := fun fixed h =>
    passesOver_of_forall_mem fun c hc => nameField_cons_eq_none (any_eq_false_iff.mp h c hc)
  have hbefore : nameField.PassesOver ("    '".toList ++ (r.key ++ "' = @\x7b ".toList))
      (fieldText "Name".toList r.label ++
        ("; ".toList ++ (fieldText "Id".toList r.id ++ " \x7d".toList))) :=
    (hletters _ (by decide) _).append
      ((nameField_passesOver_quoted r.key _).append (hletters _ (by decide) _))
  have hline : r.line = "    '".toList ++ (r.key ++ "' = @\x7b ".toList) ++
      (fieldText "Name".toList r.label ++
        ("; ".toList ++ (fieldText "Id".toList r.id ++ " \x7d".toList))) := by
    simp [Row.line, Row.fields]
  rw [hline]
  refine find?_of_passesOver hbefore (nameField_text r.label ?_ _)
  rw [List.getLast?_append, List.getLast?_append]
  rfl

/-- The identity that is found on a row is its identity. -/
theorem Row.find?_idField (r : Row) : idField.find? r.line = some r.id.val := by
  have hletters : ∀ fixed : Text,
      fixed.any (fun c => sameLetter 'P' c || sameLetter 'I' c) = false → ∀ rest,
      idField.PassesOver fixed rest := by
    intro fixed h
    refine passesOver_of_forall_mem fun c hc => ?_
    obtain ⟨hp, hi⟩ := Bool.or_eq_false_iff.mp (any_eq_false_iff.mp h c hc)
    exact idField_cons_eq_none hp hi
  -- between the quoted values there is no letter that a field could start with
  have hbefore : idField.PassesOver ("    '".toList ++ (r.key ++ ("' = @\x7b Name = '".toList ++
      (r.label ++ "'; ".toList)))) (fieldText "Id".toList r.id ++ " \x7d".toList) :=
    (hletters _ (by decide) _).append <| (idField_passesOver_quoted r.key _).append <|
      (hletters _ (by decide) _).append <| (idField_passesOver_quoted r.label _).append <|
        hletters _ (by decide) _
  have hline : r.line = "    '".toList ++ (r.key ++ ("' = @\x7b Name = '".toList ++
      (r.label ++ "'; ".toList))) ++ (fieldText "Id".toList r.id ++ " \x7d".toList) := by
    simp [Row.line, Row.fields, fieldText]
  rw [hline]
  refine find?_of_passesOver hbefore (idField_text r.id ?_ _)
  rw [List.getLast?_append, List.getLast?_append, List.getLast?_append, List.getLast?_append]
  rfl

/-! ## What a row declares -/

/-- A line that starts with another character than a hash is no comment. -/
theorem isComment_eq_false {line t : Text} {c : Char} (hline : trimStart line = c :: t)
    (hc : c ≠ '#') : isComment line = false := by
  rw [isComment_eq, hline, List.head?_cons]
  simpa using hc

/-- The record of a row: its identity, and as its name the label if it has one. -/
def Row.package (r : Row) (script : Text) (consumer : Consumer) : Package where
  name := if strip r.label.val = [] then strip r.id.val else strip r.label.val
  id := strip r.id.val
  installer := consumer.installer
  script := script
  scope := consumer.scope

/-- A row declares exactly its own package, whatever its key says. -/
theorem declared?_line (r : Row) (script : Text) (consumer : Consumer) :
    declared? script consumer r.line = some (r.package script consumer) := by
  refine declared?_eq_some_iff.mpr ⟨isComment_eq_false rfl (by decide), r.id, r.find?_idField,
    r.id_visible, ?_⟩
  rw [entryPackage, labelOf, r.find?_nameField]
  rfl

end SetupCatalog.Rule.Container
