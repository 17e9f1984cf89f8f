import SetupCatalog.Proofs.Rule.ArrayReading
import SetupCatalog.Proofs.Rule.Entry
import SetupCatalog.Proofs.Rule.DottedId
import SetupCatalog.Rule.Choco
import SetupCatalog.Rule.PsModule

/-!
# What the rules read is legible

No rule checks at the end that the names and identities it hands out can be seen and stay on one
line. Each rule has a reason of its own why they do:

* the fields of a container lie on one line and are stripped, and an identity that is blank after
  that is dropped;
* the same holds for the values of piped arrays, but there it is each literal that stays on one
  line, while the array need not;
* the names of Chocolatey packages and of modules start with a letter or digit and go on with
  characters that are never blank;
* an identity of winget is a dotted one.
-/

namespace SetupCatalog.Rule

open Text Pattern Script

/-! ## Containers -/

namespace Container

/-- The value of a field stands in the text as it was written. -/
theorem isInfix_of_fieldValue {t value rest : Text} (h : fieldValue t = some (value, rest)) :
    value <:+: t := by
  obtain ⟨blanks, blanks', quoted, -, -, rfl, hquoted⟩ := fieldValue_eq_some_iff.mp h
  obtain ⟨q, -, -, -, rfl⟩ := quotedValue_eq_some_iff.mp hquoted
  exact ⟨blanks ++ '=' :: (blanks' ++ [q]), q :: rest, by simp⟩

/-- The value of an identifier's field stands in the text as it was written. -/
theorem isInfix_of_idField {prev : Option Char} {t value rest : Text}
    (h : idField prev t = some (value, rest)) : value <:+: t := by
  obtain ⟨-, after, hword, hvalue⟩ := idField_eq_some_iff.mp h
  rcases hword with hword | hword
  · exact (isInfix_of_fieldValue hvalue).trans (suffix_of_keyword hword).isInfix
  · exact (isInfix_of_fieldValue hvalue).trans (suffix_of_keyword hword).isInfix

/-- The value of a name's field stands in the text as it was written. -/
theorem isInfix_of_nameField {prev : Option Char} {t value rest : Text}
    (h : nameField prev t = some (value, rest)) : value <:+: t := by
  simp only [nameField, bind, Option.bind_eq_some_iff] at h
  obtain ⟨-, -, after, hword, hvalue⟩ := h
  exact (isInfix_of_fieldValue hvalue).trans (suffix_of_keyword hword).isInfix

/-- The value of the identity field stands on the line of the entry. -/
theorem IsEntry.value_isInfix {text : Text} {b : Block} {line value : Text}
    (entry : IsEntry text b line value) : value <:+: line :=
  isInfix_of_find? entry.field fun _ _ _ _ => isInfix_of_idField

/-- The identity of an entry is legible. -/
theorem IsEntry.legible_id {text : Text} {b : Block} {line value : Text}
    (entry : IsEntry text b line value) : (strip value).Legible := by
  have hsub : value ⊆ line := entry.value_isInfix.subset
  exact Legible.strip entry.not_blank fun c hc => oneLine_of_mem_lines entry.line_mem c (hsub hc)

/-- The label of an entry is legible, whether it comes from the name field or from the identity. -/
theorem IsEntry.legible_label {text : Text} {b : Block} {line value : Text}
    (entry : IsEntry text b line value) : (labelOf line (strip value)).Legible := by
  unfold labelOf
  split
  · next label hlabel =>
    split
    · exact entry.legible_id
    · next hne =>
      have hsub : label ⊆ line :=
        (isInfix_of_find? hlabel fun _ _ _ _ => isInfix_of_nameField).subset
      exact Legible.strip hne fun c hc => oneLine_of_mem_lines entry.line_mem c (hsub hc)
  · exact entry.legible_id

end Container

/-! ## Piped arrays -/

namespace PipedArray

/-- The values of the literals of a loop are legible. -/
theorem legible_of_mem_values {text : Text} {hit : Hit Loop} (hhit : hit ∈ loop.all text)
    {value : Text} (hvalue : value ∈ literalValues hit.found.run) : value.Legible := by
  obtain ⟨rest, -, hread⟩ := exists_of_mem_all hhit
  obtain ⟨literals, t, hrun, hagree, -⟩ := exists_literalRun_of_loop hread
  rw [hagree] at hvalue
  simp only [values, List.mem_filter, List.mem_map, Bool.not_eq_true',
    List.isEmpty_eq_false_iff] at hvalue
  obtain ⟨⟨literal, hliteral, rfl⟩, hne⟩ := hvalue
  exact Legible.strip hne (literalRun_oneLine hrun literal hliteral)

end PipedArray

/-! ## Names without blanks -/

/-- A character that counts as a letter or digit when case is ignored is not blank. -/
theorem isBlank_eq_false_of_isAlnumAnyCase {c : Char} (h : isAlnumAnyCase c = true) :
    isBlank c = false := by
  simp only [isAlnumAnyCase, Bool.or_eq_true, beq_iff_eq] at h
  rcases h with (((h | rfl) | rfl) | rfl) | rfl
  · exact isBlank_eq_false_of_isWord (isWord_of_isAsciiAlnum h)
  all_goals decide

/-- A name that starts with a visible character and goes on with visible ones is legible. -/
theorem legible_cons_takeWhile {p : Char → Bool} (hp : ∀ d, p d = true → isBlank d = false)
    {c : Char} (hc : isBlank c = false) (t : Text) : Legible (c :: t.takeWhile p) := by
  refine Legible.of_not_blank (List.cons_ne_nil _ _) fun d hd => ?_
  rcases List.mem_cons.mp hd with rfl | hd
  · exact hc
  · exact hp d (List.mem_takeWhile_imp hd)

namespace Choco

/-- No character of a name at the start of a word is blank. -/
theorem isBlank_eq_false_of_isNameChar {c : Char} (h : isNameChar c = true) :
    isBlank c = false := by
  simp only [isNameChar, Bool.or_eq_true, beq_iff_eq] at h
  rcases h with ((h | rfl) | rfl) | rfl
  · exact isBlank_eq_false_of_isWord h
  all_goals decide

/-- A name at the start of a word is legible: the pattern asks for one character at least. -/
theorem legible_of_nameAtStart {word name : Text} (h : nameAtStart word = some name) :
    name.Legible := by
  unfold nameAtStart at h
  split at h
  · cases h
  · split at h
    · next c t hc =>
      obtain rfl := Option.some.inj h
      exact legible_cons_takeWhile (fun _ => isBlank_eq_false_of_isNameChar)
        (isBlank_eq_false_of_isWord (isWord_of_isAsciiAlnum hc)) t
    · cases h

/-- The name of a package is legible, however many flags are passed over before it. -/
theorem legible_of_packageIn {skipping : Bool} {words : List Text} {name : Text}
    (h : packageIn skipping words = some name) : name.Legible := by
  -- whether the first word is passed over as a value changes from word to word
  induction words generalizing skipping with
  | nil => cases h
  | cons word words ih =>
    rw [packageIn] at h
    split at h
    · exact ih h
    · split at h
      · exact ih h
      · exact legible_of_nameAtStart h

end Choco

namespace PsModule

/-- No character of a module's name is blank. -/
theorem isBlank_eq_false_of_isNameChar {c : Char} (h : isNameChar c = true) :
    isBlank c = false := by
  simp only [isNameChar, Bool.or_eq_true, beq_iff_eq] at h
  rcases h with (h | rfl) | rfl
  · exact isBlank_eq_false_of_isWord h
  all_goals decide

/-- A name is read of a first character of the given class and of characters of names. -/
theorem exists_of_nameAfterBlanks {starts : Char → Bool} {t name rest : Text}
    (h : nameAfterBlanks starts t = some (name, rest)) :
    ∃ c others, starts c = true ∧ (∀ d ∈ others, isNameChar d = true) ∧ name = c :: others ∧
      name <:+: t := by
  obtain ⟨t', hblanks, h⟩ := Option.bind_eq_some_iff.mp h
  have hsuffix := (optionalQuote_suffix t').trans (suffix_of_someBlanks hblanks)
  split at h
  · cases h
  · next c u hquote =>
    split at h
    · next hc =>
      obtain ⟨rfl, -⟩ := Prod.mk.inj (Option.some.inj h)
      rw [hquote] at hsuffix
      exact ⟨c, _, hc, fun _ => List.mem_takeWhile_imp, rfl,
        ((List.prefix_cons_inj c).mpr (List.takeWhile_prefix _)).isInfix.trans hsuffix.isInfix⟩
    · cases h

/-- The name of a module starts with a letter or digit and goes on with characters of names, and it
stands among the arguments, whether it is given by position or by a parameter. -/
theorem exists_of_moduleOf {arguments name : Text} (h : moduleOf arguments = some name) :
    ∃ c others, isAlnumAnyCase c = true ∧ (∀ d ∈ others, isNameChar d = true) ∧
      name = c :: others ∧ name <:+: arguments := by
  rw [moduleOf, Option.orElse_eq_or, Option.or_eq_some_iff] at h
  rcases h with h | ⟨-, h⟩
  · obtain ⟨⟨found, rest⟩, hfound, rfl⟩ := Option.map_eq_some_iff.mp h
    obtain ⟨c, others, hc, hname⟩ := exists_of_nameAfterBlanks hfound
    exact ⟨c, others, by simp [isAlnumAnyCase, hc], hname⟩
  · obtain ⟨before, t, after, rfl, hread, -⟩ := find?_eq_some_iff.mp h
    simp only [nameParameter, bind, Option.bind_eq_some_iff] at hread
    obtain ⟨-, -, t', hparameter, hname⟩ := hread
    obtain ⟨c, others, hc, hothers, heq, hinfix⟩ := exists_of_nameAfterBlanks hname
    exact ⟨c, others, hc, hothers, heq, hinfix.trans
      ((suffix_of_keyword hparameter).trans (List.suffix_append before t)).isInfix⟩

/-- The name of a module is legible. -/
theorem legible_of_moduleOf {arguments name : Text} (h : moduleOf arguments = some name) :
    name.Legible := by
  obtain ⟨c, others, hc, hothers, rfl, -⟩ := exists_of_moduleOf h
  refine Legible.of_not_blank (List.cons_ne_nil c others) fun d hd => ?_
  rcases List.mem_cons.mp hd with rfl | hd
  · exact isBlank_eq_false_of_isAlnumAnyCase hc
  · exact isBlank_eq_false_of_isNameChar (hothers d hd)

end PsModule

namespace Winget

/-- The identity that a flag gives is what one of the words offers. -/
theorem exists_of_flaggedId {words : List Text} {id : Text} (h : flaggedId words = some id) :
    ∃ word rest, word :: rest <:+ words ∧ offeredId word rest = some id ∧ DottedId id := by
  induction words with
  | nil => cases h
  | cons word words ih =>
    rw [flaggedId] at h
    split at h
    · next found hfound =>
      obtain rfl := Option.some.inj h
      obtain ⟨hoffered, hdotted⟩ := Option.filter_eq_some_iff.mp hfound
      exact ⟨word, words, List.suffix_refl _, hoffered, isDottedId_iff.mp hdotted⟩
    · obtain ⟨other, rest, hsuffix, hoffered⟩ := ih h
      exact ⟨other, rest, hsuffix.trans (List.suffix_cons word words), hoffered⟩

/-- The identity that stands alone is one of the words. -/
theorem mem_of_positionalId {previous : Text} {words : List Text} {id : Text}
    (h : positionalId previous words = some id) : id ∈ words ∧ DottedId id := by
  induction words generalizing previous with
  | nil => cases h
  | cons word words ih =>
    rw [positionalId] at h
    split at h
    · next haccept =>
      obtain rfl := Option.some.inj h
      simp only [Bool.and_eq_true] at haccept
      exact ⟨List.mem_cons_self, isDottedId_iff.mp haccept.1.2⟩
    · exact (ih h).imp_left (List.mem_cons_of_mem word)

/-- The identity that the arguments give is written like one, whether a flag gives it or it stands
alone. -/
theorem dottedId_of_idOf {text id : Text} (h : idOf text = some id) : DottedId id := by
  rw [idOf, Option.orElse_eq_or, Option.or_eq_some_iff] at h
  rcases h with h | ⟨-, h⟩
  · obtain ⟨-, -, -, -, hdotted⟩ := exists_of_flaggedId h
    exact hdotted
  · exact (mem_of_positionalId h).2

/-- A dotted identifier is legible. -/
theorem DottedId.legible {word : Text} (h : DottedId word) : word.Legible :=
  Legible.of_not_blank h.ne_nil h.not_blank

end Winget

end SetupCatalog.Rule
