import SetupCatalog.Proofs.Rule.DottedId
import SetupCatalog.Proofs.Script.Words
import SetupCatalog.Proofs.Text.Lowering

/-!
# The search for an identity among words

The words of an installation are searched for its identity twice: first for one that a flag gives,
then for one that stands alone. A word that is inert takes no part in either search, and it keeps
the words before it and the words after it apart (`idOf_of_arguments`). A word with a symbol in it
that flags and identities do not have is inert, unless it gives an identity after an equals sign
(`isInert_of_mem`).

An identity that a flag gives is found whatever stands around it, if it is the first one, and the
quotes around it do not matter where it is a word of its own. Where it comes after an equals sign,
they do: the quotes are taken as part of the identity, so there is none (`idOf_explicit`).
-/

namespace SetupCatalog.Rule.Winget

open Text Pattern Script

/-! ## Words that give an identity -/

/-- Whether a word gives an identity, well-formed or not: the word after it, or what it has itself
after an equals sign. -/
def isIdFlag (word : Text) : Bool :=
  "--id=".toList.isPrefixOf (lower word) || idFlags.contains (lower word)

/-- A word that is no flag for an identity offers none. -/
theorem offeredId_eq_none {word : Text} (h : isIdFlag word = false) (words : List Text) :
    offeredId word words = none := by
  rw [isIdFlag, Bool.or_eq_false_iff] at h
  simp only [offeredId, h.1, h.2, Bool.false_eq_true, if_false]

/-- Words that give no identity are passed over. -/
theorem flaggedId_append {words : List Text} (h : ∀ word ∈ words, isIdFlag word = false)
    (others : List Text) : flaggedId (words ++ others) = flaggedId others := by
  induction words with
  | nil => rfl
  | cons word words ih =>
    obtain ⟨hword, hwords⟩ := List.forall_mem_cons.mp h
    rw [List.cons_append, flaggedId, offeredId_eq_none hword, Option.filter_none]
    exact ih hwords

/-- The first word that offers an identity decides. -/
theorem flaggedId_cons_of_offered {word id : Text} {words : List Text}
    (h : offeredId word words = some id) (hid : isDottedId id = true) :
    flaggedId (word :: words) = some id := by
  rw [flaggedId, h, Option.filter_some, if_pos hid]

section Flag

variable {flag : Text} (hflag : uncased flag = "--id".toList)

include hflag

/-- The flag has no character but its own, in either case. -/
theorem not_mem_flag {s : Char} (hs : s.isAlpha = false) (hno : s ∉ "--id".toList) : s ∉ flag := by
  intro hmem
  rw [← hflag] at hno
  exact hno (List.mem_map.mpr ⟨s, hmem, toLower_of_not_isAlpha hs⟩)

/-- The flag is a bare word. -/
theorem isBare_flag : IsBare flag := by
  constructor
  · intro c hc
    have hmem : c.toLower ∈ "--id".toList := hflag ▸ List.mem_map_of_mem hc
    have hblank : ∀ d ∈ "--id".toList, isBlank d = false := any_eq_false_iff.mp (by decide)
    rw [← isBlank_toLower c, hblank _ hmem]
  · cases flag with
    | nil => rfl
    | cons c flag =>
      rw [List.head?_cons, Option.any_some, isQuote, Bool.or_eq_false_iff, beq_eq_false_iff_ne,
        beq_eq_false_iff_ne]
      constructor
      · rintro rfl
        exact not_mem_flag hflag (by decide) (by decide) List.mem_cons_self
      · rintro rfl
        exact not_mem_flag hflag (by decide) (by decide) List.mem_cons_self

theorem flag_ne_nil : flag ≠ [] := by
  rintro rfl
  cases hflag

/-- The flag gives the word after it. -/
theorem offeredId_flag (words : List Text) : offeredId flag words = words.head? := by
  have hlower : lower flag = "--id".toList := by
    rw [← lower_uncased, hflag]
    decide
  rw [offeredId, hlower]
  rfl

/-- What stands after the sign is the value. -/
theorem drop_flag_equals (value : Text) :
    ((flag ++ '=' :: value).dropWhile fun c => c != '=').drop 1 = value := by
  rw [dropWhile_bne_append (not_mem_flag hflag (by decide) (by decide))]
  rfl

/-- With an equals sign, the flag gives what stands after it. -/
theorem offeredId_flag_equals (value : Text) (words : List Text) :
    offeredId (flag ++ '=' :: value) words = some value := by
  have hprefix : "--id=".toList.isPrefixOf (lower (flag ++ '=' :: value)) = true := by
    rw [← lower_uncased, uncased_append, hflag]
    rfl
  simp only [offeredId, hprefix, if_true, drop_flag_equals hflag]

/-- A flag with a value after the sign is one bare word. -/
theorem isBare_flag_equals {value : Text} (hvalue : ∀ c ∈ value, isBlank c = false) :
    IsBare (flag ++ '=' :: value) :=
  (isBare_flag hflag).append_cons (by decide) (List.forall_mem_cons.mpr ⟨by decide, hvalue⟩)

end Flag

/-! ## Words without a part in the search -/

/-- A word has no part in the search: it gives no identity, it is none, and it makes no value of the
word after it. -/
structure IsInert (word : Text) : Prop where
  offers : ∀ words, (offeredId word words).filter isDottedId = none
  dotted : isDottedId word = false
  valueFlag : valueFlags.contains (lower word) = false
  idFlag : idFlags.contains (lower word) = false

/-- A symbol that neither flags nor identities have makes a word inert, unless the word gives an
identity after an equals sign. -/
theorem isInert_of_mem {word : Text} {s : Char} (hword : s ∈ word) (hs : s ∈ [';', '='])
    (hvalue : "--id=".toList.isPrefixOf (lower word) = true →
      isDottedId ((word.dropWhile fun c => c != '=').drop 1) = false) : IsInert word := by
  have hsymbol : s.toNat < 128 ∧ s.isAlpha = false ∧ isIdChar s = false ∧ s ≠ '.' ∧
      ∀ flag ∈ valueFlags ++ idFlags, s ∉ flag := by
    simp only [List.mem_cons, List.not_mem_nil, or_false] at hs
    rcases hs with rfl | rfl <;> decide
  obtain ⟨hascii, hletter, hid, hdot, hflags⟩ := hsymbol
  have hlower : s ∈ lower word := (mem_lower_iff hascii hletter word).mpr hword
  -- no flag of the tables has the character, and lowering does not remove it
  have hnot : ∀ flags : List Text, (∀ flag ∈ flags, flag ∈ valueFlags ++ idFlags) →
      flags.contains (lower word) = false := by
    intro flags hall
    rw [Bool.eq_false_iff, ne_eq, List.contains_iff_mem]
    exact fun hmem => hflags _ (hall _ hmem) hlower
  have hidFlag := hnot idFlags fun flag hmem => List.mem_append_right _ hmem
  refine ⟨fun words => ?_, isDottedId_eq_false_of_mem hword hid hdot,
    hnot valueFlags fun flag hmem => List.mem_append_left _ hmem, hidFlag⟩
  simp only [offeredId, hidFlag, Bool.false_eq_true, if_false]
  split
  · next hprefix => rw [Option.filter_some, hvalue hprefix, if_neg Bool.false_ne_true]
  · rfl

/-- It offers nothing by its place if its value is no identity. -/
theorem isInert_flag_equals {flag value : Text} (hflag : uncased flag = "--id".toList)
    (hvalue : isDottedId value = false) : IsInert (flag ++ '=' :: value) :=
  isInert_of_mem (by simp) (by decide : '=' ∈ [';', '=']) fun _ => by
    rw [drop_flag_equals hflag, hvalue]

/-- The words on either side of an inert word are searched one after the other. -/
theorem flaggedId_append_inert {word : Text} (hword : IsInert word) (words others : List Text) :
    flaggedId (words ++ word :: others) = (flaggedId words).or (flaggedId others) := by
  induction words with
  | nil =>
    show flaggedId (word :: others) = flaggedId others
    rw [flaggedId, hword.offers]
  | cons first words ih =>
    have hoffer : (offeredId first (words ++ word :: others)).filter isDottedId =
        (offeredId first words).filter isDottedId := by
      simp only [offeredId]
      split
      · rfl
      · split
        · -- the first word may give the inert one, which is no identity
          cases words with
          | nil =>
            rw [List.nil_append, List.head?_cons, Option.filter_some, hword.dotted]
            rfl
          | cons second words => rfl
        · rfl
    rw [List.cons_append, flaggedId, flaggedId, hoffer, ih]
    cases (offeredId first words).filter isDottedId <;> rfl

/-- A word that offers nothing parts the words before it from those after it. -/
theorem positionalId_append_inert {word : Text} (hword : IsInert word) (previous : Text)
    (words others : List Text) :
    positionalId previous (words ++ word :: others) =
      (positionalId previous words).or (positionalId [] others) := by
  induction words generalizing previous with
  | nil =>
    -- neither the inert word nor no word makes a value of the next one
    have hnext : positionalId word others = positionalId [] others := by
      cases others with
      | nil => rfl
      | cons next others =>
        rw [positionalId, positionalId, hword.valueFlag, hword.idFlag]
        rfl
    show positionalId previous (word :: others) = positionalId [] others
    rw [positionalId, hword.dotted, Bool.and_false, Bool.false_and, if_neg Bool.false_ne_true,
      hnext]
  | cons first words ih =>
    rw [List.cons_append, positionalId, positionalId, ih]
    split <;> rfl

/-- The identity that is found among words on two sides of an inert one: a flag gives it, or it
stands alone, and the words in front come first. -/
def idAround (front back : List Text) : Option Text :=
  ((flaggedId front).or (flaggedId back)).or ((positionalId [] front).or (positionalId [] back))

/-- An inert word does not change what is found in the words around it. -/
theorem idOf_of_arguments {t word : Text} {front back : List Text} (hinert : IsInert word)
    (h : arguments t = front ++ word :: back) : idOf t = idAround front back := by
  rw [idOf, h, Option.orElse_eq_or, flaggedId_append_inert hinert,
    positionalId_append_inert hinert, idAround]

/-- So the identity is looked for on both sides of such a word. -/
theorem idOf_append_inert {front word back : Text} {words : List Text}
    (hfront : SplitsInto front words) (hne : word ≠ []) (hbare : IsBare word)
    (hinert : IsInert word) (hback : back.head?.all isBlank = true) :
    idOf (front ++ word ++ back) = idAround words (arguments back) := by
  refine idOf_of_arguments hinert ?_
  rw [List.append_assoc, hfront.arguments_append, arguments_bare hne hbare hback]

/-- A word with a semicolon in it is inert: a flag would end before the equals sign, and there is no
semicolon in it; an identity has none either. -/
theorem isInert_append_semicolon (word more : Text) : IsInert (word ++ ';' :: more) := by
  refine isInert_of_mem (s := ';') (by simp) (by decide) fun hprefix => ?_
  by_cases hequals : '=' ∈ word ++ ';' :: more
  · obtain ⟨flag, value, hsplit, hflag⟩ := List.eq_append_cons_of_mem hequals
    have hsemicolon : ';' ∈ flag ++ '=' :: value := by
      rw [← hsplit]
      simp
    rw [hsplit] at hprefix ⊢
    rw [dropWhile_bne_append hflag, List.drop_one, List.tail_cons]
    -- the part before the equals sign is the flag itself, so the semicolon is in the value
    have hnot : ';' ∉ flag := by
      obtain ⟨rest, hrest⟩ := List.isPrefixOf_iff_prefix.mp hprefix
      rw [← mem_takeWhile_lower_iff (s := '=') (by decide) (by decide) hflag value (by decide)
        (by decide), ← hrest]
      exact (by decide : ';' ∉ "--id".toList)
    have hvalue := (List.mem_append.mp hsemicolon).resolve_left hnot
    exact isDottedId_eq_false_of_mem ((List.mem_cons.mp hvalue).resolve_left (by decide))
      (by decide) (by decide)
  · have hnone : (word ++ ';' :: more).dropWhile (fun c => c != '=') = [] :=
      List.dropWhile_eq_nil_iff.mpr fun c hc => bne_iff_ne.mpr fun e => hequals (e ▸ hc)
    rw [hnone]
    rfl

/-! ## Identities that a flag gives -/

/-- An identity is a bare word. -/
theorem DottedId.isBare {id : Text} (h : DottedId id) : IsBare id := by
  refine ⟨h.not_blank, ?_⟩
  rw [Bool.eq_false_iff, ne_eq, Option.any_eq_true]
  rintro ⟨q, hhead, hq⟩
  exact h.not_mem_of_isQuote hq (List.mem_of_mem_head? hhead)

/-- An identity is a word of its own, and the quotes around it are no part of the word. -/
theorem DottedId.arguments_spelled {id quotes back : Text} (hid : DottedId id)
    (hquotes : quotes ∈ [[], ['\''], ['"']]) (hback : back.head?.all isBlank = true) :
    arguments (quotes ++ id ++ quotes ++ back) = id :: arguments back := by
  simp only [List.mem_cons, List.not_mem_nil, or_false] at hquotes
  rcases hquotes with rfl | rfl | rfl
  · rw [List.nil_append, List.append_nil]
    exact arguments_bare hid.ne_nil hid.isBare hback
  · rw [List.singleton_append, List.append_assoc]
    exact arguments_quoted (by decide) (hid.not_mem_of_isQuote (by decide)) back
  · rw [List.singleton_append, List.append_assoc]
    exact arguments_quoted (by decide) (hid.not_mem_of_isQuote (by decide)) back

/-- An identity in quotes has no blanks. -/
theorem DottedId.not_blank_in_quotes {id : Text} {q : Char} (hid : DottedId id)
    (hq : isQuote q = true) : ∀ c ∈ q :: id ++ [q], isBlank c = false := by
  have hblank := isBlank_eq_false_of_isQuote hq
  simp only [List.cons_append, List.forall_mem_cons, List.forall_mem_append]
  exact ⟨hblank, hid.not_blank, hblank, List.forall_mem_nil _⟩

/-- With its quotes it is no identity. -/
theorem isDottedId_in_quotes {t : Text} {q : Char} (hq : isQuote q = true) :
    isDottedId (q :: t ++ [q]) = false := by
  rw [Bool.eq_false_iff]
  exact fun h => (isDottedId_iff.mp h).not_mem_of_isQuote hq List.mem_cons_self

/-- An identity after the flag wins over all other words, in quotes or not, and so does one without
quotes after the flag and an equals sign. One in quotes is not seen there: what is found is what is
found without it. -/
theorem idOf_explicit {front flag id back : Text} (hid : DottedId id)
    (hflag : uncased flag = "--id".toList) (hquotes : ∀ c ∈ front, isQuote c = false)
    (hwords : ∀ word ∈ arguments front, isIdFlag word = false)
    (hfront : front.getLast?.all isBlank = true) (hback : back.head?.all isBlank = true) :
    (∀ quotes ∈ [[], ['\''], ['"']],
      idOf (front ++ (flag ++ ' ' :: (quotes ++ id ++ quotes)) ++ back) = some id) ∧
    idOf (front ++ (flag ++ '=' :: id) ++ back) = some id ∧
    ∀ q, isQuote q = true →
      idOf (front ++ (flag ++ '=' :: (q :: id ++ [q])) ++ back) =
        idOf (front ++ (flag ++ ['=']) ++ back) := by
  have hdotted := isDottedId_iff.mpr hid
  have hsplit := splitsInto_arguments hquotes hfront
  have hflagged : ∀ {rest : Text}, flaggedId (arguments rest) = some id →
      idOf (front ++ rest) = some id := by
    intro rest h
    rw [idOf, hsplit.arguments_append, flaggedId_append hwords, h]
    rfl
  refine ⟨fun quotes hmem => ?_, ?_, fun q hq => ?_⟩
  · have hrest : arguments (flag ++ ' ' :: (quotes ++ id ++ quotes ++ back)) =
        flag :: id :: arguments back := by
      rw [arguments_bare_cons (flag_ne_nil hflag) (isBare_flag hflag) (by decide),
        hid.arguments_spelled hmem hback]
    rw [List.append_assoc, List.append_assoc flag, List.cons_append]
    refine hflagged ?_
    rw [hrest]
    exact flaggedId_cons_of_offered (offeredId_flag hflag _) hdotted
  · rw [List.append_assoc]
    refine hflagged ?_
    rw [arguments_bare (by simp) (isBare_flag_equals hflag hid.not_blank) hback]
    exact flaggedId_cons_of_offered (offeredId_flag_equals hflag id _) hdotted
  · -- with the quotes or with nothing, the word of the flag is inert between the same words
    rw [idOf_append_inert hsplit (by simp)
        (isBare_flag_equals hflag (hid.not_blank_in_quotes hq))
        (isInert_flag_equals hflag (isDottedId_in_quotes hq)) hback,
      idOf_append_inert hsplit (by simp) (isBare_flag_equals hflag (List.forall_mem_nil _))
        (isInert_flag_equals hflag rfl) hback]

/-- The flag in capitals between words of several kinds, with the value in each spelling. -/
theorem idOf_explicit_git :
    (∀ quotes ∈ [[], ['\''], ['"']],
      idOf (" A.B -v 1.2 ".toList ++
          ("--ID".toList ++ ' ' :: (quotes ++ "Git.Git".toList ++ quotes)) ++
          " C.D --id E.F".toList) = some "Git.Git".toList) ∧
    idOf (" A.B -v 1.2 ".toList ++ ("--ID".toList ++ '=' :: "Git.Git".toList)
        ++ " C.D --id E.F".toList) = some "Git.Git".toList ∧
    ∀ q, isQuote q = true →
      idOf (" A.B -v 1.2 ".toList ++ ("--ID".toList ++ '=' :: (q :: "Git.Git".toList ++ [q]))
          ++ " C.D --id E.F".toList) =
        idOf (" A.B -v 1.2 ".toList ++ ("--ID".toList ++ ['=']) ++ " C.D --id E.F".toList) :=
  idOf_explicit (isDottedId_iff.mp (by decide)) (by decide) (any_eq_false_iff.mp (by decide))
    (by decide) (by decide) (by decide)

/-- An identity in quotes after the equals sign is lost, or another word wins over it. -/
theorem idOf_quoted_after_equals :
    idOf " --id='Git.Git'".toList = none ∧ idOf " --id=\"Git.Git\" -e".toList = none ∧
    idOf " --id='Git.Git' A.B".toList = some "A.B".toList := by
  refine ⟨?_, ?_, ?_⟩ <;> decide

end SetupCatalog.Rule.Winget
