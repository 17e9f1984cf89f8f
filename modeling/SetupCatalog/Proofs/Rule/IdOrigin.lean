import SetupCatalog.Proofs.Rule.IdSearch

/-!
# Where an identity comes from

The identity of an installation should be given by a flag for identities, or stand alone. In either
case it should not be what some other flag takes as its value. `HasOrigin` says so in terms of the
words of the installation.

The search for a word that stands alone keeps to that. The search for a flag does not look at the
word before the flag, though: where a flag such as `--override` takes `--id=` with an identity as
its value, the identity counts, and it wins over all others (`GivenAsValue`). `idOf_origin` says
that this is the only exception, and that it is always made.
-/

namespace SetupCatalog.Rule.Winget

open Text Pattern Script

/-! ## Flags that give an identity -/

/-- A word gives an identity, well-formed or not: as a flag with a value behind its equals sign, or
as a flag in front of the next word. -/
def GivesId (word : Text) (words : List Text) (id : Text) : Prop :=
  ("--id=".toList <+: lower word ∧ ∃ flag, '=' ∉ flag ∧ word = flag ++ '=' :: id) ∨
    (lower word ∈ idFlags ∧ words.head? = some id)

/-- What a word offers as an identifier, as a relation between the word, the words after it and the
value. -/
theorem offeredId_eq_some_iff {word : Text} {words : List Text} {id : Text} :
    offeredId word words = some id ↔ GivesId word words id := by
  have hnoEquals : ∀ flag ∈ idFlags, ¬ "--id=".toList <+: flag := by decide
  simp only [offeredId, List.isPrefixOf_iff_prefix, List.contains_iff_mem]
  by_cases hwithValue : "--id=".toList <+: lower word
  · -- lowering keeps the equals sign, so the word has one and is split at the first
    have hequals : '=' ∈ word :=
      (mem_lower_iff (by decide) (by decide) word).mp (hwithValue.subset (by decide))
    obtain ⟨flag, value, rfl, hflag⟩ := List.eq_append_cons_of_mem hequals
    rw [if_pos hwithValue, dropWhile_bne_append hflag, List.drop_one, List.tail_cons,
      Option.some_inj]
    constructor
    · rintro rfl
      exact Or.inl ⟨hwithValue, flag, hflag, rfl⟩
    · rintro (⟨-, flag', hflag', hsame⟩ | ⟨hmem, -⟩)
      · exact (append_separator_inj hflag hflag' hsame).2
      · exact absurd hwithValue (hnoEquals _ hmem)
  · rw [if_neg hwithValue]
    constructor
    · intro h
      split at h
      · next hmem => exact Or.inr ⟨hmem, h⟩
      · cases h
    · rintro (⟨h, -⟩ | ⟨hmem, hhead⟩)
      · exact absurd h hwithValue
      · rw [if_pos hmem, hhead]

/-- None of the words in front of others gives a well-formed identity. -/
def NoneGiven : List Text → List Text → Prop
  | [], _ => True
  | word :: front, back =>
    (∀ id, GivesId word (front ++ back) id → ¬ DottedId id) ∧ NoneGiven front back

/-- A word is passed over exactly when no value that it gives has a dot in the right place. -/
theorem filter_offeredId_eq_none_iff {word : Text} {words : List Text} :
    (offeredId word words).filter isDottedId = none ↔
      ∀ id, GivesId word words id → ¬ DottedId id := by
  simp only [Option.filter_eq_none_iff, offeredId_eq_some_iff, isDottedId_iff]

/-- The first flag that gives a well-formed identity decides. -/
theorem flaggedId_eq_some_iff {words : List Text} {id : Text} :
    flaggedId words = some id ↔ ∃ front flag back, words = front ++ flag :: back ∧
      NoneGiven front (flag :: back) ∧ GivesId flag back id ∧ DottedId id := by
  induction words with
  | nil => simp [flaggedId]
  | cons word words ih =>
    rw [flaggedId]
    split
    · next found hfound =>
      obtain ⟨hoffered, hdotted⟩ := Option.filter_eq_some_iff.mp hfound
      rw [Option.some_inj]
      constructor
      · rintro rfl
        exact ⟨[], word, words, rfl, trivial, offeredId_eq_some_iff.mp hoffered,
          isDottedId_iff.mp hdotted⟩
      · rintro ⟨front, flag, back, hwords, hnone, hgives, -⟩
        -- either this word is the flag, or it is one of those in front of it
        cases front with
        | nil =>
          obtain ⟨rfl, rfl⟩ := List.cons.inj hwords
          rw [offeredId_eq_some_iff.mpr hgives] at hoffered
          exact (Option.some.inj hoffered).symm
        | cons first front =>
          obtain ⟨rfl, rfl⟩ := List.cons.inj hwords
          exact absurd (isDottedId_iff.mp hdotted)
            (hnone.1 found (offeredId_eq_some_iff.mp hoffered))
    · next hfound =>
      have hnothing := filter_offeredId_eq_none_iff.mp hfound
      rw [ih]
      constructor
      · rintro ⟨front, flag, back, rfl, hnone, hrest⟩
        exact ⟨word :: front, flag, back, rfl, ⟨hnothing, hnone⟩, hrest⟩
      · rintro ⟨front, flag, back, hwords, hnone, hgives, hdotted⟩
        cases front with
        | nil =>
          obtain ⟨rfl, rfl⟩ := List.cons.inj hwords
          exact absurd hdotted (hnothing id hgives)
        | cons first front =>
          obtain ⟨rfl, rfl⟩ := List.cons.inj hwords
          exact ⟨front, flag, back, rfl, hnone.2, hgives, hdotted⟩

/-! ## Words that stand alone -/

/-- Whether the last of the words takes the next word as a value. -/
def valueDue (words : List Text) : Bool :=
  words.getLast?.any fun word => valueFlags.contains (lower word)

/-- Whether the last of the words takes the next word as an identity. -/
def idDue (words : List Text) : Bool :=
  words.getLast?.any fun word => idFlags.contains (lower word)

/-- A test that the empty word fails is not met by a missing last word. -/
theorem any_getLast?_eq {p : Text → Bool} (hp : p [] = false) (words : List Text) :
    words.getLast?.any p = p (words.getLast?.getD []) := by
  cases words.getLast? with
  | none => exact hp.symm
  | some last => rfl

/-- A word that is found standing alone is no value of the word before it, and no version. -/
theorem of_positionalId (words : List Text) {others : List Text} {id : Text}
    (h : positionalId (words.getLast?.getD []) others = some id) :
    ∃ front back, others = front ++ id :: back ∧ valueDue (words ++ front) = false ∧
      idDue (words ++ front) = false ∧ DottedId id ∧ isVersionLike id = false := by
  -- the word before is all that is carried along, and it is the last of those passed
  induction others generalizing words with
  | nil => cases h
  | cons word others ih =>
    rw [positionalId] at h
    split at h
    · next halone =>
      obtain rfl := Option.some.inj h
      simp only [Bool.and_eq_true, Bool.not_eq_true'] at halone
      obtain ⟨⟨⟨⟨-, hvalue⟩, hid⟩, hdotted⟩, hversion⟩ := halone
      refine ⟨[], others, rfl, ?_, ?_, isDottedId_iff.mp hdotted, hversion⟩
      · rw [List.append_nil, valueDue, any_getLast?_eq (by decide)]
        exact hvalue
      · rw [List.append_nil, idDue, any_getLast?_eq (by decide)]
        exact hid
    · have hlast : (words ++ [word]).getLast?.getD [] = word := by
        rw [List.getLast?_concat, Option.getD_some]
      obtain ⟨front, back, rfl, hfront⟩ := ih (words ++ [word]) (by rwa [hlast])
      refine ⟨word :: front, back, rfl, ?_⟩
      rwa [List.append_assoc, List.singleton_append] at hfront

/-! ## The origin of an identity -/

/-- An identity is given by a flag that is no value of another flag, or it is a word that neither
another flag nor a flag for identities stands in front of, and no version. -/
def HasOrigin (words : List Text) (id : Text) : Prop :=
  (∃ front flag back, words = front ++ flag :: back ∧ valueDue front = false ∧
    GivesId flag back id) ∨
  ∃ front back, words = front ++ id :: back ∧ valueDue front = false ∧ idDue front = false ∧
    isVersionLike id = false

/-- The first flag that gives a well-formed identity is the value of another flag. -/
def GivenAsValue (words : List Text) (id : Text) : Prop :=
  ∃ front flag back, words = front ++ flag :: back ∧ NoneGiven front (flag :: back) ∧
    valueDue front = true ∧ GivesId flag back id ∧ DottedId id

/-- A dotted identifier is no flag: it starts with a letter or a digit. -/
theorem DottedId.isFlag_eq_false {id : Text} (h : DottedId id) : isFlag id = false := by
  obtain ⟨c, first, others, rfl, hc, -⟩ := h
  exact isFlag_eq_false_of_head? hc

/-- An identity that is found is well-formed and no flag, and it has the origin that it should have,
unless the first flag that gives one is the value of another flag. Then this flag gives the identity
that is found. -/
theorem idOf_origin (text id : Text) :
    (idOf text = some id →
      DottedId id ∧ isFlag id = false ∧
        (HasOrigin (arguments text) id ∨ GivenAsValue (arguments text) id)) ∧
    (GivenAsValue (arguments text) id → idOf text = some id) := by
  constructor
  · intro h
    rw [idOf, Option.orElse_eq_or, Option.or_eq_some_iff] at h
    rcases h with hflagged | ⟨-, halone⟩
    · obtain ⟨front, flag, back, hwords, hnone, hgives, hdotted⟩ :=
        flaggedId_eq_some_iff.mp hflagged
      refine ⟨hdotted, hdotted.isFlag_eq_false, ?_⟩
      -- the flag that gives the identity may itself be due as a value
      cases hdue : valueDue front with
      | false => exact Or.inl (Or.inl ⟨front, flag, back, hwords, hdue, hgives⟩)
      | true => exact Or.inr ⟨front, flag, back, hwords, hnone, hdue, hgives, hdotted⟩
    · obtain ⟨front, back, hwords, hvalue, hid, hdotted, hversion⟩ :=
        of_positionalId [] halone
      exact ⟨hdotted, hdotted.isFlag_eq_false,
        Or.inl (Or.inr ⟨front, back, hwords, hvalue, hid, hversion⟩)⟩
  · rintro ⟨front, flag, back, hwords, hnone, -, hgives, hdotted⟩
    have hflagged := flaggedId_eq_some_iff.mpr ⟨front, flag, back, hwords, hnone, hgives, hdotted⟩
    rw [idOf, hflagged, Option.orElse_some]

/-- An identity behind a version, and one that is given in the value of another flag. -/
theorem idOf_origin_version :
    let alone := " --version 1.2.3 Vendor.App".toList
    let overridden := " --override --id=X.Y Git.Git".toList
    (DottedId "Vendor.App".toList ∧ isFlag "Vendor.App".toList = false ∧
      (HasOrigin (arguments alone) "Vendor.App".toList ∨
        GivenAsValue (arguments alone) "Vendor.App".toList)) ∧
    GivenAsValue (arguments overridden) "X.Y".toList ∧ idOf overridden = some "X.Y".toList := by
  intro alone overridden
  have hwords : arguments overridden =
      ["--override".toList] ++ "--id=X.Y".toList :: ["Git.Git".toList] := by decide
  have hgives : GivesId "--id=X.Y".toList ["Git.Git".toList] "X.Y".toList :=
    offeredId_eq_some_iff.mp (by decide)
  have hnone : NoneGiven ["--override".toList] ("--id=X.Y".toList :: ["Git.Git".toList]) :=
    ⟨filter_offeredId_eq_none_iff.mp (by decide), trivial⟩
  have hgiven : GivenAsValue (arguments overridden) "X.Y".toList :=
    ⟨_, _, _, hwords, hnone, by decide, hgives, isDottedId_iff.mp (by decide)⟩
  exact ⟨(idOf_origin alone _).1 (by decide), hgiven, (idOf_origin overridden _).2 hgiven⟩

/-- The value of another flag is found although it has not the origin of an identity. -/
theorem idOf_of_value :
    idOf " --override --id=X.Y".toList = some "X.Y".toList ∧
      ¬ HasOrigin (arguments " --override --id=X.Y".toList) "X.Y".toList := by
  have hwords : arguments " --override --id=X.Y".toList =
      ["--override".toList, "--id=X.Y".toList] := by decide
  refine ⟨by decide, ?_⟩
  rw [hwords]
  rintro (⟨front, flag, back, hsplit, hvalue, hgives⟩ | ⟨front, back, hsplit, -⟩)
  · rcases front with _ | ⟨first, _ | ⟨second, front⟩⟩
    · obtain ⟨rfl, rfl⟩ := List.cons.inj hsplit
      have hoffered := offeredId_eq_some_iff.mpr hgives
      exact absurd hoffered (by decide)
    · obtain ⟨rfl, -⟩ := List.cons.inj hsplit
      exact absurd hvalue (by decide)
    · simp at hsplit
  · have hmem : "X.Y".toList ∈ ["--override".toList, "--id=X.Y".toList] := by
      rw [hsplit]
      exact List.mem_append_right _ List.mem_cons_self
    exact absurd hmem (by decide)

end SetupCatalog.Rule.Winget
