import SetupCatalog.Proofs.Script.Words
import SetupCatalog.Proofs.Text.Lowering
import SetupCatalog.Rule.Choco

/-!
# Flags in front of a package

A call of Chocolatey may have flags in front of the package that it names. An `Item` says how
somebody writes one of them: a flag alone, a flag with its value as the next word, or a flag with
its value behind an equals sign. A value is a bare word, or anything in quotes.

The words of an item make no difference to the search for the package, as long as they are the words
that were meant (`Item.IsWhole`). The one kind of item that falls apart is a value behind an equals
sign that has a blank in its quotes: the flag takes it up to this blank, and the rest of the value
is read like words of its own (`packageOf_assigned`). `packageOf_written` says both.
-/

namespace SetupCatalog.Rule.Choco

open Text Pattern Script

/-! ## Flags with a value -/

/-- A flag that takes a value is one of the table, in any letter case. -/
theorem mem_valueFlags_of_takesValue {flag : Text} (h : takesValue flag = true) :
    lower flag ∈ valueFlags :=
  List.contains_iff_mem.mp h

/-- Each flag of the table starts with a hyphen. -/
theorem isFlag_of_takesValue {flag : Text} (h : takesValue flag = true) : isFlag flag = true := by
  have hhyphen : ∀ low ∈ valueFlags, low.head? = some '-' := by decide
  have hhead := hhyphen _ (mem_valueFlags_of_takesValue h)
  rw [isFlag, (head?_lower_eq_iff (by decide) (by decide) flag).mp hhead, beq_self_eq_true]

/-- No flag of the table has a blank in it, so each is one word. -/
theorem isBlank_eq_false_of_takesValue {flag : Text} (h : takesValue flag = true) :
    ∀ c ∈ flag, isBlank c = false := by
  intro c hc
  have hsolid : ∀ low ∈ valueFlags, low.any isBlank = false := by decide
  rw [Bool.eq_false_iff]
  intro hblank
  have hnone := any_eq_false_iff.mp (hsolid _ (mem_valueFlags_of_takesValue h)) c
    (mem_lowerFrom_of_isBlank hblank hc)
  rw [hblank] at hnone
  cases hnone

/-- A flag with an equals sign takes no further value. -/
theorem takesValue_assigned (flag value : Text) : takesValue (flag ++ '=' :: value) = false := by
  have hnone : ∀ low ∈ valueFlags, '=' ∉ low := by decide
  rw [Bool.eq_false_iff]
  intro htakes
  exact hnone _ (mem_valueFlags_of_takesValue htakes)
    ((mem_lower_iff (by decide) (by decide) _).mpr (by simp))

/-- A flag that takes no value is passed over. -/
theorem packageIn_flag {word : Text} (hflag : isFlag word = true) (hvalue : takesValue word = false)
    (words : List Text) : packageIn false (word :: words) = packageIn false words := by
  rw [packageIn, if_neg Bool.false_ne_true, if_pos hflag, hvalue]

/-- A flag that takes a value is passed over with the next word. -/
theorem packageIn_value {flag : Text} (h : takesValue flag = true) (value : Text)
    (words : List Text) : packageIn false (flag :: value :: words) = packageIn false words := by
  rw [packageIn, if_neg Bool.false_ne_true, if_pos (isFlag_of_takesValue h), h, packageIn,
    if_pos rfl]

/-! ## How flags are written -/

/-- What somebody writes before the name of a package. -/
inductive Item where
  /-- A flag that takes no value. -/
  | alone (word : Text) (hflag : isFlag word = true) (hsolid : word.any isBlank = false)
      (hvalue : takesValue word = false)
  /-- A flag and its value, which is the next word. -/
  | valued (flag : Text) (hflag : takesValue flag = true) (gap : Gap) (value : Spelling)
  /-- A flag and its value, with an equals sign between them. -/
  | assigned (flag : Text) (hflag : isFlag flag = true) (hsolid : flag.any isBlank = false)
      (value : Spelling)

namespace Item

/-- An item as it is written. -/
def text : Item → Text
  | alone word _ _ _ => word
  | valued flag _ gap value => flag ++ gap.val ++ value.text
  | assigned flag _ _ value => flag ++ '=' :: value.text

/-- The words that are meant with an item. -/
def words : Item → List Text
  | alone word _ _ _ => [word]
  | valued flag _ _ value => [flag, value.word]
  | assigned flag _ _ value => [flag ++ '=' :: value.text]

/-- No blank stands in a value behind an equals sign. -/
def IsWhole : Item → Prop
  | assigned _ _ _ value => value.text.any isBlank = false
  | _ => True

/-- What stands behind the first blank of a value behind an equals sign. -/
def cutOff : Item → Text
  | assigned _ _ _ value => (value.text.dropWhile fun c => !isBlank c).drop 1
  | _ => []

instance : (item : Item) → Decidable item.IsWhole
  | alone .. | valued .. => isTrue trivial
  | assigned _ _ _ value => inferInstanceAs (Decidable (value.text.any isBlank = false))

/-- A flag with a part of its value behind the equals sign. -/
theorem isBare_assigned {flag value : Text} (hflag : isFlag flag = true)
    (hsolid : flag.any isBlank = false) (hvalue : ∀ c ∈ value, isBlank c = false) :
    IsBare (flag ++ '=' :: value) :=
  (isBare_of_isFlag hflag (any_eq_false_iff.mp hsolid)).append_cons (by decide)
    (List.forall_mem_cons.mpr ⟨by decide, hvalue⟩)

/-- A whole item is split from its gap on into exactly its own words. -/
theorem splitsInto {item : Item} (h : item.IsWhole) (gap : Gap) :
    SplitsInto (item.text ++ gap.val) item.words := by
  cases item with
  | alone word hflag hsolid _ =>
    exact splitsInto_bare (ne_nil_of_isFlag hflag)
      (isBare_of_isFlag hflag (any_eq_false_iff.mp hsolid)) gap
  | valued flag hflag between value =>
    have hbare := isBare_of_isFlag (isFlag_of_takesValue hflag)
      (isBlank_eq_false_of_takesValue hflag)
    have hword := splitsInto_bare (ne_nil_of_isFlag (isFlag_of_takesValue hflag)) hbare between
    rw [text, List.append_assoc]
    exact hword.append (value.splitsInto gap)
  | assigned flag hflag hsolid value =>
    exact splitsInto_bare (by simp) (isBare_assigned hflag hsolid (any_eq_false_iff.mp h)) gap

/-- The search for a package passes over the words of an item. -/
theorem packageIn_words (item : Item) (others : List Text) :
    packageIn false (item.words ++ others) = packageIn false others := by
  cases item with
  | alone word hflag _ hvalue => exact packageIn_flag hflag hvalue others
  | valued flag hflag _ value => exact packageIn_value hflag value.word others
  | assigned flag hflag _ value =>
    exact packageIn_flag (isFlag_append hflag _) (takesValue_assigned _ _) others

end Item

/-- Items in a row, with blanks behind each of them. -/
def itemsText (items : List (Item × Gap)) : Text :=
  items.flatMap fun (item, gap) => item.text ++ gap.val

/-! ## Reading them -/

/-- Items whose values are whole are passed over. -/
theorem packageOf_items {items : List (Item × Gap)} (h : ∀ item ∈ items, item.1.IsWhole)
    (rest : Text) : packageOf (itemsText items ++ rest) = packageOf rest := by
  induction items with
  | nil => rfl
  | cons first items ih =>
    obtain ⟨item, gap⟩ := first
    obtain ⟨hitem, hitems⟩ := List.forall_mem_cons.mp h
    rw [itemsText, List.flatMap_cons, List.append_assoc, packageOf,
      (Item.splitsInto hitem gap).arguments_append, item.packageIn_words, ← ih hitems]
    rfl

/-- A value behind an equals sign is taken up to its first blank, and the search goes on there. -/
theorem packageOf_assigned {item : Item} (h : ¬ item.IsWhole) (rest : Text) :
    packageOf (item.text ++ rest) = packageOf (item.cutOff ++ rest) := by
  cases item with
  | alone => exact absurd trivial h
  | valued => exact absurd trivial h
  | assigned flag hflag hsolid value =>
    have hsplit := List.takeWhile_append_dropWhile (p := fun c => !isBlank c) (l := value.text)
    have hhead := List.head?_dropWhile_not (fun c => !isBlank c) value.text
    rw [Item.text, Item.cutOff]
    -- the value has a blank in it, and there the word ends: what is behind is read as further words
    cases hcut : value.text.dropWhile fun c => !isBlank c with
    | nil =>
      have hall := List.dropWhile_eq_nil_iff.mp hcut
      exact absurd (any_eq_false_iff.mpr fun c hc => by simpa using hall c hc) h
    | cons b cut =>
      rw [hcut] at hsplit hhead
      have hb : isBlank b = true := by simpa using hhead
      have hseen : ∀ c ∈ value.text.takeWhile fun c => !isBlank c, isBlank c = false := by
        intro c hc
        simpa using List.mem_takeWhile_imp hc
      have htext : flag ++ '=' :: value.text ++ rest =
          (flag ++ '=' :: value.text.takeWhile fun c => !isBlank c) ++ b :: (cut ++ rest) := by
        conv_lhs => rw [← hsplit]
        simp
      rw [htext, packageOf, arguments_bare_cons (by simp) (Item.isBare_assigned hflag hsolid hseen)
        hb, packageIn_flag (isFlag_append hflag _) (takesValue_assigned _ _)]
      rfl

/-! ## The package -/

/-- A word is written like the name of a package. -/
def IsName (word : Text) : Prop :=
  word.head?.any isAsciiAlnum = true ∧ word.all isNameChar = true

instance (word : Text) : Decidable (IsName word) :=
  inferInstanceAs (Decidable (_ ∧ _))

/-- A name is read whole where it is all of its word. -/
theorem nameAtStart_of_isName {name : Text} (h : IsName name) : nameAtStart name = some name := by
  obtain ⟨hhead, hchars⟩ := h
  cases name with
  | nil => cases hhead
  | cons c name =>
    have hc : isAsciiAlnum c = true := hhead
    have hothers : ∀ d ∈ name, isNameChar d = true := fun d hd =>
      List.all_eq_true.mp hchars d (List.mem_cons_of_mem c hd)
    rw [nameAtStart, if_pos hc, List.takeWhile_eq_self_iff.mpr hothers]

/-- A name is found where a blank or nothing comes next. -/
theorem packageOf_name {name : Spelling} (hname : IsName name.word) {rest : Text}
    (hrest : rest.head?.all isBlank = true) : packageOf (name.text ++ rest) = some name.word := by
  rw [packageOf, name.arguments_append hrest, packageIn, if_neg Bool.false_ne_true,
    isFlag_eq_false_of_head? hname.1, if_neg Bool.false_ne_true, nameAtStart_of_isName hname]

/-- Blanks in front of the arguments do not matter. -/
theorem packageOf_blanks {blanks : Text} (h : ∀ c ∈ blanks, isBlank c = true) (rest : Text) :
    packageOf (blanks ++ rest) = packageOf rest := by
  rw [packageOf, (splitsInto_blanks h).arguments_append]
  rfl

/-- **The package behind flags and their values is found**, if no value behind an equals sign has a
blank in it. Behind the first item that has one, the search goes on in the middle of the value. -/
theorem packageOf_written {blanks : Text} (hblanks : ∀ c ∈ blanks, isBlank c = true)
    (items : List (Item × Gap)) {name : Spelling} (hname : IsName name.word) {rest : Text}
    (hrest : rest.head?.all isBlank = true) :
    ((∀ item ∈ items, item.1.IsWhole) →
      packageOf (blanks ++ (itemsText items ++ (name.text ++ rest))) = some name.word) ∧
    ∀ front item gap back, items = front ++ (item, gap) :: back →
      (∀ item ∈ front, item.1.IsWhole) → ¬ item.IsWhole →
      packageOf (blanks ++ (itemsText items ++ (name.text ++ rest))) =
        packageOf (item.cutOff ++ (gap.val ++ (itemsText back ++ (name.text ++ rest)))) := by
  rw [packageOf_blanks hblanks]
  constructor
  · intro hwhole
    rw [packageOf_items hwhole, packageOf_name hname hrest]
  · rintro front item gap back rfl hfront hitem
    have htext : itemsText (front ++ (item, gap) :: back) ++ (name.text ++ rest) =
        itemsText front ++ (item.text ++ (gap.val ++ (itemsText back ++ (name.text ++ rest)))) := by
      simp [itemsText]
    rw [htext, packageOf_items hfront, packageOf_assigned hitem]

/-- Items of every kind, and then one more, with a blank in its value. -/
theorem packageOf_written_git :
    let space : Gap := ⟨[' '], by decide⟩
    let items : List (Item × Gap) :=
      [(.alone "-y".toList (by decide) (by decide) (by decide), space),
        (.valued "--Params".toList (by decide) space
          (.quoted '"' "'/D:a b' -s vlc".toList (by decide) (by decide)), space),
        (.assigned "--version".toList (by decide) (by decide)
          (.bare "1.2.3".toList (by decide) (by decide)), space),
        (.assigned "-s".toList (by decide) (by decide)
          (.quoted '\'' "internal".toList (by decide) (by decide)), space)]
    let spaced : Item := .assigned "--params".toList (by decide) (by decide)
      (.quoted '"' "a b".toList (by decide) (by decide))
    let name : Spelling := .quoted '\'' "git".toList (by decide) (by decide)
    packageOf (" ".toList ++ (itemsText items ++ (name.text ++ " -s".toList))) =
        some "git".toList ∧
      packageOf (" ".toList ++ (itemsText (items ++ [(spaced, space)]) ++
          (name.text ++ " -s".toList))) =
        packageOf ("b\"".toList ++ (" ".toList ++ (itemsText [] ++
          (name.text ++ " -s".toList)))) := by
  intro space items spaced name
  -- the value with a blank is behind a flag that has its own word, so the item is whole
  have hitems : ∀ item ∈ items, item.1.IsWhole := by decide
  have hblanks : ∀ c ∈ " ".toList, isBlank c = true := List.all_eq_true.mp (by decide)
  have hname : IsName name.word := by decide
  have hrest : " -s".toList.head?.all isBlank = true := rfl
  exact ⟨(packageOf_written hblanks items hname hrest).1 hitems,
    (packageOf_written hblanks (items ++ [(spaced, space)]) hname hrest).2 items spaced space []
      rfl hitems (by decide)⟩

/-- A value behind an equals sign that has a blank in its quotes hides the package, or a word of it
takes the place of the package. -/
theorem packageOf_spaced_value :
    let space : Gap := ⟨[' '], by decide⟩
    let silent : Item := .assigned "--params".toList (by decide) (by decide)
      (.quoted '"' "/NoDesktopIcon /Silent".toList (by decide) (by decide))
    let letters : Item := .assigned "--params".toList (by decide) (by decide)
      (.quoted '"' "a b".toList (by decide) (by decide))
    let vlc : Spelling := .bare "vlc".toList (by decide) (by decide)
    IsName vlc.word ∧
      packageOf (' ' :: (itemsText [(silent, space)] ++ vlc.text)) = none ∧
      packageOf (' ' :: (itemsText [(letters, space)] ++ vlc.text)) = some "b".toList := by
  decide

end SetupCatalog.Rule.Choco
