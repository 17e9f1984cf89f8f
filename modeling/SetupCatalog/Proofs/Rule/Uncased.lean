import SetupCatalog.Proofs.Script.Uncased
import SetupCatalog.Rule.Basic

/-!
# Rules without letter case

Each rule recognises the same packages in an uncased script as in the script, as far as the
installer and the identity go, and the identities differ in the case of letters only. A package
without the rest is its `uncasedKey`; names, scopes and arguments are left out, because the texts
that they come from are handed out as they are spelt.

The rules are gone through one by one. For each of them the identity that is read off an uncased
line, word or window is the identity, uncased, and `candidates_uncased` puts the lines together
again.
-/

namespace SetupCatalog

open Text Pattern Script

/-- What installs a package and what the package is, up to the case of letters. -/
def Package.uncasedKey (p : Package) : Installer × Text :=
  (p.installer, uncased p.id)

namespace Rule

/-- Lines that declare the same up to case declare the same together. -/
theorem map_filterMap_uncased {declared? declared'? : Text → Option Package}
    (h : ∀ line, (declared'? (uncased line)).map Package.uncasedKey =
      (declared? line).map Package.uncasedKey) (lines : List Text) :
    ((lines.map uncased).filterMap declared'?).map Package.uncasedKey =
      (lines.filterMap declared?).map Package.uncasedKey := by
  rw [List.filterMap_map, List.map_filterMap, List.map_filterMap]
  exact List.filterMap_congr fun line _ => h line

/-! ## Containers -/

namespace Container

/-- A value in quotes ends at the same quote, which is no letter. -/
theorem quotedValue_uncased (t : Text) :
    quotedValue (uncased t) = (quotedValue t).map (Prod.map uncased uncased) := by
  cases t with
  | nil => rfl
  | cons q t =>
    rw [uncased_cons, quotedValue, quotedValue, isQuote_toLower q]
    cases hq : isQuote q with
    | false => rfl
    | true =>
      have hletter := isAlpha_eq_false_of_isQuote hq
      have hinside : CaseBlind fun c => c != q && c != '\n' :=
        (caseBlind_bne hletter).and (caseBlind_bne (by decide))
      rw [toLower_of_not_isAlpha hletter]
      simp only [if_true, dropWhile_uncased hinside, takeWhile_uncased hinside,
        symbol_uncased hletter, Option.map_map, Function.comp_def, Prod.map]

/-- The value of a field is read off an uncased line. -/
theorem fieldValue_uncased (t : Text) :
    fieldValue (uncased t) = (fieldValue t).map (Prod.map uncased uncased) := by
  simp only [fieldValue, bind, trimStart_uncased,
    symbol_uncased (show '='.isAlpha = false by decide), Option.bind_map, Option.map_bind,
    Function.comp_def, quotedValue_uncased]

/-- The field with the identity is found in any case. -/
theorem idField_uncased : idField.ReadsUncased uncased := by
  intro prev t
  have hpackage : ((keyword "Package".toList t).map uncased).getD (uncased t) =
      uncased ((keyword "Package".toList t).getD t) := by
    cases keyword "Package".toList t <;> rfl
  simp only [idField, bind, wordStarts_map, keyword_uncased, hpackage, fieldValue_uncased,
    Option.bind_map, Option.map_bind, Function.comp_def]

/-- What a line of a container declares depends on the installer of the consumer and on the line, up
to case. -/
theorem declared?_uncased {consumer consumer' : Consumer}
    (h : consumer'.installer = consumer.installer) (script line : Text) :
    (declared? script consumer' (uncased line)).map Package.uncasedKey =
      (declared? script consumer line).map Package.uncasedKey := by
  simp only [declared?, bind, pure, isComment_uncased, find?_uncased idField_uncased, strip_uncased,
    isEmpty_uncased, Option.bind_map, Option.map_bind, Function.comp_def, Option.map_some,
    Package.uncasedKey, uncased_uncased, h]

/-- Containers declare the same in an uncased script. -/
theorem candidates_uncased (options : ScanOptions) (script text : Text) :
    (candidates options script (uncased text)).map Package.uncasedKey =
      (candidates options script text).map Package.uncasedKey := by
  rw [candidates, blocks_uncased, List.flatMap_map, List.map_flatMap, candidates, List.map_flatMap]
  refine List.flatMap_congr fun b _ => ?_
  have hinstaller := installer_consumerOf_uncased b.variableName text options
  have hunknown : (consumerOf (uncased b.variableName) (uncased text) options).isUnknown =
      (consumerOf b.variableName text options).isUnknown := by
    rw [Consumer.isUnknown, hinstaller, Consumer.isUnknown]
  have hids : declaresIds b.uncased = declaresIds b := occursIn_uncased idField_uncased b.body
  -- block by block: the same consumer reads the same lines
  have hentries : (entries script (consumerOf b.uncased.variableName (uncased text) options)
      b.uncased).map Package.uncasedKey =
        (entries script (consumerOf b.variableName text options) b).map Package.uncasedKey := by
    rw [entries, Block.uncased, lines_uncased, entries]
    exact map_filterMap_uncased (declared?_uncased hinstaller script) (lines b.body)
  show List.map Package.uncasedKey (if !declaresIds b.uncased ||
      (consumerOf (uncased b.variableName) (uncased text) options).isUnknown then [] else _) =
    List.map Package.uncasedKey (if !declaresIds b || (consumerOf b.variableName text
      options).isUnknown then [] else _)
  rw [hids, hunknown]
  split
  · rfl
  · exact hentries

end Container

/-! ## Piped arrays -/

namespace PipedArray

/-- A literal is read off an uncased text. -/
theorem literal_uncased : literal.ReadsUncased uncased := by
  intro prev t
  cases t with
  | nil => rfl
  | cons q t =>
    rw [uncased_cons, literal, literal, isQuote_toLower q]
    cases hq : isQuote q with
    | false => rfl
    | true =>
      have hletter := isAlpha_eq_false_of_isQuote hq
      have hinside : CaseBlind fun c => c != q && !isLineEnd c :=
        (caseBlind_bne hletter).and (isLineEnd_toLower.comp not)
      rw [toLower_of_not_isAlpha hletter]
      simp only [if_true, bind, pure, someOf_uncased hinside, symbol_uncased hletter,
        Option.bind_map, Option.map_bind, Function.comp_def, Prod.map, Option.map_some]

/-- A run of literals has as many literals in an uncased text. -/
theorem literalRun_uncased (most : Nat) (t : Text) :
    literalRun most (uncased t) =
      (literalRun most t).map (Prod.map (List.map uncased) uncased) := by
  induction most generalizing t with
  | zero => rfl
  | succ most ih =>
    have hliteral := literal_uncased none t
    rw [Option.map_none] at hliteral
    -- what comes after a comma reads the same, and so does nothing where there is no comma
    have hmore : ∀ rest : Text,
        ((symbol ',' (trimStart (uncased rest))).bind fun t => literalRun most (trimStart t)) =
          ((symbol ',' (trimStart rest)).bind fun t => literalRun most (trimStart t)).map
            (Prod.map (List.map uncased) uncased) := by
      intro rest
      simp only [trimStart_uncased, symbol_uncased (show ','.isAlpha = false by decide),
        Option.bind_map, Option.map_bind, Function.comp_def, ih]
    simp only [literalRun, bind, hliteral, Option.bind_map, Option.map_bind, Function.comp_def,
      Prod.map]
    refine congrArg (Option.bind _) (funext fun found => ?_)
    rw [hmore]
    cases (symbol ',' (trimStart found.2)).bind fun t => literalRun most (trimStart t) with
    | none => rfl
    | some more => rfl

/-- The beginning of an array has no letters. -/
theorem arrayOpening_uncased (t : Text) : arrayOpening (uncased t) = uncased (arrayOpening t) := by
  have hopening : (symbol '@' (uncased t)).bind (symbol '(') =
      ((symbol '@' t).bind (symbol '(')).map uncased := by
    simp only [symbol_uncased (show '@'.isAlpha = false by decide), Option.bind_map,
      Option.map_bind, Function.comp_def, symbol_uncased (show '('.isAlpha = false by decide)]
  simp only [arrayOpening, bind, hopening]
  cases (symbol '@' t).bind (symbol '(') with
  | none => rfl
  | some rest => exact trimStart_uncased rest

/-- The word of a loop is read in any case, and its body ends at the same brace. -/
theorem pipedLoop_uncased (t : Text) :
    pipedLoop (uncased t) = (pipedLoop t).map (Prod.map uncased uncased) := by
  have hinside : CaseBlind fun c => c != '}' := caseBlind_bne (by decide)
  have hclose : ∀ t : Text, ((symbol ')' t).map uncased).getD (uncased t) =
      uncased ((symbol ')' t).getD t) := by
    intro t
    cases symbol ')' t <;> rfl
  simp only [pipedLoop, bind, pure, trimStart_uncased, hclose, anyKeyword_uncased,
    symbol_uncased (show ')'.isAlpha = false by decide),
    symbol_uncased (show '|'.isAlpha = false by decide),
    symbol_uncased (show '{'.isAlpha = false by decide),
    symbol_uncased (show '}'.isAlpha = false by decide), takeWhile_uncased hinside,
    dropWhile_uncased hinside, Option.bind_map, Option.map_bind, Function.comp_def, Option.map_some,
    Prod.map]

/-- A loop with uncased texts. -/
def Loop.uncased (l : Loop) : Loop :=
  ⟨Text.uncased l.run, Text.uncased l.body⟩

/-- A loop over literals is read off an uncased text. -/
theorem loop_uncased : loop.ReadsUncased Loop.uncased := by
  intro prev t
  simp only [loop, bind, pure, arrayOpening_uncased, head?_any_uncased isQuote_toLower,
    length_uncased, literalRun_uncased, pipedLoop_uncased, consumed_uncased, Option.bind_map,
    Option.map_bind, Function.comp_def, Prod.map, Option.map_some, Loop.uncased]

/-- What the body of a loop installs with does not depend on its case. -/
theorem installerIn_uncased (body : Text) : installerIn (uncased body) = installerIn body := by
  have hchoco : chocoWords.occursIn (uncased body) = chocoWords.occursIn body :=
    occursIn_uncased (installWords_uncased _ _) body
  have hscoop : scoopWords.occursIn (uncased body) = scoopWords.occursIn body :=
    occursIn_uncased (installWords_uncased _ _) body
  rw [installerIn, hchoco, hscoop, installerIn]

/-- A value of nothing but blanks is one in either case. -/
theorem values_uncased (literals : List Text) :
    values (literals.map uncased) = (values literals).map uncased := by
  have hstrip : strip ∘ uncased = uncased ∘ strip := funext strip_uncased
  have hempty : (fun value : Text => !value.isEmpty) ∘ uncased = fun value => !value.isEmpty :=
    funext fun value => congrArg not (isEmpty_uncased value)
  rw [values, List.map_map, hstrip, ← List.map_map, List.filter_map, hempty, values]

/-- The literals that are found in a run are uncased with it. -/
theorem literalValues_uncased (run : Text) :
    literalValues (uncased run) = (literalValues run).map uncased := by
  rw [literalValues, all_uncased literal_uncased, List.map_map, literalValues, ← values_uncased,
    List.map_map]
  rfl

/-- A match stands behind a hash sign exactly if it does so in the uncased script. -/
theorem isComment_lineBefore_uncased {α : Type} (onFound : α → α) (hit : Hit α) :
    isComment (lineBefore (hit.uncased onFound)) = isComment (lineBefore hit) := by
  have hinside : CaseBlind fun c => c != '\n' := caseBlind_bne (by decide)
  rw [lineBefore, Hit.uncased, takeWhile_uncased hinside, reverse_uncased, isComment_uncased,
    lineBefore]

/-- Piped arrays declare the same in an uncased script. -/
theorem candidates_uncased (script text : Text) :
    (candidates script (uncased text)).map Package.uncasedKey =
      (candidates script text).map Package.uncasedKey := by
  rw [candidates, all_uncased loop_uncased, List.flatMap_map, List.map_flatMap, candidates,
    List.map_flatMap]
  refine List.flatMap_congr fun hit _ => ?_
  rw [declared, isComment_lineBefore_uncased, declared]
  split
  · rfl
  · have hinstaller : installerIn (hit.uncased Loop.uncased).found.body =
        installerIn hit.found.body := installerIn_uncased hit.found.body
    have hvalues : literalValues (hit.uncased Loop.uncased).found.run =
        (literalValues hit.found.run).map uncased := literalValues_uncased hit.found.run
    rw [hinstaller, hvalues]
    cases installerIn hit.found.body with
    | none => rfl
    | some installer =>
      simp only [List.map_map, Function.comp_def, Package.uncasedKey, uncased_uncased]

end PipedArray

/-! ## Calls of Chocolatey -/

namespace Choco

/-- The name at the start of a word is that of the word, up to case. -/
theorem nameAtStart_uncased (word : Text) :
    nameAtStart (uncased word) = (nameAtStart word).map uncased := by
  have hname : CaseBlind isNameChar :=
    ((isWord_toLower.or (caseBlind_beq (by decide))).or (caseBlind_beq (by decide))).or
      (caseBlind_beq (by decide))
  cases word with
  | nil => rfl
  | cons c t =>
    rw [uncased_cons, nameAtStart, nameAtStart, isAsciiAlnum_toLower c, takeWhile_uncased hname]
    split <;> rfl

/-- The package among some words is in the same place among the uncased words. -/
theorem packageIn_uncased (skipping : Bool) (words : List Text) :
    packageIn skipping (words.map uncased) = (packageIn skipping words).map uncased := by
  induction words generalizing skipping with
  | nil => rfl
  | cons word words ih =>
    rw [List.map_cons, packageIn, packageIn, isFlag_uncased, takesValue, lower_uncased, ih, ih,
      nameAtStart_uncased, takesValue]
    cases skipping with
    | true => rfl
    | false =>
      rw [if_neg Bool.false_ne_true, if_neg Bool.false_ne_true]
      split <;> rfl

/-- A Chocolatey command declares the same package in any case. -/
theorem declared?_uncased (script line : Text) :
    (declared? script (uncased line)).map Package.uncasedKey =
      (declared? script line).map Package.uncasedKey := by
  simp only [declared?, bind, pure, find?_uncased chocoCall_uncased, packageOf, arguments_uncased,
    packageIn_uncased, Option.bind_map, Option.map_bind, Function.comp_def, Option.map_some,
    Package.uncasedKey, uncased_uncased]

/-- Chocolatey commands declare the same in an uncased script. -/
theorem candidates_uncased (script text : Text) :
    (candidates script (uncased text)).map Package.uncasedKey =
      (candidates script text).map Package.uncasedKey := by
  rw [candidates, freeLines_uncased, map_filterMap_uncased (declared?_uncased script), candidates]

end Choco

/-! ## Calls of winget -/

namespace Winget

/-- Both cases of a letter may be in an identity. -/
theorem isIdChar_toLower : CaseBlind isIdChar :=
  (isWord_toLower.or (caseBlind_beq (by decide))).or (caseBlind_beq (by decide))

/-- A word with dots between its parts is one in either case. -/
theorem isDottedId_uncased (word : Text) : isDottedId (uncased word) = isDottedId word := by
  -- lowering moves no dot, so the parts are lowered one by one
  have hpart : ∀ part : Text, (!(uncased part).isEmpty && (uncased part).all isIdChar) =
      (!part.isEmpty && part.all isIdChar) := by
    intro part
    rw [isEmpty_uncased, all_uncased isIdChar_toLower]
  have hparts : ∀ parts : List Text,
      ((parts.map uncased).all fun part => !part.isEmpty && part.all isIdChar) =
        parts.all fun part => !part.isEmpty && part.all isIdChar := by
    intro parts
    rw [List.all_map]
    exact congrArg parts.all (funext hpart)
  rw [isDottedId, pieces_uncased (by decide), isDottedId]
  cases pieces '.' word with
  | nil => rfl
  | cons first others =>
    cases others with
    | nil => rfl
    | cons second others =>
      have hhead := head?_any_uncased isAsciiAlnum_toLower first
      have hall := hparts (first :: second :: others)
      simp only [List.map_cons] at hall ⊢
      rw [hhead, hall]

/-- A number of a version has no letters that count. -/
theorem isVersionLike_uncased (word : Text) :
    isVersionLike (uncased word) = isVersionLike word := by
  have hdigit : CaseBlind isDigit := caseBlind_of_letters (by decide)
  rw [isVersionLike, isEmpty_uncased, all_uncased (hdigit.or (caseBlind_beq (by decide))),
    isVersionLike]

/-- What a word offers as an identity, with the words after it, it offers in any case. -/
theorem offeredId_uncased (word : Text) (words : List Text) :
    offeredId (uncased word) (words.map uncased) = (offeredId word words).map uncased := by
  have hinside : CaseBlind fun c => c != '=' := caseBlind_bne (by decide)
  simp only [offeredId, lower_uncased, dropWhile_uncased hinside, drop_uncased, List.head?_map]
  split
  · rfl
  · split <;> rfl

/-- The identity after a flag is found in any case. -/
theorem flaggedId_uncased (words : List Text) :
    flaggedId (words.map uncased) = (flaggedId words).map uncased := by
  induction words with
  | nil => rfl
  | cons word words ih =>
    have hfilter : (offeredId (uncased word) (words.map uncased)).filter isDottedId =
        ((offeredId word words).filter isDottedId).map uncased := by
      have hdotted : isDottedId ∘ uncased = isDottedId := funext isDottedId_uncased
      rw [offeredId_uncased, Option.filter_map, hdotted]
    rw [List.map_cons, flaggedId, flaggedId, hfilter, ih]
    cases (offeredId word words).filter isDottedId <;> rfl

/-- The identity that stands without a flag is found in any case, given the word before it. -/
theorem positionalId_uncased (previous : Text) (words : List Text) :
    positionalId (uncased previous) (words.map uncased) =
      (positionalId previous words).map uncased := by
  induction words generalizing previous with
  | nil => rfl
  | cons word words ih =>
    rw [List.map_cons, positionalId, positionalId, isFlag_uncased, lower_uncased,
      isDottedId_uncased, isVersionLike_uncased, ih]
    split <;> rfl

/-- The identity among the arguments of a call is the same up to case. -/
theorem idOf_uncased (text : Text) : idOf (uncased text) = (idOf text).map uncased := by
  have hpositional : ∀ words : List Text, positionalId [] (words.map uncased) =
      (positionalId [] words).map uncased := positionalId_uncased []
  simp only [idOf, arguments_uncased, flaggedId_uncased, hpositional]
  cases flaggedId (arguments text) <;> rfl

/-- A winget command declares the same package in any case. -/
theorem declared?_uncased (options : ScanOptions) (script line : Text) :
    (declared? options script (uncased line)).map Package.uncasedKey =
      (declared? options script line).map Package.uncasedKey := by
  simp only [declared?, bind, pure, find?_uncased wingetCall_uncased, idOf_uncased, Option.bind_map,
    Option.map_bind, Function.comp_def, Option.map_some, Package.uncasedKey, uncased_uncased]

/-- Winget commands declare the same in an uncased script. -/
theorem candidates_uncased (options : ScanOptions) (script text : Text) :
    (candidates options script (uncased text)).map Package.uncasedKey =
      (candidates options script text).map Package.uncasedKey := by
  rw [candidates, freeLines_uncased, map_filterMap_uncased (declared?_uncased options script),
    candidates]

end Winget

/-! ## Modules -/

namespace PsModule

/-- A call that installs a module is read in any case. -/
theorem moduleCall_uncased : moduleCall.ReadsUncased uncased := by
  intro prev t
  have hinside : CaseBlind fun c => c != '\n' := caseBlind_bne (by decide)
  simp only [moduleCall, bind, pure, wordStarts_map, keyword_uncased, wordEnds_uncased,
    takeWhile_uncased hinside, dropWhile_uncased hinside, Option.bind_map, Option.map_bind,
    Function.comp_def, Option.map_some, Prod.map]

/-- A name after blanks is read off an uncased text, if it may start with either case of a letter.
-/
theorem nameAfterBlanks_uncased {starts : Char → Bool} (hstarts : CaseBlind starts) (t : Text) :
    nameAfterBlanks starts (uncased t) =
      (nameAfterBlanks starts t).map (Prod.map uncased uncased) := by
  have hname : CaseBlind isNameChar :=
    (isWord_toLower.or (caseBlind_beq (by decide))).or (caseBlind_beq (by decide))
  simp only [nameAfterBlanks, bind, someBlanks_uncased, Option.bind_map, Option.map_bind,
    Function.comp_def, optionalQuote_uncased]
  refine congrArg (Option.bind _) (funext fun rest => ?_)
  cases optionalQuote rest with
  | nil => rfl
  | cons c t =>
    simp only [uncased_cons, hstarts c, takeWhile_uncased hname, dropWhile_uncased hname]
    split <;> rfl

/-- The parameter with the name of a module is read in any case. -/
theorem nameParameter_uncased : nameParameter.ReadsUncased uncased := by
  intro prev t
  simp only [nameParameter, bind, flagStarts_map, keyword_uncased,
    nameAfterBlanks_uncased isAlnumAnyCase_toLower, Option.bind_map, Option.map_bind,
    Function.comp_def]

/-- The module among the arguments of a call is the same up to case. -/
theorem moduleOf_uncased (text : Text) : moduleOf (uncased text) = (moduleOf text).map uncased := by
  rw [moduleOf, nameAfterBlanks_uncased isAsciiAlnum_toLower, find?_uncased nameParameter_uncased,
    moduleOf]
  cases nameAfterBlanks isAsciiAlnum text <;> rfl

/-- A call that installs a module declares the same package in any case. -/
theorem declared?_uncased (script line : Text) :
    (declared? script (uncased line)).map Package.uncasedKey =
      (declared? script line).map Package.uncasedKey := by
  simp only [declared?, bind, pure, isComment_uncased, find?_uncased moduleCall_uncased,
    moduleOf_uncased, Option.bind_map, Option.map_bind, Function.comp_def, Option.map_some,
    Package.uncasedKey, uncased_uncased]

/-- Calls that install modules declare the same in an uncased script. -/
theorem candidates_uncased (script text : Text) :
    (candidates script (uncased text)).map Package.uncasedKey =
      (candidates script text).map Package.uncasedKey := by
  rw [candidates, lines_uncased, map_filterMap_uncased (declared?_uncased script), candidates]

end PsModule

/-! ## Sideloads -/

namespace Sideload

/-- The word that marks a sideload is read in any case. -/
theorem marker_uncased : marker.ReadsUncased id := by
  intro prev t
  simp only [marker, bind, pure, wordStarts_map, keyword_uncased, wordEnds_uncased,
    Option.bind_map, Option.map_bind, Function.comp_def, Option.map_some, Prod.map, id]

/-- Both cases of a letter may be in an address. -/
theorem isAddressChar_toLower : CaseBlind isAddressChar :=
  ((isBlank_toLower.comp not).and (isQuote_toLower.comp not)).and (caseBlind_bne (by decide))

/-- The scheme of an address is read in any case. -/
theorem scheme_uncased (t : Text) : scheme (uncased t) = (scheme t).map uncased := by
  have hsecure : ∀ t : Text, ((keyword "s".toList t).map uncased).getD (uncased t) =
      uncased ((keyword "s".toList t).getD t) := by
    intro t
    cases keyword "s".toList t <;> rfl
  simp only [scheme, bind, keyword_uncased, hsecure, Option.bind_map, Option.map_bind,
    Function.comp_def]

/-- An address ends at the same place in an uncased text. -/
theorem address_uncased (t : Text) :
    address (uncased t) = (address t).map (Prod.map uncased uncased) := by
  simp only [address, bind, pure, scheme_uncased, someOf_uncased isAddressChar_toLower,
    Option.bind_map, Option.map_bind, Function.comp_def, Option.map_some, Prod.map,
    consumed_uncased]

/-- The first address on a line is the same up to case. -/
theorem addressOnLine_uncased (t : Text) :
    addressOnLine (uncased t) = (addressOnLine t).map (Prod.map uncased uncased) := by
  induction t with
  | nil => rfl
  | cons c t ih =>
    rw [uncased_cons, addressOnLine, addressOnLine, ← uncased_cons, address_uncased,
      isLineEnd_toLower c, ih]
    cases address (c :: t) with
    | some found => rfl
    | none =>
      simp only [Option.map_none]
      split <;> rfl

/-- The word that fetches an address is read in any case. -/
theorem fetchVerb_uncased (prev : Option Char) (t : Text) :
    fetchVerb (prev.map Char.toLower) (uncased t) = (fetchVerb prev t).map uncased := by
  have horElse : ∀ word other : Option Text,
      ((word.map uncased).orElse fun _ => other.map uncased) =
      (word.orElse fun _ => other).map uncased := by
    intro word other
    cases word <;> rfl
  simp only [fetchVerb, bind, pure, wordStarts_map, anyKeyword_uncased, keyword_uncased,
    trimStart_uncased, symbol_uncased (show '('.isAlpha = false by decide), wordEnds_uncased,
    Option.bind_map, Function.comp_def, ← horElse, Option.map_bind, Option.map_some]

/-- A fetch finds the same address up to case. -/
theorem fetch_uncased : fetch.ReadsUncased uncased := by
  intro prev t
  simp only [fetch, bind, fetchVerb_uncased, addressOnLine_uncased, Option.bind_map,
    Option.map_bind, Function.comp_def]

/-- The ending of a package file is read in any case. -/
theorem packageEnding_uncased (t : Text) :
    packageEnding (uncased t) = (packageEnding t).map uncased := by
  simp only [packageEnding, bind, pure, symbol_uncased (show '.'.isAlpha = false by decide),
    Option.bind_map, Option.map_bind, Function.comp_def, keyword_uncased, wordEnds_uncased,
    List.map_findSome?, Option.map_some]

/-- The path of a package file ends at the same place in an uncased text. -/
theorem packagePath_uncased (t : Text) :
    packagePath (uncased t) = (packagePath t).map uncased := by
  induction t with
  | nil => rfl
  | cons c t ih =>
    rw [uncased_cons, packagePath, packagePath, isAddressChar_toLower c, packageEnding_uncased, ih]
    split
    · cases packageEnding t <;> rfl
    · rfl

/-- The address of a package file is the same up to case. -/
theorem packageAddress_uncased : packageAddress.ReadsUncased uncased := by
  intro prev t
  simp only [packageAddress, bind, pure, scheme_uncased, packagePath_uncased, consumed_uncased,
    Option.bind_map, Option.map_bind, Function.comp_def, Option.map_some, Prod.map]

/-- The address that a window gives is that of the uncased window, up to case. -/
theorem addressIn_uncased (window : Text) :
    addressIn (uncased window) = uncased (addressIn window) := by
  rw [addressIn, find?_uncased fetch_uncased, find?_uncased packageAddress_uncased, addressIn]
  cases fetch.find? window with
  | some found => rfl
  | none => cases packageAddress.find? window <;> rfl

/-- A sideload has the same identity up to case. Its name does not count here. -/
theorem candidates_uncased (options : ScanOptions) (script text : Text) :
    (candidates options script (uncased text)).map Package.uncasedKey =
      (candidates options script text).map Package.uncasedKey := by
  rw [candidates, first?_uncased marker_uncased, candidates]
  cases marker.first? text with
  | none => rfl
  | some hit =>
    simp only [Option.map_some, Option.toList_some, List.map_cons, List.map_nil, Package.uncasedKey,
      declaredAt, Hit.offset_uncased, window_uncased, addressIn_uncased, uncased_uncased]

end Sideload

/-! ## Every rule -/

/-- **Every rule recognises the same packages in an uncased script**, up to the case of letters. -/
theorem candidates_uncased (rule : Rule) (options : ScanOptions) (script text : Text) :
    (rule.candidates options script (uncased text)).map Package.uncasedKey =
      (rule.candidates options script text).map Package.uncasedKey := by
  cases rule with
  | container => exact Container.candidates_uncased options script text
  | pipedArray => exact PipedArray.candidates_uncased script text
  | choco => exact Choco.candidates_uncased script text
  | winget => exact Winget.candidates_uncased options script text
  | psModule => exact PsModule.candidates_uncased script text
  | sideload => exact Sideload.candidates_uncased options script text

end Rule

end SetupCatalog
