import Mathlib.Data.Option.Basic
import SetupCatalog.Proofs.Pattern.Uncased
import SetupCatalog.Proofs.Script.Brace
import SetupCatalog.Script.Argument
import SetupCatalog.Script.Consumer
import SetupCatalog.Script.Line

/-!
# Scripts without letter case

What a script is made of is the same whether its letters are large or small: its containers, its
comments and its loops, the calls in it and their arguments. The patterns for them read uncased
texts as they read the texts themselves, and lists of lines, containers or arguments of an uncased
script are those of the script, uncased.

The name of a variable is part of a pattern itself, the one for the consumer of a container. There
it makes no difference either (`installer_consumerOf_uncased`).
-/

namespace SetupCatalog.Script

open Text Pattern

/-! ## Containers -/

/-- A container with uncased texts. -/
def Block.uncased (b : Block) : Block :=
  ⟨Text.uncased b.variableName, Text.uncased b.body, b.endOffset⟩

/-- One more character in front of a body that was found. -/
theorem map_cons_uncased (c : Char) (found : Option (Text × Text)) :
    (found.map (Prod.map uncased uncased)).map (fun (b, rest) => (c.toLower :: b, rest)) =
      (found.map fun (b, rest) => (c :: b, rest)).map (Prod.map uncased uncased) := by
  rw [Option.map_map, Option.map_map]
  rfl

/-- The body of a block ends at the same brace, since braces have no case. -/
theorem bodyOf_uncased (depth : Nat) (t : Text) :
    bodyOf depth (uncased t) = (bodyOf depth t).map (Prod.map uncased uncased) := by
  induction t generalizing depth with
  | nil => rfl
  | cons c t ih =>
    -- a brace is read at the same spots, and any other character stays in the body
    have hopen : c.toLower = '{' ↔ c = '{' := toLower_eq_iff (by decide)
    have hclose : c.toLower = '}' ↔ c = '}' := toLower_eq_iff (by decide)
    rw [uncased_cons]
    by_cases h : c = '{'
    · rw [h, show '{'.toLower = '{' from rfl, bodyOf_open, bodyOf_open, ih]
      exact map_cons_uncased '{' _
    · by_cases h' : c = '}'
      · rw [h', show '}'.toLower = '}' from rfl]
        cases depth with
        | zero => rfl
        | succ depth =>
          rw [bodyOf_close_succ, bodyOf_close_succ, ih]
          exact map_cons_uncased '}' _
      · rw [bodyOf_cons (mt hopen.mp h) (mt hclose.mp h'), bodyOf_cons h h', ih, map_cons_uncased]

/-- Both cases of a letter start a variable. -/
theorem startsVariable_toLower : CaseBlind startsVariable :=
  isAlpha_toLower.or (caseBlind_beq (by decide))

/-- What starts a text is in a case-blind class, or not, in either case. -/
theorem head?_any_uncased {p : Char → Bool} (hp : CaseBlind p) (t : Text) :
    (uncased t).head?.any p = t.head?.any p := by
  cases t with
  | nil => rfl
  | cons c t => exact hp c

/-- The start of a block is read off an uncased text. -/
theorem blockStart_uncased : blockStart.ReadsUncased uncased := by
  intro prev t
  simp only [blockStart, bind, pure, symbol_uncased (show '$'.isAlpha = false by decide),
    symbol_uncased (show '='.isAlpha = false by decide),
    symbol_uncased (show '@'.isAlpha = false by decide),
    symbol_uncased (show '{'.isAlpha = false by decide), Option.bind_map, Option.map_bind,
    Function.comp_def, head?_any_uncased startsVariable_toLower, takeWhile_uncased isWord_toLower,
    dropWhile_uncased isWord_toLower, trimStart_uncased, Option.map_some, Prod.map]

/-- The blocks of an uncased script are those of the script, uncased. -/
theorem blocks_uncased (text : Text) : blocks (uncased text) = (blocks text).map Block.uncased := by
  rw [blocks, all_uncased blockStart_uncased, blocks, List.filterMap_map, List.map_filterMap]
  refine List.filterMap_congr fun start _ => ?_
  rw [Function.comp_apply, Hit.uncased, bodyOf_uncased, Option.map_map, Option.map_map]
  refine congrArg (fun f => Option.map f (bodyOf 0 start.after)) (funext fun found => ?_)
  simp only [Function.comp_apply, Prod.map, Block.uncased, length_uncased]

/-! ## Lines -/

/-- Only a character itself is found to be one that is no letter of ASCII. -/
theorem map_toLower_beq {s : Char} (hs : s.isAlpha = false) (c? : Option Char) :
    (c?.map Char.toLower == some s) = (c? == some s) := by
  cases c? with
  | none => rfl
  | some c =>
    rw [Option.map_some, Option.some_beq_some, Option.some_beq_some]
    exact caseBlind_beq hs c

/-- A line is a comment in either case. -/
theorem isComment_uncased (line : Text) : isComment (uncased line) = isComment line := by
  rw [isComment, strip_uncased, head?_uncased, map_toLower_beq (by decide), isComment]

/-- The loop variable is read in any case. -/
theorem loopVariable_uncased : loopVariable.ReadsUncased id := by
  intro prev t
  have hname : ∀ t : Text,
      ((symbol '_' (uncased t)).orElse fun _ => keyword "PSItem".toList (uncased t)) =
      ((symbol '_' t).orElse fun _ => keyword "PSItem".toList t).map uncased := by
    intro t
    rw [symbol_uncased (by decide), keyword_uncased]
    cases symbol '_' t <;> rfl
  simp only [loopVariable, bind, pure, symbol_uncased (show '$'.isAlpha = false by decide), hname,
    Option.bind_map, Option.map_bind, Function.comp_def, wordEnds_uncased, Option.map_some,
    Prod.map, id]

/-- The lines outside of comments and loops are the same lines of an uncased script. -/
theorem freeLines_uncased (text : Text) :
    freeLines (uncased text) = (freeLines text).map uncased := by
  rw [freeLines, lines_uncased, List.filter_map, freeLines]
  refine congrArg (List.map uncased) (List.filter_congr fun line _ => ?_)
  rw [Function.comp_apply, isComment_uncased, usesLoopVariable, usesLoopVariable,
    occursIn_uncased loopVariable_uncased]

/-! ## Calls -/

/-- The words of a call are read in any case. -/
theorem installWords_uncased (tool : Text) (suffix : Bool) :
    (installWords tool suffix).ReadsUncased id := by
  intro prev t
  have hexe : ∀ t : Text, (if suffix then ((keyword ".exe".toList t).map uncased).getD (uncased t)
      else uncased t) = uncased (if suffix then (keyword ".exe".toList t).getD t else t) := by
    intro t
    cases suffix with
    | false => rfl
    | true =>
      rw [if_pos rfl, if_pos rfl]
      cases keyword ".exe".toList t <;> rfl
  simp only [installWords, bind, pure, wordStarts_map, keyword_uncased, hexe, someBlanks_uncased,
    Option.bind_map, Option.map_bind, Function.comp_def, wordEnds_uncased, Option.map_some,
    Prod.map, id]

/-- So are words with arguments after them. -/
theorem withArguments_uncased {words : Pattern Unit} (h : words.ReadsUncased id) :
    (withArguments words).ReadsUncased uncased := by
  intro prev t
  simp only [withArguments, bind, pure, h prev t, Option.bind_map, Option.map_bind,
    Function.comp_def, Prod.map, restOfLine_uncased, Option.map_some]

/-- A winget call is read in any case. -/
theorem wingetCall_uncased : wingetCall.ReadsUncased uncased :=
  withArguments_uncased (installWords_uncased _ _)

/-- A Chocolatey call is read in any case. -/
theorem chocoCall_uncased : chocoCall.ReadsUncased uncased :=
  withArguments_uncased (installWords_uncased _ _)

/-- What stands between a flag and its value is passed over in any case. -/
theorem beforeValue_uncased (t : Text) :
    beforeValue (uncased t) = (beforeValue t).map uncased := by
  have hseparates : CaseBlind separatesValue := isBlank_toLower.or (caseBlind_beq (by decide))
  simp only [beforeValue, someOf_uncased hseparates, Option.map_map, Function.comp_def, Prod.map,
    optionalQuote_uncased]

/-- The flag for the store is read in any case. -/
theorem storeSource_uncased : storeSource.ReadsUncased id := by
  intro prev t
  simp only [storeSource, bind, pure, anyKeyword_uncased, beforeValue_uncased, keyword_uncased,
    Option.bind_map, Option.map_bind, Function.comp_def, wordEnds_uncased, Option.map_some,
    Prod.map, id]

/-! ## Consumers -/

/-- The member that hands out the elements of a container is read in any case. -/
theorem elementsMember_uncased (t : Text) :
    elementsMember (uncased t) = (elementsMember t).map uncased := by
  rw [elementsMember, anyKeyword_uncased, elementsMember]
  cases anyKeyword ["Values".toList, "Keys".toList] t with
  | some rest => rfl
  | none =>
    simp only [bind, keyword_uncased, trimStart_uncased,
      symbol_uncased (show ')'.isAlpha = false by decide),
      Option.bind_map, Option.map_none, Option.orElse_none, Option.map_bind, Function.comp_def]

/-- A pipeline that starts with a variable is found in any case of the text. -/
theorem consumerStart_uncased (variableName : Text) :
    (consumerStart variableName).ReadsUncased id := by
  intro prev t
  simp only [consumerStart, bind, pure, symbol_uncased (show '$'.isAlpha = false by decide),
    symbol_uncased (show '.'.isAlpha = false by decide),
    symbol_uncased (show '|'.isAlpha = false by decide), keyword_uncased, elementsMember_uncased,
    trimStart_uncased, Option.bind_map, Option.map_bind, Function.comp_def, Option.map_some,
    Prod.map, id]

/-- The case of the variable makes no difference. -/
theorem consumerStart_uncased_name (variableName : Text) :
    consumerStart (uncased variableName) = consumerStart variableName := by
  funext prev t
  simp only [consumerStart, keyword_uncased_word]

/-- What a window says about the installer does not depend on its case. The scope is handed out as
it is spelt, so it may. -/
theorem installer_consumerIn_uncased (window defaultScope : Text) :
    (consumerIn (uncased window) defaultScope).installer =
      (consumerIn window defaultScope).installer := by
  have hchoco : chocoWords.occursIn (uncased window) = chocoWords.occursIn window :=
    occursIn_uncased (installWords_uncased _ _) window
  have hscoop : scoopWords.occursIn (uncased window) = scoopWords.occursIn window :=
    occursIn_uncased (installWords_uncased _ _) window
  rw [consumerIn, find?_uncased wingetCall_uncased, hchoco, hscoop, consumerIn]
  cases wingetCall.find? window with
  | some arguments =>
    simp only [Option.map_some, occursIn_uncased storeSource_uncased]
    split <;> rfl
  | none =>
    simp only [Option.map_none]

/-- An uncased script consumes its containers with the same installers. -/
theorem installer_consumerOf_uncased (variableName text : Text) (options : ScanOptions) :
    (consumerOf (uncased variableName) (uncased text) options).installer =
      (consumerOf variableName text options).installer := by
  rw [consumerOf, consumerStart_uncased_name, first?_uncased (consumerStart_uncased variableName),
    consumerOf]
  cases (consumerStart variableName).first? text with
  | none => rfl
  | some hit =>
    simp only [Option.map_some, Hit.offset_uncased, window_uncased]
    exact installer_consumerIn_uncased _ _

/-! ## Arguments -/

/-- A character that is no letter is in an uncased text exactly if it is in the text. -/
theorem contains_uncased {s : Char} (hs : s.isAlpha = false) (t : Text) :
    (uncased t).contains s = t.contains s := by
  rw [Bool.eq_iff_iff, List.contains_iff_mem, List.contains_iff_mem, uncased, List.mem_map]
  constructor
  · rintro ⟨c, hc, hlow⟩
    rw [(toLower_eq_iff hs).mp hlow] at hc
    exact hc
  · intro h
    exact ⟨s, h, toLower_of_not_isAlpha hs⟩

/-- An argument is read off an uncased text. -/
theorem argument_uncased : argument.ReadsUncased uncased := by
  intro prev t
  have hword : CaseBlind fun c => !isBlank c := isBlank_toLower.comp not
  cases t with
  | nil => rfl
  | cons q r =>
    rw [uncased_cons, argument, argument, isQuote_toLower q]
    cases hq : isQuote q with
    | false =>
      simp only [Bool.false_and, Bool.false_eq_true, if_false]
      exact someOf_uncased hword (q :: r)
    | true =>
      have hletter := isAlpha_eq_false_of_isQuote hq
      rw [toLower_of_not_isAlpha hletter, contains_uncased hletter]
      have hinside : CaseBlind fun c => c != q := caseBlind_bne hletter
      -- a quote that is closed ends the word, and one that is not is part of it
      cases r.contains q with
      | false =>
        have hsome := someOf_uncased hword (q :: r)
        rw [uncased_cons, toLower_of_not_isAlpha hletter] at hsome
        simpa using hsome
      | true =>
        simp only [Bool.true_and, if_true, takeWhile_uncased hinside, dropWhile_uncased hinside,
          drop_uncased, Option.map_some, Prod.map, uncased_cons, uncased_append, uncased_nil,
          toLower_of_not_isAlpha hletter, List.cons_append]

/-- The quotes around an argument are taken off in any case. -/
theorem unquoted_uncased (t : Text) : unquoted (uncased t) = uncased (unquoted t) := by
  cases t with
  | nil => rfl
  | cons q r =>
    rw [uncased_cons, unquoted, unquoted, isQuote_toLower q]
    cases hq : isQuote q with
    | false => rfl
    | true =>
      have hletter := isAlpha_eq_false_of_isQuote hq
      rw [toLower_of_not_isAlpha hletter, getLast?_uncased, map_toLower_beq hletter, Bool.true_and]
      split
      · exact List.map_dropLast.symm
      · rw [uncased_cons, toLower_of_not_isAlpha hletter]

/-- The arguments of an uncased call are those of the call, uncased. -/
theorem arguments_uncased (text : Text) :
    arguments (uncased text) = (arguments text).map uncased := by
  rw [arguments, all_uncased argument_uncased, List.map_map, arguments, List.map_map]
  exact List.map_congr_left fun hit _ => unquoted_uncased hit.found

/-- A word is a flag in either case. -/
theorem isFlag_uncased (word : Text) : isFlag (uncased word) = isFlag word := by
  rw [isFlag, head?_uncased, map_toLower_beq (by decide), isFlag]

end SetupCatalog.Script
