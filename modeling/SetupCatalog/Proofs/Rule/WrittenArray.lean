import SetupCatalog.Detector
import SetupCatalog.Proofs.Package.FirstOccurrence
import SetupCatalog.Proofs.Pattern.Reading
import SetupCatalog.Proofs.Pattern.Sweep
import SetupCatalog.Proofs.Pattern.Uncased
import SetupCatalog.Proofs.Rule.ArrayReading
import SetupCatalog.Proofs.Rule.Declaration

/-!
# Written arrays are read back

A `WrittenLoop` says how somebody writes a list of values that a loop installs: which quotes stand
around each value, which blanks around the commas, whether the list is in parentheses, and how the
loop is spelt. `WrittenLoop.text` writes it down.

The rule reads such a text from left to right without ever going back. The reason is that a value
does not contain the quote around it, so the quotes of different literals cannot be confused, and
that the characters between literals are of kinds that no literal starts with. Each reader is shown
to read what is written for it, whatever comes after: a literal (`literal_text`), the run of
literals (`literalRun_text`), and the loop (`pipedLoop_of_pipe`). The values are then looked for in
the text of the run alone, and they are the written ones (`literalValues_run`).

`scan_writtenLoop` is the main statement. Most of what leads to it is about `textWith`, where
anything may stand after the opening brace: the reading of the list does not depend on it.
-/

namespace SetupCatalog.Rule.PipedArray

open Text Pattern Script

/-! ## How arrays are written -/

/-- Blank characters, or none. -/
abbrev Blanks :=
  { t : Text // t.all isBlank = true }

/-- A literal: a value on one line with equal quotes around it that does not contain this quote. -/
structure Quoted where
  /-- The quote before and after the value. -/
  quote : Char
  /-- The value between the quotes. -/
  value : Text
  isQuote_quote : isQuote quote = true
  value_ne_nil : value ≠ []
  quote_not_mem : quote ∉ value
  oneLine : value.OneLine

/-- A further literal with the comma before it. -/
structure Further where
  /-- The blanks before the comma. -/
  beforeComma : Blanks
  /-- The blanks after the comma. -/
  afterComma : Blanks
  /-- The literal. -/
  literal : Quoted

/-- The tools that a loop can install with. -/
inductive Tool where
  | choco
  | scoop
  deriving DecidableEq, Repr

/-- A list of literals that is piped into a loop. -/
structure WrittenLoop where
  /-- The first literal. -/
  first : Quoted
  /-- The other literals. -/
  others : List Further
  /-- The blanks inside the parentheses at both ends, if there are parentheses. -/
  parentheses : Option (Blanks × Blanks)
  /-- The blanks before the pipe. -/
  beforePipe : Blanks
  /-- The blanks after the pipe. -/
  afterPipe : Blanks
  /-- The word that the loop starts with. -/
  word : Text
  /-- The word is one of three, in any letter case. -/
  word_mem : uncased word ∈ ["foreach-object".toList, "foreach".toList, "%".toList]
  /-- The blanks before the body. -/
  beforeBody : Blanks
  /-- The tool that the body installs with. -/
  tool : Tool

/-- A literal as it is written. -/
def Quoted.text (q : Quoted) : Text :=
  q.quote :: (q.value ++ [q.quote])

/-- A further literal as it is written. -/
def Further.text (f : Further) : Text :=
  f.beforeComma.val ++ ',' :: (f.afterComma.val ++ f.literal.text)

/-- What a tool is as an installer. -/
def Tool.installer : Tool → Installer
  | choco => .choco
  | scoop => .scoop

/-- The body of a loop that installs with a tool. -/
def Tool.body : Tool → Text
  | choco => " choco install $_ ".toList
  | scoop => " scoop install $_ ".toList

namespace WrittenLoop

/-- The values of the literals. -/
def literals (w : WrittenLoop) : List Text :=
  w.first.value :: w.others.map fun f => f.literal.value

/-- The literals as they are written. -/
def run (w : WrittenLoop) : Text :=
  w.first.text ++ w.others.flatMap Further.text

/-- The pipe and the loop as they are written. -/
def loopText (w : WrittenLoop) : Text :=
  w.beforePipe.val ++ '|' :: (w.afterPipe.val ++ (w.word ++ (w.beforeBody.val ++
    '{' :: (w.tool.body ++ ['}']))))

/-- The whole as it is written. -/
def text (w : WrittenLoop) : Text :=
  match w.parentheses with
  | none => w.run ++ w.loopText
  | some (opening, closing) =>
    '@' :: '(' :: (opening.val ++ (w.run ++ (closing.val ++ ')' :: w.loopText)))

/-- The pipe and the loop as they are written, with something else after the opening brace. -/
def loopTextWith (w : WrittenLoop) (inside : Text) : Text :=
  w.beforePipe.val ++ '|' :: (w.afterPipe.val ++ (w.word ++ (w.beforeBody.val ++ '{' :: inside)))

/-- The whole as it is written, with something else after the opening brace of the body. -/
def textWith (w : WrittenLoop) (inside : Text) : Text :=
  match w.parentheses with
  | none => w.run ++ w.loopTextWith inside
  | some (opening, closing) =>
    '@' :: '(' :: (opening.val ++ (w.run ++ (closing.val ++ ')' :: w.loopTextWith inside)))

/-- The written loop is the case of its general text where the body is the tool's call. -/
theorem text_eq_textWith (w : WrittenLoop) : w.text = w.textWith (w.tool.body ++ ['}']) :=
  rfl

end WrittenLoop

/-- What stands before the first closing brace of a text: where it is the text after the opening
brace, the rule takes this for the body. -/
def readPart (inside : Text) : Text :=
  inside.takeWhile fun c => c != '}'

/-- What stands behind the first closing brace of a text. -/
def unreadPart (inside : Text) : Text :=
  (inside.dropWhile fun c => c != '}').tail

/-! ## Reading them -/

/-- Blanks before a character that is not blank are dropped. -/
theorem trimStart_blanks {blanks : Blanks} {c : Char} (hc : isBlank c = false) (t : Text) :
    trimStart (blanks.val ++ c :: t) = c :: t :=
  trimStart_eq_cons_iff.mpr ⟨hc, blanks.val, List.all_eq_true.mp blanks.property, rfl⟩

/-- Trimming in front of a literal stops at its quote. -/
theorem trimStart_quoted {blanks : Blanks} (q : Quoted) (t : Text) :
    trimStart (blanks.val ++ (q.text ++ t)) = q.text ++ t :=
  trimStart_blanks (isBlank_eq_false_of_isQuote q.isQuote_quote) _

/-- A written literal is read back with its value, whatever follows it. -/
theorem literal_text (q : Quoted) (prev : Option Char) (rest : Text) :
    literal prev (q.text ++ rest) = some (q.value, rest) := by
  refine literal_eq_some_iff.mpr
    ⟨q.quote, q.isQuote_quote, q.value_ne_nil, q.quote_not_mem, q.oneLine, ?_⟩
  rw [Quoted.text, List.cons_append, List.append_assoc, List.singleton_append]

/-- A run of literals is read up to its end, if no comma comes after that. -/
theorem literalRun_text {first : Quoted} {others : List Further} {rest : Text} {most : Nat}
    (hrest : symbol ',' (trimStart rest) = none) (hmost : others.length < most) :
    literalRun most (first.text ++ (others.flatMap Further.text ++ rest)) =
      some (first.value :: others.map fun f => f.literal.value, rest) := by
  -- one more literal is read in each step
  induction others generalizing first most with
  | nil =>
    obtain ⟨most, rfl⟩ := Nat.exists_eq_succ_of_ne_zero (Nat.ne_zero_of_lt hmost)
    simp only [literalRun, literal_text, List.flatMap_nil, List.nil_append, bind, Option.bind_some,
      hrest, Option.bind_none]
    rfl
  | cons f others ih =>
    obtain ⟨most, rfl⟩ := Nat.exists_eq_succ_of_ne_zero (Nat.ne_zero_of_lt hmost)
    have hcomma : symbol ',' (trimStart ((f :: others).flatMap Further.text ++ rest)) =
        some (f.afterComma.val ++ (f.literal.text ++ (others.flatMap Further.text ++ rest))) := by
      have hsplit : (f :: others).flatMap Further.text ++ rest = f.beforeComma.val ++
          ',' :: (f.afterComma.val ++
            (f.literal.text ++ (others.flatMap Further.text ++ rest))) := by
        simp only [List.flatMap_cons, Further.text, List.append_assoc, List.cons_append]
      rw [hsplit, trimStart_blanks (by decide), symbol_eq_some_iff]
    have hfurther : literalRun most (f.literal.text ++ (others.flatMap Further.text ++ rest)) =
        some (f.literal.value :: others.map fun f => f.literal.value, rest) :=
      ih (Nat.lt_of_succ_lt_succ hmost)
    simp only [literalRun, literal_text, bind, Option.bind_some, hcomma, trimStart_quoted, hfurther]
    rfl

/-! ## The loop -/

/-- A word in any letter case is read as the word. -/
theorem keyword_of_uncased_eq {word spelt : Text} (h : uncased spelt = uncased word) (rest : Text) :
    keyword word (spelt ++ rest) = some rest := by
  rw [← keyword_uncased_word, ← h, keyword_uncased_word, keyword_self]

/-- The word of a loop starts with a character that is not blank. -/
theorem WrittenLoop.exists_word_eq_cons (w : WrittenLoop) :
    ∃ c word, w.word = c :: word ∧ isBlank c = false := by
  have hmem := w.word_mem
  cases hword : w.word with
  | nil =>
    rw [hword] at hmem
    exact absurd hmem (by decide)
  | cons c word =>
    refine ⟨c, word, rfl, ?_⟩
    -- all spellings start with the letter f or are the percent sign
    have hhead : c.toLower = 'f' ∨ c.toLower = '%' := by
      rw [hword, uncased_cons] at hmem
      simp only [List.mem_cons, List.not_mem_nil, or_false] at hmem
      rcases hmem with h | h | h
      · exact Or.inl (List.cons.inj h).1
      · exact Or.inl (List.cons.inj h).1
      · exact Or.inr (List.cons.inj h).1
    rw [← isBlank_toLower c]
    rcases hhead with h | h
    · rw [h]
      decide
    · rw [h]
      decide

/-- The word of a loop is read whole: of two words that start alike the longer one needs a hyphen
where the shorter one ends. -/
theorem anyKeyword_word (w : WrittenLoop) (rest : Text) :
    anyKeyword ["ForEach-Object".toList, "foreach".toList, "%".toList]
      (w.word ++ (w.beforeBody.val ++ '{' :: rest)) = some (w.beforeBody.val ++ '{' :: rest) := by
  have hmem := w.word_mem
  simp only [List.mem_cons, List.not_mem_nil, or_false] at hmem
  rcases hmem with h | h | h
  · rw [anyKeyword, keyword_of_uncased_eq h, Option.orElse_some]
  · -- the long keyword is tried before its front, and it fails at the hyphen
    have hhyphen : keyword "-Object".toList (w.beforeBody.val ++ '{' :: rest) = none := by
      cases hblanks : w.beforeBody.val with
      | nil => exact keyword_cons_eq_none (by decide)
      | cons b blanks =>
        have hb : isBlank b = true :=
          List.all_eq_true.mp w.beforeBody.property b (hblanks ▸ List.mem_cons_self)
        exact keyword_cons_eq_none (sameLetter_eq_false_of_isBlank (by decide) hb)
    have hlong : keyword "ForEach-Object".toList (w.word ++ (w.beforeBody.val ++ '{' :: rest)) =
        none := by
      rw [show "ForEach-Object".toList = "ForEach".toList ++ "-Object".toList from rfl,
        keyword_append, keyword_of_uncased_eq h, Option.bind_some, hhyphen]
    rw [anyKeyword, hlong, Option.orElse_none, anyKeyword, keyword_of_uncased_eq h,
      Option.orElse_some]
  · have hword : w.word = ['%'] := by
      cases hw : w.word with
      | nil =>
        rw [hw] at h
        cases h
      | cons c word =>
        have hcons : c.toLower :: uncased word = ['%'] := by rw [← uncased_cons, ← hw, h]; rfl
        obtain ⟨hc, hnil⟩ := List.cons.inj hcons
        rw [(toLower_eq_iff (by decide)).mp hc, List.map_eq_nil_iff.mp hnil]
    rw [hword]
    rfl

/-- The text from the first closing brace on, split at that brace. -/
theorem dropWhile_of_mem {inside : Text} (h : '}' ∈ inside) :
    inside.dropWhile (fun c => c != '}') = '}' :: unreadPart inside := by
  rw [unreadPart]
  cases hrest : inside.dropWhile fun c => c != '}' with
  | nil =>
    have hall := List.dropWhile_eq_nil_iff.mp hrest '}' h
    cases hall
  | cons c rest =>
    have hc := List.head?_dropWhile_not (fun c => c != '}') inside
    rw [hrest] at hc
    obtain rfl : c = '}' := by simpa using hc
    rfl

/-- The call of a tool has no brace in it, so all of it is read. -/
theorem readPart_body (tool : Tool) : readPart (tool.body ++ ['}']) = tool.body := by
  cases tool <;> decide

/-- And nothing of it is left over. -/
theorem unreadPart_body (tool : Tool) : unreadPart (tool.body ++ ['}']) = [] := by
  cases tool <;> decide

/-- The loop is read up to the first closing brace once the pipe is found. -/
theorem pipedLoop_of_pipe (w : WrittenLoop) {inside t : Text} (hclosed : '}' ∈ inside)
    (h : trimStart ((symbol ')' (trimStart t)).getD (trimStart t)) =
      trimStart (w.loopTextWith inside)) :
    pipedLoop t = some (readPart inside, unreadPart inside) := by
  have hpipe : symbol '|' (trimStart (w.loopTextWith inside)) =
      some (w.afterPipe.val ++ (w.word ++ (w.beforeBody.val ++ '{' :: inside))) := by
    rw [WrittenLoop.loopTextWith, trimStart_blanks (by decide), symbol_eq_some_iff]
  have hword : trimStart (w.afterPipe.val ++ (w.word ++ (w.beforeBody.val ++ '{' :: inside))) =
      w.word ++ (w.beforeBody.val ++ '{' :: inside) := by
    obtain ⟨c, word, hcons, hc⟩ := w.exists_word_eq_cons
    rw [hcons, List.cons_append, trimStart_blanks hc]
  have hbody : symbol '{' (trimStart (w.beforeBody.val ++ '{' :: inside)) = some inside := by
    rw [trimStart_blanks (by decide), symbol_eq_some_iff]
  have hend : symbol '}' ('}' :: unreadPart inside) = some (unreadPart inside) :=
    symbol_eq_some_iff.mpr rfl
  simp only [pipedLoop, h, hpipe, hword, anyKeyword_word, hbody, dropWhile_of_mem hclosed, hend,
    bind, Option.bind_some]
  rfl

/-! ## The whole -/

/-- There are no more further literals than characters of them. -/
theorem length_flatMap_further (others : List Further) :
    others.length ≤ (others.flatMap Further.text).length := by
  induction others with
  | nil => exact Nat.le_refl 0
  | cons f others ih =>
    rw [List.flatMap_cons, List.length_append, Further.text, List.length_append, List.length_cons,
      List.length_cons]
    omega

/-- A written run is read up to its end. -/
theorem WrittenLoop.literalRun_run (w : WrittenLoop) {rest : Text}
    (hcomma : symbol ',' (trimStart rest) = none) :
    literalRun (w.run ++ rest).length (w.run ++ rest) = some (w.literals, rest) := by
  have hlength := length_flatMap_further w.others
  rw [WrittenLoop.run, List.append_assoc]
  refine literalRun_text hcomma ?_
  rw [List.length_append, List.length_append, Quoted.text, List.length_cons]
  omega

/-- The values that are found in the text of a written run are those of its literals. -/
theorem WrittenLoop.literalValues_run (w : WrittenLoop) :
    literalValues w.run = values w.literals := by
  have hagree := literalValues_consumed
    (w.literalRun_run (show symbol ',' (trimStart []) = none from rfl))
  rwa [consumed_append] at hagree

/-- A list is read from its first literal or from the parenthesis before it: what follows the
literals is known to be no further one, and to be a loop. -/
theorem loop_of_run (w : WrittenLoop) {t rest body after : Text}
    (hopening : arrayOpening t = w.run ++ rest) (hcomma : symbol ',' (trimStart rest) = none)
    (hloop : pipedLoop rest = some (body, after)) (prev : Option Char) :
    loop prev t = some (⟨w.run, body⟩, after) := by
  have hread := w.literalRun_run hcomma
  have hquote : (w.run ++ rest).head?.any isQuote = true := w.first.isQuote_quote
  simp only [loop, hopening, hquote, hread, hloop, consumed_append, guard, if_true, bind,
    Option.bind_some]
  rfl

/-- A run without parentheses has no opening to read. -/
theorem arrayOpening_run (w : WrittenLoop) (rest : Text) :
    arrayOpening (w.run ++ rest) = w.run ++ rest := by
  have hat : symbol '@' (w.run ++ rest) = none := by
    refine symbol_cons_of_ne (fun hquote => ?_) _
    have := w.first.isQuote_quote
    rw [hquote] at this
    exact absurd this (by decide)
  rw [arrayOpening, hat]
  rfl

/-- Behind a run without parentheses, blanks lead to the pipe. So there is no comma, and the run
does not go on into the loop. -/
theorem trimStart_loopTextWith (w : WrittenLoop) (inside : Text) :
    ∃ t, trimStart (w.loopTextWith inside) = '|' :: t :=
  ⟨_, trimStart_blanks (by decide) _⟩

/-- After a closing parenthesis the loop is read as well. -/
theorem pipedLoop_of_parenthesis (w : WrittenLoop) {inside : Text} (hclosed : '}' ∈ inside)
    (closing : Blanks) :
    symbol ',' (trimStart (closing.val ++ ')' :: w.loopTextWith inside)) = none ∧
      pipedLoop (closing.val ++ ')' :: w.loopTextWith inside) =
        some (readPart inside, unreadPart inside) := by
  have hclose : trimStart (closing.val ++ ')' :: w.loopTextWith inside) =
      ')' :: w.loopTextWith inside := trimStart_blanks (by decide) _
  refine ⟨by rw [hclose]; rfl, pipedLoop_of_pipe w hclosed ?_⟩
  rw [hclose, symbol_eq_some_iff.mpr rfl, Option.getD_some]

/-- The whole is read: its literals, and the body of the loop up to its first closing brace. -/
theorem loop_textWith (w : WrittenLoop) {inside : Text} (hclosed : '}' ∈ inside)
    (prev : Option Char) :
    loop prev (w.textWith inside) = some (⟨w.run, readPart inside⟩, unreadPart inside) := by
  cases hparentheses : w.parentheses with
  | none =>
    obtain ⟨t, hpipe⟩ := trimStart_loopTextWith w inside
    have hcomma : symbol ',' (trimStart (w.loopTextWith inside)) = none := by
      rw [hpipe]
      rfl
    have hnone : symbol ')' (trimStart (w.loopTextWith inside)) = none := by
      rw [hpipe]
      rfl
    rw [WrittenLoop.textWith, hparentheses]
    refine loop_of_run w (arrayOpening_run w _) hcomma (pipedLoop_of_pipe w hclosed ?_) prev
    rw [hnone, Option.getD_none, hpipe]
    rfl
  | some blanks =>
    obtain ⟨opening, closing⟩ := blanks
    -- the blanks behind the parenthesis belong to the opening
    have hopening : arrayOpening (w.textWith inside) =
        w.run ++ (closing.val ++ ')' :: w.loopTextWith inside) := by
      have hquote : trimStart (opening.val ++
          (w.run ++ (closing.val ++ ')' :: w.loopTextWith inside))) =
          w.run ++ (closing.val ++ ')' :: w.loopTextWith inside) := by
        rw [WrittenLoop.run, List.append_assoc, trimStart_quoted]
      rw [WrittenLoop.textWith, hparentheses]
      exact hquote
    obtain ⟨hcomma, hloop⟩ := pipedLoop_of_parenthesis w hclosed closing
    exact loop_of_run w hopening hcomma hloop prev

/-- The loop is the first match, and the only one if nothing matches behind the first closing brace.
-/
theorem exists_all_textWith (w : WrittenLoop) {inside : Text} (hclosed : '}' ∈ inside) :
    ∃ later, loop.all (w.textWith inside) =
        ⟨[], ⟨w.run, readPart inside⟩, unreadPart inside⟩ :: later ∧
      (loop.occursIn (unreadPart inside) = false → later = []) := by
  have hread := loop_textWith w hclosed none
  obtain ⟨read, htext⟩ := exists_of_loop_eq_some hread
  rw [htext] at hread ⊢
  obtain ⟨later, hall, hlater⟩ := exists_all_eq_cons (passesOver_nil loop _) (by simp) hread
  exact ⟨later, hall, fun hlast => hlater (passesOver_of_occursIn (fun _ _ => rfl) hlast)⟩

/-- The loop is all that there is to match. -/
theorem all_text (w : WrittenLoop) :
    loop.all w.text = [⟨[], ⟨w.run, w.tool.body⟩, []⟩] := by
  obtain ⟨later, hall, hlater⟩ := exists_all_textWith w (show '}' ∈ w.tool.body ++ ['}'] by simp)
  rw [readPart_body, unreadPart_body] at hall
  rw [unreadPart_body] at hlater
  rw [w.text_eq_textWith, hall, hlater (by decide)]

/-- A tool's body installs with that tool. -/
theorem installerIn_body (tool : Tool) : installerIn tool.body = some tool.installer := by
  cases tool with
  | choco => decide
  | scoop => decide

/-- The rule recognises one package for each value that is not blank. -/
theorem candidates_text (w : WrittenLoop) (script : Text) :
    candidates script w.text = (values w.literals).map (plainPackage w.tool.installer script) := by
  have hcomment : ¬isComment [] = true := by decide
  rw [candidates, all_text, List.flatMap_singleton, declared]
  simp only [lineBefore, List.takeWhile_nil, List.reverse_nil, if_neg hcomment, installerIn_body,
    w.literalValues_run]
  rfl

/-- Of packages of one installer, those with different identities are kept. -/
theorem newPackages_plainPackage (installer : Installer) (script : Text) (ids : List Text) :
    newPackages [] (ids.map (plainPackage installer script)) =
      ids.eraseDups.map (plainPackage installer script) := by
  have hkey : ∀ id other : Text, (id == other) = true ↔
      (plainPackage installer script id).key = (plainPackage installer script other).key := by
    intro id other
    rw [beq_iff_eq, Package.key_eq_iff]
    exact (and_iff_right rfl).symm
  exact newPackages_map hkey ids

/-- A written array is read back: one package for each value that is not blank, without the blanks
around it, the first time that it occurs. -/
theorem scan_writtenLoop (w : WrittenLoop) (options : ScanOptions) (earlier : List Text)
    (script : Text) :
    ((⟨.pipedArray, options, earlier⟩ : Detector).scan script w.text []).1 =
      ((w.literals.map strip).filter fun value => !value.isEmpty).eraseDups.map
        (plainPackage w.tool.installer script) := by
  show newPackages [] (candidates script w.text) = _
  rw [candidates_text, newPackages_plainPackage]
  rfl

/-- The quote of one literal may stand in the value of another. -/
example : ∃ w : WrittenLoop,
    w.text = "@('a\"b', \"c'd\") | FOREACH \x7b choco install $_ \x7d".toList ∧
    w.literals = ["a\"b".toList, "c'd".toList] :=
  ⟨{ first := ⟨'\'', "a\"b".toList, by decide, by decide, by decide, by decide⟩
     others := [⟨⟨[], by decide⟩, ⟨[' '], by decide⟩,
       ⟨'"', "c'd".toList, by decide, by decide, by decide, by decide⟩⟩]
     parentheses := some (⟨[], by decide⟩, ⟨[], by decide⟩)
     beforePipe := ⟨[' '], by decide⟩
     afterPipe := ⟨[' '], by decide⟩
     word := "FOREACH".toList
     word_mem := by decide
     beforeBody := ⟨[' '], by decide⟩
     tool := .choco }, by decide, by decide⟩

end SetupCatalog.Rule.PipedArray
