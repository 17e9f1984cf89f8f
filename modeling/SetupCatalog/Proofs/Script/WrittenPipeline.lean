import SetupCatalog.Proofs.Script.Nesting
import SetupCatalog.Proofs.Text.Uncased
import SetupCatalog.Script.Consumer

/-!
# Written pipelines are read back

A pipeline takes the values of a variable and installs each of them with one command
(`pipelineText`). Here is what the search for the consumer of a container makes of it
(`consumerIn_pipelineText`).

The variable may have any name, also that of a package manager. What keeps it from being taken for a
call is the word after it: a call goes on with `install` after the first blanks in it
(`keyword_install_nextWord`), and no word of the pipeline before the command is followed by anything
that starts with that letter.
-/

namespace SetupCatalog.Script

open Text Pattern

/-! ## How pipelines are written -/

/-- The name of a variable. -/
abbrev VariableName :=
  { t : Text // t.head?.any startsVariable = true ∧ t.all isWord = true }

/-- A word of ASCII. -/
abbrev AsciiWord :=
  { t : Text // t ≠ [] ∧ t.all (fun c => isAsciiAlnum c || c == '_') = true }

/-- What a pipeline does with each element of a container. -/
inductive InstallCommand where
  | winget (scope : AsciiWord)
  | store
  | choco
  | scoop

namespace InstallCommand

/-- The installer that a command calls. -/
def installer : InstallCommand → Installer
  | winget _ => .winget
  | store => .wingetStore
  | choco => .choco
  | scoop => .scoop

/-- The scope that a command installs for. -/
def scope (default : Text) : InstallCommand → Text
  | winget scope => scope.val
  | _ => default

/-- The word that a command calls its installer by. -/
def tool : InstallCommand → Text
  | winget _ | store => "winget".toList
  | choco => "choco".toList
  | scoop => "scoop".toList

/-- The arguments of a command: the identity of the current element, and flags. -/
def arguments : InstallCommand → Text
  | winget scope => "--id $_.Id ".toList ++ ("--scope ".toList ++ scope.val)
  | store => "--id $_.Id --source msstore".toList
  | choco | scoop => "$_.Id".toList

/-- A command as it is written. -/
def text (command : InstallCommand) : Text :=
  command.tool ++ (" install ".toList ++ command.arguments)

end InstallCommand

/-- A pipeline up to its command. -/
def pipelineStart (name : VariableName) : Text :=
  '$' :: (name.val ++ '.' :: ("Values".toList ++ " | ForEach-Object \x7b ".toList))

/-- A pipeline over the values of a variable as it is written. -/
def pipelineText (name : VariableName) (command : InstallCommand) : Text :=
  pipelineStart name ++ (command.text ++ " \x7d".toList)

/-! ## Calls -/

/-- What comes after the first blanks of a text. -/
def nextWord (t : Text) : Text :=
  trimStart (t.dropWhile fun c => !isBlank c)

/-- The next word is looked for behind the word that one is in. -/
theorem nextWord_append {word : Text} (hword : word.any isBlank = false) (rest : Text) :
    nextWord (word ++ rest) = nextWord rest := by
  have hsolid : ∀ c ∈ word, (!isBlank c) = true := by
    intro c hc
    rw [any_eq_false_iff.mp hword c hc]
    rfl
  rw [nextWord, List.dropWhile_append_of_pos hsolid, nextWord]

/-- A word without blanks has been read before the first blanks. -/
theorem nextWord_of_keyword {word t rest : Text}
    (hword : word.any (fun w => isBlank (lowerChar w)) = false) (h : keyword word t = some rest) :
    nextWord t = nextWord rest := by
  obtain ⟨spelt, hspelt, rfl⟩ := keyword_eq_some_iff.mp h
  refine nextWord_append (any_eq_false_iff.mpr fun c hc => ?_) rest
  obtain ⟨w, hw, hsame⟩ := hspelt.exists_sameLetter hc
  cases hblank : isBlank c with
  | false => rfl
  | true =>
    rw [sameLetter_eq_false_of_isBlank (any_eq_false_iff.mp hword w hw) hblank] at hsame
    cases hsame

/-- Behind blanks it begins. -/
theorem nextWord_of_someBlanks {t rest : Text} (h : someBlanks t = some rest) :
    nextWord t = rest := by
  cases t with
  | nil => cases h
  | cons b t =>
    rw [someBlanks] at h
    split at h
    · next hb =>
      rw [nextWord, List.dropWhile_cons_of_neg (by rw [hb]; decide), trimStart,
        List.dropWhile_cons_of_pos hb]
      exact Option.some.inj h
    · cases h

/-- After the first blanks of a call comes the word `install`. -/
theorem keyword_install_nextWord {tool t : Text} {suffix : Bool} {prev : Option Char}
    {read : Unit × Text} (htool : tool.any (fun w => isBlank (lowerChar w)) = false)
    (h : installWords tool suffix prev t = some read) :
    ∃ rest, keyword "install".toList (nextWord t) = some rest := by
  simp only [installWords, bind, Option.bind_eq_some_iff] at h
  obtain ⟨-, -, t₁, hread, t₂, hblanks, t₃, hinstall, -⟩ := h
  refine ⟨t₃, ?_⟩
  have hsuffix : nextWord (if suffix then (keyword ".exe".toList t₁).getD t₁ else t₁) =
      nextWord t₁ := by
    cases suffix with
    | false => rfl
    | true =>
      rw [if_pos rfl]
      cases hexe : keyword ".exe".toList t₁ with
      | none => rfl
      | some t => exact (nextWord_of_keyword (by decide) hexe).symm
  rw [nextWord_of_keyword htool hread, ← hsuffix, nextWord_of_someBlanks hblanks]
  exact hinstall

/-- A search for a call passes over a word that is followed by something else than `install`. -/
theorem installWords_passesOver_word {tool word rest : Text} {suffix : Bool} {c : Char}
    (htool : tool.any (fun w => isBlank (lowerChar w)) = false) (hword : word.any isBlank = false)
    (hc : isBlank c = false) (hi : sameLetter 'i' c = false) :
    (installWords tool suffix).PassesOver (word ++ [' ']) (c :: rest) := by
  have hspace : ∀ b ∈ [' '], isBlank b = true := List.all_eq_true.mp (by decide)
  intro u d v huv prev
  rw [Option.eq_none_iff_forall_ne_some]
  intro read hread
  obtain ⟨rest', hinstall⟩ := keyword_install_nextWord htool hread
  -- behind the next blank comes a word that does not start like the keyword
  have hnext : nextWord (d :: v ++ c :: rest) = c :: rest := by
    obtain ⟨w, hw, hdv⟩ : ∃ w : Text, w.any isBlank = false ∧ d :: v = w ++ [' '] := by
      rcases List.append_eq_append_iff.mp huv with ⟨w, rfl, hdv⟩ | ⟨w, rfl, hdv⟩
      · cases w with
        | nil => exact ⟨[], rfl, hdv.symm⟩
        | cons e w => simp at hdv
      · rw [List.any_append, Bool.or_eq_false_iff] at hword
        exact ⟨w, hword.2, hdv⟩
    rw [hdv, List.append_assoc, nextWord_append hw]
    exact trimStart_eq_cons_iff.mpr ⟨hc, [' '], hspace, rfl⟩
  rw [hnext, show "install".toList = 'i' :: "nstall".toList from rfl, keyword_cons_eq_none hi]
    at hinstall
  cases hinstall

/-- A search for a call passes over a pipeline up to its command. -/
theorem installWords_passesOver_pipelineStart {tool rest : Text} {suffix : Bool} {c : Char}
    (htool : tool.any (fun w => isBlank (lowerChar w)) = false) (name : VariableName)
    (hc : isBlank c = false) (hi : sameLetter 'i' c = false) :
    (installWords tool suffix).PassesOver (pipelineStart name) (c :: rest) := by
  have hname : ('$' :: (name.val ++ ".Values".toList)).any isBlank = false := by
    have hword : name.val.any isBlank = false := any_eq_false_iff.mpr fun d hd =>
      isBlank_eq_false_of_isWord (List.all_eq_true.mp name.property.2 d hd)
    rw [List.any_cons, List.any_append, hword]
    decide
  have hstart : pipelineStart name = ('$' :: (name.val ++ ".Values".toList) ++ [' ']) ++
      (("|".toList ++ [' ']) ++
        (("ForEach-Object".toList ++ [' ']) ++ ("\x7b".toList ++ [' ']))) := by
    simp [pipelineStart]
  rw [hstart]
  refine PassesOver.append ?_ (PassesOver.append ?_ (PassesOver.append ?_ ?_))
  · exact installWords_passesOver_word htool hname (by decide) (by decide)
  · exact installWords_passesOver_word htool (by decide) (by decide) (by decide)
  · exact installWords_passesOver_word htool (by decide) (by decide) (by decide)
  · exact installWords_passesOver_word htool (by decide) hc hi

/-- The start of a pipeline ends with a blank, so a word may start there. -/
theorem pipelineStart_getLast? (name : VariableName) :
    (pipelineStart name).getLast? = some ' ' := by
  rw [pipelineStart, List.getLast?_cons, List.getLast?_append, List.getLast?_cons,
    List.getLast?_append]
  rfl

/-- No call starts where its tool is not named. -/
theorem installWords_eq_none {tool t : Text} (h : keyword tool t = none) (suffix : Bool)
    (prev : Option Char) : installWords tool suffix prev t = none := by
  simp only [installWords, h, bind, Option.bind_none, Option.bind_fun_none]

/-- A search for a call passes over a text without the letter that the name of the tool starts with.
-/
theorem installWords_passesOver_letters {w : Char} {fixed : Text}
    (h : fixed.any (sameLetter w) = false) (tool : Text) (suffix : Bool) (rest : Text) :
    (installWords (w :: tool) suffix).PassesOver fixed rest := by
  refine passesOver_of_forall_mem (fun c hc prev t => ?_) rest
  exact installWords_eq_none (keyword_cons_eq_none (any_eq_false_iff.mp h c hc)) suffix prev

/-- A written call is read up to its arguments. -/
theorem installWords_text (tool : Text) (suffix : Bool) {prev : Option Char}
    (hprev : wordStarts prev = true) (rest : Text) :
    installWords tool suffix prev (tool ++ (" install ".toList ++ rest)) =
      some ((), ' ' :: rest) := by
  have hexe : keyword ".exe".toList (" install ".toList ++ rest) = none :=
    keyword_cons_eq_none (by decide)
  have hsuffix : (if suffix then (keyword ".exe".toList (" install ".toList ++ rest)).getD
      (" install ".toList ++ rest) else " install ".toList ++ rest) =
      " install ".toList ++ rest := by
    rw [hexe, Option.getD_none, ite_self]
  have hblanks : someBlanks (" install ".toList ++ rest) =
      some ("install".toList ++ ' ' :: rest) := rfl
  simp only [installWords, hprev, guard, if_true, bind, Option.bind_some, keyword_self, hsuffix,
    hblanks, pure]
  rfl

/-! ## The consumer -/

/-- Line feeds, or nothing. -/
abbrev LineFeeds :=
  { t : Text // t.all (· == '\n') = true }

/-- A line ends where the line feeds begin. -/
theorem restOfLine_append {line : Text} (hline : line.OneLine) (ending : LineFeeds) :
    restOfLine (line ++ ending.val) = (line, ending.val) := by
  have hinside : ∀ c ∈ line, (!isLineEnd c) = true := fun c hc => by rw [hline c hc]; rfl
  have hending : ending.val.takeWhile (fun c => !isLineEnd c) = [] ∧
      ending.val.dropWhile (fun c => !isLineEnd c) = ending.val := by
    obtain ⟨_ | ⟨c, ending⟩, hfeeds⟩ := ending
    · exact ⟨rfl, rfl⟩
    · rw [List.all_cons, Bool.and_eq_true, beq_iff_eq] at hfeeds
      obtain rfl : c = '\n' := hfeeds.1
      exact ⟨rfl, rfl⟩
  rw [restOfLine, List.takeWhile_append_of_pos hinside, List.dropWhile_append_of_pos hinside,
    hending.1, hending.2, List.append_nil]

/-- Words with arguments pass over what the words pass over. -/
theorem withArguments_passesOver {words : Pattern Unit} {passed rest : Text}
    (h : words.PassesOver passed rest) : (withArguments words).PassesOver passed rest := by
  intro u c v huv prev
  rw [withArguments, h u c v huv prev]
  rfl

/-- The call of winget in a pipeline is found, and its arguments are the rest of the line. -/
theorem find?_wingetCall (name : VariableName) {arguments : Text} (harguments : arguments.OneLine)
    (ending : LineFeeds) :
    wingetCall.find? (pipelineStart name ++
      ("winget".toList ++ (" install ".toList ++ (arguments ++ ending)))) =
        some (' ' :: arguments) := by
  have hpassed : wingetWords.PassesOver (pipelineStart name)
      ("winget".toList ++ (" install ".toList ++ (arguments ++ ending))) :=
    installWords_passesOver_pipelineStart (by decide) name (by decide) (by decide)
  have hread : wingetCall (pipelineStart name).getLast?
      ("winget".toList ++ (" install ".toList ++ (arguments ++ ending))) =
        some (' ' :: arguments, ending.val) := by
    rw [pipelineStart_getLast?, wingetCall, withArguments, wingetWords,
      installWords_text "winget".toList true (by decide)]
    exact congrArg some (restOfLine_append (harguments.cons (by decide)) ending)
  exact find?_of_passesOver (withArguments_passesOver hpassed) hread

/-! ## Scopes -/

/-- Its characters are word characters. -/
theorem AsciiWord.isWord_of_mem (word : AsciiWord) : ∀ c ∈ word.val, isWord c = true := by
  intro c hc
  have h := List.all_eq_true.mp word.property.2 c hc
  rw [Bool.or_eq_true, beq_iff_eq] at h
  rcases h with h | rfl
  · exact isWord_of_isAsciiAlnum h
  · decide

/-- No character of a word is a hyphen. -/
theorem AsciiWord.any_sameLetter_hyphen (word : AsciiWord) :
    word.val.any (sameLetter '-') = false := by
  refine any_eq_false_iff.mpr fun c hc => ?_
  have hword := List.all_eq_true.mp word.property.2 c hc
  have hascii : c.toNat < 128 := by
    rw [Bool.or_eq_true, beq_iff_eq] at hword
    rcases hword with h | rfl
    · exact toNat_lt_of_isAsciiAlnum h
    · decide
  exact forall_ascii (P := fun c => (isAsciiAlnum c || c == '_') = true →
    sameLetter '-' c = false) (by decide) hascii hword

/-- A flag that does not start with a hyphen does not start. -/
theorem storeSource_cons_eq_none {c : Char} (hc : sameLetter '-' c = false) (prev : Option Char)
    (t : Text) : storeSource prev (c :: t) = none := by
  have hlong : keyword "--source".toList (c :: t) = none := keyword_cons_eq_none hc
  have hshort : keyword "-s".toList (c :: t) = none := keyword_cons_eq_none hc
  simp only [storeSource, anyKeyword, hlong, hshort, Option.orElse_none, bind, Option.bind_none]

/-- The flag for a scope starts with a hyphen. -/
theorem scopeFlag_cons_eq_none {c : Char} (hc : sameLetter '-' c = false) (prev : Option Char)
    (t : Text) : scopeFlag prev (c :: t) = none := by
  have hflag : keyword "--scope".toList (c :: t) = none := keyword_cons_eq_none hc
  simp only [scopeFlag, hflag, bind, Option.bind_none]

/-- The scope is read behind its flag. -/
theorem scopeFlag_text (scope : AsciiWord) (prev : Option Char) :
    scopeFlag prev ("--scope ".toList ++ (scope.val ++ " \x7d".toList)) =
      some (scope.val, " \x7d".toList) := by
  have hword : someOf isWord (scope.val ++ " \x7d".toList) = some (scope.val, " \x7d".toList) :=
    someOf_append_cons scope.property.1 scope.isWord_of_mem (by decide)
  -- the value comes right after one space, without a quote
  have hvalue : beforeValue (' ' :: (scope.val ++ " \x7d".toList)) =
      some (scope.val ++ " \x7d".toList) := by
    obtain ⟨c, others, hscope⟩ := List.exists_cons_of_ne_nil scope.property.1
    have hc : isWord c = true := scope.isWord_of_mem c (hscope ▸ List.mem_cons_self)
    have hseparates : separatesValue c = false := by
      rw [separatesValue, isBlank_eq_false_of_isWord hc, Bool.false_or, beq_eq_false_iff_ne]
      rintro rfl
      exact absurd hc (by decide)
    have hquote : isQuote c = false := by
      cases h : isQuote c with
      | false => rfl
      | true =>
        rw [isQuote, Bool.or_eq_true, beq_iff_eq, beq_iff_eq] at h
        rcases h with rfl | rfl <;> exact absurd hc (by decide)
    have hspace : ∀ b ∈ [' '], separatesValue b = true := List.all_eq_true.mp (by decide)
    have hsome : someOf separatesValue ([' '] ++ c :: (others ++ " \x7d".toList)) =
        some ([' '], c :: (others ++ " \x7d".toList)) :=
      someOf_append_cons (by decide) hspace hseparates
    rw [hscope, beforeValue]
    simp only [List.cons_append, List.nil_append] at hsome ⊢
    rw [hsome, Option.map_some, optionalQuote, hquote]
    rfl
  have hflag : keyword "--scope".toList ("--scope ".toList ++ (scope.val ++ " \x7d".toList)) =
      some (' ' :: (scope.val ++ " \x7d".toList)) := keyword_self "--scope".toList _
  simp only [scopeFlag, hflag, hvalue, bind, Option.bind_some]
  exact hword

/-- The arguments of a call that installs for a scope. -/
theorem scope_arguments (scope : AsciiWord) :
    let arguments := ' ' :: ("--id $_.Id ".toList ++
      ("--scope ".toList ++ (scope.val ++ " \x7d".toList)))
    storeSource.first? arguments = none ∧ scopeFlag.find? arguments = some scope.val := by
  intro arguments
  have hsource : ∀ fixed : Text, fixed.any (sameLetter '-') = false → ∀ rest,
      storeSource.PassesOver fixed rest := fun fixed h =>
    passesOver_of_forall_mem fun c hc => storeSource_cons_eq_none (any_eq_false_iff.mp h c hc)
  have hflag : ∀ fixed : Text, fixed.any (sameLetter '-') = false → ∀ rest,
      scopeFlag.PassesOver fixed rest := fun fixed h =>
    passesOver_of_forall_mem fun c hc => scopeFlag_cons_eq_none (any_eq_false_iff.mp h c hc)
  constructor
  · -- at each of the four hyphens something else than a source follows
    have hid : ∀ rest, storeSource.PassesOver "--id $_.Id ".toList rest := fun rest =>
      .cons (fun _ => rfl) (.cons (fun _ => rfl) (hsource "id $_.Id ".toList (by decide) rest))
    have hscope : ∀ rest, storeSource.PassesOver "--scope ".toList rest := fun rest =>
      .cons (fun _ => rfl) (.cons (fun _ => rfl) (hsource "scope ".toList (by decide) rest))
    refine first?_eq_none_of_passesOver ?_ fun prev => rfl
    exact ((hsource [' '] (by decide) _).append (hid _)).append <| (hscope _).append <|
      (hsource _ scope.any_sameLetter_hyphen _).append (hsource _ (by decide) _)
  · have hid : ∀ rest, scopeFlag.PassesOver "--id $_.Id ".toList rest := fun rest =>
      .cons (fun _ => rfl) (.cons (fun _ => rfl) (hflag "id $_.Id ".toList (by decide) rest))
    exact find?_of_passesOver ((hflag [' '] (by decide) _).append (hid _)) (scopeFlag_text scope _)

/-! ## The consumer -/

/-- A pipeline is its start, a tool, the word for installing and the arguments. -/
theorem pipelineText_append (name : VariableName) (command : InstallCommand) (ending : LineFeeds) :
    pipelineText name command ++ ending.val = pipelineStart name ++ (command.tool ++
      (" install ".toList ++ ((command.arguments ++ " \x7d".toList) ++ ending.val))) := by
  simp only [pipelineText, InstallCommand.text, List.append_assoc]

/-- Line feeds do not start a call. -/
theorem installWords_passesOver_ending {w : Char} (hw : sameLetter w '\n' = false) (tool : Text)
    (suffix : Bool) (ending : LineFeeds) :
    (installWords (w :: tool) suffix).PassesOver ending [] := by
  refine installWords_passesOver_letters (any_eq_false_iff.mpr fun c hc => ?_) tool suffix []
  rw [beq_iff_eq.mp (List.all_eq_true.mp ending.property c hc)]
  exact hw

/-- A search for a call passes over a pipeline if it passes over the command. -/
theorem installWords_passesOver_pipeline (name : VariableName) {w c : Char} {tool command : Text}
    {suffix : Bool} (htool : (w :: tool).any (fun d => isBlank (lowerChar d)) = false)
    (hc : isBlank c = false) (hi : sameLetter 'i' c = false) (ending : LineFeeds)
    (hw : sameLetter w '\n' = false)
    (hcommand : (installWords (w :: tool) suffix).PassesOver (c :: command) ending) :
    (installWords (w :: tool) suffix).PassesOver
      (pipelineStart name ++ ((c :: command) ++ ending.val)) [] := by
  refine (installWords_passesOver_pipelineStart htool name hc hi).append (PassesOver.append ?_ ?_)
  · rw [List.append_nil]
    exact hcommand
  · exact installWords_passesOver_ending hw tool suffix ending

/-- No call of winget is found in a pipeline whose command has no letter W in it. -/
theorem wingetCall_eq_none (name : VariableName) {c : Char} {command : Text}
    (hc : isBlank c = false) (hi : sameLetter 'i' c = false)
    (hletters : (c :: command).any (sameLetter 'w') = false) (ending : LineFeeds) :
    wingetCall.find? (pipelineStart name ++ ((c :: command) ++ ending.val)) = none := by
  have hpassed : wingetWords.PassesOver (pipelineStart name ++ ((c :: command) ++ ending.val)) [] :=
    installWords_passesOver_pipeline name (by decide) hc hi ending (by decide)
      (installWords_passesOver_letters hletters _ _ _)
  have hend : ∀ prev, wingetCall prev [] = none := by
    intro prev
    have hnil : wingetWords prev [] = none := installWords_eq_none rfl true prev
    rw [wingetCall, withArguments, hnil]
    rfl
  have hnone : wingetCall.first? (pipelineStart name ++ ((c :: command) ++ ending.val)) = none :=
    first?_eq_none_of_passesOver (withArguments_passesOver hpassed) hend
  rw [find?, hnone, Option.map_none]

/-- A call is found at the command of a pipeline. -/
theorem occursIn_pipeline (name : VariableName) (tool : Text) (suffix : Bool) (rest : Text) :
    (installWords tool suffix).occursIn
      (pipelineStart name ++ (tool ++ (" install ".toList ++ rest))) = true := by
  have hprev : wordStarts (pipelineStart name).getLast? = true := by
    rw [pipelineStart_getLast?]
    decide
  exact occursIn_iff.mpr ⟨_, _, _, _, rfl, installWords_text tool suffix hprev rest⟩

/-- A call with a scope is a winget call for this scope. -/
theorem consumerIn_winget (name : VariableName) (scope : AsciiWord) (ending : LineFeeds)
    (default : Text) :
    consumerIn (pipelineStart name ++ ("winget".toList ++ (" install ".toList ++
      ((("--id $_.Id ".toList ++ ("--scope ".toList ++ scope.val)) ++ " \x7d".toList) ++
        ending.val)))) default = ⟨.winget, scope.val⟩ := by
  have hscope : OneLine scope.val := fun c hc =>
    isLineEnd_eq_false_of_isBlank (isBlank_eq_false_of_isWord (scope.isWord_of_mem c hc))
  have honeLine : OneLine ("--id $_.Id ".toList ++ ("--scope ".toList ++
      (scope.val ++ " \x7d".toList))) := by
    have hid : OneLine "--id $_.Id ".toList := by decide
    have hflag : OneLine "--scope ".toList := by decide
    have hend : OneLine " \x7d".toList := by decide
    exact hid.append (hflag.append (hscope.append hend))
  obtain ⟨hsource, hflag⟩ := scope_arguments scope
  have hcall := find?_wingetCall name honeLine ending
  simp only [List.append_assoc] at hcall ⊢
  simp only [consumerIn, hcall, occursIn, hsource, scopeOf, hflag]
  rfl

/-- A call with the store as its source has the default scope. -/
theorem consumerIn_store (name : VariableName) (ending : LineFeeds) (default : Text) :
    consumerIn (pipelineStart name ++ ("winget".toList ++ (" install ".toList ++
      (("--id $_.Id --source msstore".toList ++ " \x7d".toList) ++ ending.val)))) default =
        ⟨.wingetStore, default⟩ := by
  have honeLine : OneLine ("--id $_.Id --source msstore".toList ++ " \x7d".toList) := by decide
  have hsource : storeSource.occursIn
      (' ' :: ("--id $_.Id --source msstore".toList ++ " \x7d".toList)) = true := by decide
  have hcall := find?_wingetCall name honeLine ending
  simp only [consumerIn, hcall, hsource, if_true]

/-- A Chocolatey call is found behind the two tools that are looked for first. -/
theorem consumerIn_choco (name : VariableName) (ending : LineFeeds) (default : Text) :
    consumerIn (pipelineStart name ++ ("choco".toList ++ (" install ".toList ++
      (("$_.Id".toList ++ " \x7d".toList) ++ ending.val)))) default = ⟨.choco, default⟩ := by
  have hwinget : wingetCall.find? (pipelineStart name ++ ("choco".toList ++ (" install ".toList ++
      (("$_.Id".toList ++ " \x7d".toList) ++ ending.val)))) = none := by
    have hletters : ('c' :: "hoco install $_.Id \x7d".toList).any (sameLetter 'w') = false := by
      decide
    exact wingetCall_eq_none name (by decide) (by decide) hletters ending
  have hchoco : chocoWords.occursIn (pipelineStart name ++ ("choco".toList ++
      (" install ".toList ++ (("$_.Id".toList ++ " \x7d".toList) ++ ending.val)))) = true :=
    occursIn_pipeline name "choco".toList true _
  simp only [consumerIn, hwinget, hchoco, if_true]

/-- A Scoop call is found last. -/
theorem consumerIn_scoop (name : VariableName) (ending : LineFeeds) (default : Text) :
    consumerIn (pipelineStart name ++ ("scoop".toList ++ (" install ".toList ++
      (("$_.Id".toList ++ " \x7d".toList) ++ ending.val)))) default = ⟨.scoop, default⟩ := by
  have hwinget : wingetCall.find? (pipelineStart name ++ ("scoop".toList ++ (" install ".toList ++
      (("$_.Id".toList ++ " \x7d".toList) ++ ending.val)))) = none := by
    have hletters : ('s' :: "coop install $_.Id \x7d".toList).any (sameLetter 'w') = false := by
      decide
    exact wingetCall_eq_none name (by decide) (by decide) hletters ending
  have hchoco : chocoWords.occursIn (pipelineStart name ++ ("scoop".toList ++
      (" install ".toList ++ (("$_.Id".toList ++ " \x7d".toList) ++ ending.val)))) = false := by
    -- the one letter C in the command is that in the name of the other tool
    have hletters : ∀ fixed : Text, fixed.any (sameLetter 'c') = false → ∀ rest,
        chocoWords.PassesOver fixed rest :=
      fun fixed h => installWords_passesOver_letters h "hoco".toList true
    have hcommand : chocoWords.PassesOver ('s' :: "coop install $_.Id \x7d".toList) ending.val := by
      have hrest : chocoWords.PassesOver "oop install $_.Id \x7d".toList ending.val :=
        hletters _ (by decide) _
      refine (hletters ['s'] (by decide) _).append (hrest.cons fun prev => ?_)
      exact installWords_eq_none rfl true prev
    have hpassed := installWords_passesOver_pipeline name (by decide) (by decide) (by decide) ending
      (by decide) hcommand
    have hnone : chocoWords.first? (pipelineStart name ++ ("scoop".toList ++
        (" install ".toList ++ (("$_.Id".toList ++ " \x7d".toList) ++ ending.val)))) = none :=
      first?_eq_none_of_passesOver hpassed fun prev => installWords_eq_none rfl true prev
    rw [occursIn, hnone, Option.isSome_none]
  have hscoop : scoopWords.occursIn (pipelineStart name ++ ("scoop".toList ++
      (" install ".toList ++ (("$_.Id".toList ++ " \x7d".toList) ++ ending.val)))) = true :=
    occursIn_pipeline name "scoop".toList false _
  simp only [consumerIn, hwinget, hchoco, hscoop, Bool.false_eq_true, if_true, if_false]

/-- **The consumer that is read off a pipeline is the one that was written.** -/
theorem consumerIn_pipelineText (name : VariableName) (command : InstallCommand)
    (ending : LineFeeds) (default : Text) :
    consumerIn (pipelineText name command ++ ending.val) default =
      ⟨command.installer, command.scope default⟩ := by
  rw [pipelineText_append]
  cases command with
  | winget scope => exact consumerIn_winget name scope ending default
  | store => exact consumerIn_store name ending default
  | choco => exact consumerIn_choco name ending default
  | scoop => exact consumerIn_scoop name ending default

/-! ## The search for the consumer -/

/-- A window that starts behind the first part of a text is the beginning of the other part. -/
theorem window_append (t u : Text) {size : Int} (hsize : 0 ≤ size) :
    window (t ++ u) t.length (t.length + size) = u.take size.toNat := by
  have hfirst : bound (t ++ u).length t.length = t.length := by
    rw [bound, if_neg (by omega), List.length_append]
    omega
  have hlast : bound (t ++ u).length (t.length + size) = t.length + min size.toNat u.length := by
    rw [bound, if_neg (by omega), List.length_append]
    omega
  rw [window, hfirst, hlast, List.take_length_add_append, List.drop_left,
    ← List.take_eq_take_min]

/-- A written pipeline starts with the variable of its container. -/
theorem consumerStart_pipelineText (name : VariableName) (command : InstallCommand)
    (prev : Option Char) (rest : Text) :
    ∃ after, consumerStart name.val prev (pipelineText name command ++ rest) =
      some ((), after) := by
  obtain ⟨after, hafter⟩ : ∃ after, pipelineText name command ++ rest =
      '$' :: (name.val ++ '.' :: ("Values".toList ++ ' ' :: '|' :: after)) := by
    refine ⟨" ForEach-Object \x7b ".toList ++ (command.text ++ (" \x7d".toList ++ rest)), ?_⟩
    simp [pipelineText, pipelineStart]
  have hmember : elementsMember ("Values".toList ++ ' ' :: '|' :: after) =
      some (' ' :: '|' :: after) := by
    rw [elementsMember, anyKeyword, keyword_self]
    rfl
  have hpipe : symbol '|' (trimStart (' ' :: '|' :: after)) = some after := rfl
  refine ⟨after, ?_⟩
  rw [hafter]
  simp only [consumerStart, symbol_eq_some_iff.mpr rfl, keyword_self, hmember, hpipe, bind,
    Option.bind_some]
  rfl

/-- **The consumer of a variable is the one that was written**, if nothing before the pipeline is
taken for it and the look ahead reaches its end. -/
theorem consumerOf_pipelineText (name : VariableName) (command : InstallCommand)
    (ending : LineFeeds) {before : Text} {options : ScanOptions}
    (hbefore : (consumerStart name.val).PassesOver before (pipelineText name command ++ ending.val))
    (hahead : ((pipelineText name command).length : Int) ≤ options.loopLookahead) :
    consumerOf name.val (before ++ (pipelineText name command ++ ending.val)) options =
      ⟨command.installer, command.scope options.defaultScope⟩ := by
  obtain ⟨after, hstart⟩ := consumerStart_pipelineText name command before.getLast? ending.val
  have hfirst := first?_of_passesOver hbefore hstart
  have hreach : (pipelineText name command).length ≤ options.loopLookahead.toNat := by omega
  have hfeeds : (ending.val.take (options.loopLookahead.toNat -
      (pipelineText name command).length)).all (· == '\n') = true :=
    List.all_eq_true.mpr fun c hc => List.all_eq_true.mp ending.property c (List.mem_of_mem_take hc)
  have hwindow : window (before ++ (pipelineText name command ++ ending.val)) before.length
      (before.length + options.loopLookahead) =
        pipelineText name command ++ (⟨_, hfeeds⟩ : LineFeeds).val := by
    rw [window_append _ _ (by omega), List.take_append, List.take_of_length_le hreach]
  rw [consumerOf, hfirst]
  simp only [Hit.offset, List.length_reverse]
  rw [hwindow, consumerIn_pipelineText]

end SetupCatalog.Script
