import SetupCatalog.Proofs.Script.Invocation
import SetupCatalog.Proofs.Script.WrittenPipeline

/-!
# Windows that end inside a call

The call that consumes a variable is looked for in a window, and the window can end inside the call.
Then the arguments of the call are those in the window: what comes after it does not count. That is
how far windows are meant to reach.

What is found in such a part of the arguments is in the whole line, though, as long as the window
does not end inside a word: the call is one of the script, a flag for the store is a flag of its
line, and a scope is the one that the line gives, all of it. If the window reaches the end of the
line, nothing is missing. `consumerOf_call` says all this.
-/

namespace SetupCatalog.Script

open Text Pattern

/-- What a call of winget with the given arguments installs with. -/
def wingetConsumer (arguments defaultScope : Text) : Consumer :=
  if storeSource.occursIn arguments then ⟨.wingetStore, defaultScope⟩
  else ⟨.winget, scopeOf arguments defaultScope⟩

/-! ## The call in the window -/

/-- A call is its words and then the rest of the line. -/
theorem wingetCall_eq_some_iff {prev : Option Char} {t line after : Text} :
    wingetCall prev t = some (line, after) ↔
      ∃ rest, wingetWords prev t = some ((), rest) ∧ restOfLine rest = (line, after) := by
  simp only [wingetCall, withArguments, bind, Option.bind_eq_some_iff, Prod.exists, pure,
    Option.some.injEq]
  constructor
  · rintro ⟨_, rest, h⟩
    exact ⟨rest, h⟩
  · rintro ⟨rest, h⟩
    exact ⟨(), rest, h⟩

/-- The first call of a window decides. -/
theorem consumerIn_of_first? {window : Text} {call : Hit Unit}
    (h : wingetWords.first? window = some call) (defaultScope : Text) :
    consumerIn window defaultScope = wingetConsumer (restOfLine call.after).1 defaultScope := by
  obtain ⟨rest, hwindow, hread, hno⟩ := first?_eq_some_iff.mp h
  have hfind : wingetCall.find? window = some (restOfLine call.after).1 := by
    refine find?_eq_some_iff.mpr ⟨call.before.reverse, rest, (restOfLine call.after).2, hwindow, ?_,
      fun u c v hsplit => ?_⟩
    · rw [List.getLast?_reverse]
      exact wingetCall_eq_some_iff.mpr ⟨call.after, hread, rfl⟩
    · rw [Option.eq_none_iff_forall_ne_some]
      rintro ⟨line, after⟩ hcall
      obtain ⟨more, hwords, -⟩ := wingetCall_eq_some_iff.mp hcall
      rw [hno u c v hsplit] at hwords
      cases hwords
  rw [consumerIn, hfind]
  rfl

/-! ## The line of the call -/

/-- A line that has ended is not changed by what follows. -/
theorem restOfLine_of_ne {t : Text} (h : (restOfLine t).1 ≠ t) (more : Text) :
    (restOfLine (t ++ more)).1 = (restOfLine t).1 := by
  rw [restOfLine, List.takeWhile_append, if_neg]
  · rfl
  · exact fun hlength => h ((List.takeWhile_prefix _).eq_of_length hlength)

/-- A line that has not ended goes on over what follows. -/
theorem restOfLine_of_eq {t : Text} (h : (restOfLine t).1 = t) (more : Text) :
    (restOfLine (t ++ more)).1 = t ++ (restOfLine more).1 := by
  have hlength : (t.takeWhile fun c => !isLineEnd c).length = t.length := congrArg List.length h
  rw [restOfLine, List.takeWhile_append, if_pos hlength]
  rfl

/-- At a line's end, nothing of it is left. -/
theorem restOfLine_eq_nil {t : Text} (h : t.head?.all isLineEnd = true) :
    (restOfLine t).1 = [] := by
  cases t with
  | nil => rfl
  | cons c t =>
    have hc : isLineEnd c = true := h
    rw [restOfLine, List.takeWhile_cons_of_neg (by simp [hc])]

/-- What is found in the part of a line that a text has is found in the line, if the part does not
end inside a word. If the text reaches the end of the line, the part is the line. -/
theorem restOfLine_goesOn {t more : Text} (hcut : (restOfLine t).1 = t → cutsWord t more = false) :
    (storeSource.occursIn (restOfLine t).1 = true →
      storeSource.occursIn (restOfLine (t ++ more)).1 = true) ∧
    (∀ scope, scopeFlag.find? (restOfLine t).1 = some scope →
      scopeFlag.find? (restOfLine (t ++ more)).1 = some scope) ∧
    (((restOfLine t).1 = t → more.head?.all isLineEnd = true) →
      (restOfLine (t ++ more)).1 = (restOfLine t).1) := by
  by_cases hends : (restOfLine t).1 = t
  · have hno : cutsWord t (restOfLine more).1 = false := cutsWord_takeWhile (hcut hends) _
    rw [restOfLine_of_eq hends, hends]
    refine ⟨fun h => storeSource_readsOn.occursIn h hno,
      fun scope h => find?_scopeFlag_append h hno, fun h => ?_⟩
    rw [restOfLine_eq_nil (h rfl), List.append_nil]
  · rw [restOfLine_of_ne hends]
    exact ⟨id, fun _ => id, fun _ => rfl⟩

/-- A pipeline over a variable starts with another character than a call. -/
theorem wingetWords_consumerStart {variableName t : Text} {prev prev' : Option Char}
    {found : Unit × Text} (h : consumerStart variableName prev t = some found) (size : Nat) :
    wingetWords prev' (t.take size) = none := by
  simp only [consumerStart, bind, Option.bind_eq_some_iff] at h
  obtain ⟨u, hdollar, -⟩ := h
  obtain rfl := symbol_eq_some_iff.mp hdollar
  refine installWords_eq_none ?_ true prev'
  cases size with
  | zero => rfl
  | succ size => exact keyword_cons_eq_none (by decide)

/-- A call in the window of a pipeline does not come first in it. -/
theorem before_ne_nil_of_first? {variableName t : Text} {prev : Option Char}
    {found : Unit × Text} (h : consumerStart variableName prev t = some found) {size : Nat}
    {call : Hit Unit} (hcall : wingetWords.first? (t.take size) = some call) :
    call.before ≠ [] := by
  intro hnil
  obtain ⟨rest, hwindow, hread, -⟩ := first?_eq_some_iff.mp hcall
  rw [hnil, List.reverse_nil, List.nil_append] at hwindow
  rw [← hwindow, wingetWords_consumerStart h] at hread
  cases hread

/-- The first call of a window is a call of the text around the window. -/
theorem exists_wingetCall_of_first? {window beyond : Text} {call : Hit Unit}
    (hcall : wingetWords.first? window = some call) (hbefore : call.before ≠ [])
    (hcut : (restOfLine call.after).1 = call.after → cutsWord window beyond = false)
    (front : Text) :
    let text := front ++ (window ++ beyond)
    let spot := front.length + call.offset
    ∃ after, wingetCall (text.take spot).getLast? (text.drop spot) =
      some ((restOfLine (call.after ++ beyond)).1, after) := by
  intro text spot
  obtain ⟨rest, hwindow, hread, -⟩ := first?_eq_some_iff.mp hcall
  have hrest : rest <:+ window := ⟨call.before.reverse, hwindow.symm⟩
  have hgoesOn : wingetWords call.before.head? (rest ++ beyond) =
      some ((), call.after ++ beyond) := by
    refine installWords_readsOn _ _ hread fun hnil => cutsWord_of_suffix hrest (hcut ?_)
    rw [hnil]
    rfl
  have hspot : text = front ++ call.before.reverse ++ (rest ++ beyond) := by
    show front ++ (window ++ beyond) = _
    rw [hwindow, List.append_assoc, List.append_assoc]
  have hlength : spot = (front ++ call.before.reverse).length := by
    rw [List.length_append, List.length_reverse]
    rfl
  -- the character before the call is in the window, so what is in front of it does not matter
  obtain ⟨c, others, hcons⟩ := List.exists_cons_of_ne_nil hbefore
  rw [hlength, hspot, List.take_left, List.drop_left, List.getLast?_append,
    List.getLast?_reverse, hcons, List.head?_cons, Option.some_or]
  rw [hcons, List.head?_cons] at hgoesOn
  exact ⟨_, wingetCall_eq_some_iff.mpr ⟨call.after ++ beyond, hgoesOn, rfl⟩⟩

/-- The consumer is read off the text that starts at the first pipeline. -/
theorem consumerOf_of_first? {variableName text : Text} {options : ScanOptions} {start : Hit Unit}
    (hstart : (consumerStart variableName).first? text = some start)
    (hahead : 0 ≤ options.loopLookahead) :
    consumerOf variableName text options =
      consumerIn ((text.drop start.offset).take options.loopLookahead.toNat)
        options.defaultScope := by
  obtain ⟨t, htext, -⟩ := first?_eq_some_iff.mp hstart
  have hlength : start.before.reverse.length = start.offset := List.length_reverse
  have hwindow := window_append start.before.reverse t hahead
  rw [hlength] at hwindow
  rw [consumerOf, hstart, htext]
  dsimp only
  rw [hwindow, ← hlength, List.drop_left]

/-- **A window that ends inside a call decides by the arguments that it has.** What consumes a
variable is what the part of the first call's line that lies in the window says. Unless the window
ends inside a word of this line, the call is one of the script, a flag for the store that is found
in the part is on the line, and a scope that is found there is the scope of the line; and if the
window reaches the end of the line, the whole line decides. -/
theorem consumerOf_call {variableName text : Text} {options : ScanOptions} {start call : Hit Unit}
    (hstart : (consumerStart variableName).first? text = some start)
    (hahead : 0 ≤ options.loopLookahead)
    (hcall : wingetWords.first?
      ((text.drop start.offset).take options.loopLookahead.toNat) = some call) :
    let window := (text.drop start.offset).take options.loopLookahead.toNat
    let beyond := (text.drop start.offset).drop options.loopLookahead.toNat
    let spot := start.offset + call.offset
    let seen := (restOfLine call.after).1
    let line := (restOfLine (call.after ++ beyond)).1
    let found := consumerOf variableName text options
    found = wingetConsumer seen options.defaultScope ∧
    ((seen = call.after → cutsWord window beyond = false) →
      (∃ after, wingetCall (text.take spot).getLast? (text.drop spot) = some (line, after)) ∧
      (storeSource.occursIn seen = true → storeSource.occursIn line = true) ∧
      (∀ scope, scopeFlag.find? seen = some scope → scopeFlag.find? line = some scope) ∧
      ((seen = call.after → beyond.head?.all isLineEnd = true) →
        found = wingetConsumer line options.defaultScope)) := by
  intro window beyond spot seen line found
  obtain ⟨t, htext, hpipeline, -⟩ := first?_eq_some_iff.mp hstart
  have hdrop : text.drop start.offset = t := by
    rw [htext, Hit.offset, ← List.length_reverse, List.drop_left]
  have hfound : found = wingetConsumer seen options.defaultScope :=
    (consumerOf_of_first? hstart hahead).trans (consumerIn_of_first? hcall options.defaultScope)
  refine ⟨hfound, fun hcut => ?_⟩
  obtain ⟨rest, hwindow, hread, -⟩ := first?_eq_some_iff.mp hcall
  have hafter : call.after <:+ window :=
    (suffix_of_installWords hread).trans ⟨call.before.reverse, hwindow.symm⟩
  -- the line in the window is a front of the line in the text, cut between words
  obtain ⟨hstore, hscope, hwhole⟩ :=
    restOfLine_goesOn fun h => cutsWord_of_suffix hafter (hcut h)
  refine ⟨?_, hstore, hscope, fun h => ?_⟩
  · have hbefore : call.before ≠ [] := before_ne_nil_of_first? hpipeline (hdrop ▸ hcall)
    have hall : start.before.reverse ++ (window ++ beyond) = text := by
      rw [List.take_append_drop, hdrop, ← htext]
    have hcallOfText := exists_wingetCall_of_first? hcall hbefore hcut start.before.reverse
    rwa [hall, List.length_reverse] at hcallOfText
  · rw [hfound]
    exact congrArg (wingetConsumer · options.defaultScope) (hwhole h).symm

/-- A window that ends behind a scope has all of it. -/
theorem consumerOf_call_user :
    let text := "$A.Values | % \x7b winget install --scope user --force".toList
    consumerOf "A".toList text { loopLookahead := 43 } = ⟨.winget, "user".toList⟩ ∧
      (∃ after, wingetCall (text.take 16).getLast? (text.drop 16) =
        some (" --scope user --force".toList, after)) ∧
      scopeFlag.find? " --scope user --force".toList = some "user".toList := by
  intro text
  have hstart : (consumerStart "A".toList).first? text =
      some ⟨[], (), " % \x7b winget install --scope user --force".toList⟩ := by
    rfl
  have hcall : wingetWords.first? ((text.drop 0).take 43) =
      some ⟨"$A.Values | % \x7b ".toList.reverse, (), " --scope user".toList⟩ := by
    rfl
  have hahead : 0 ≤ ({ loopLookahead := 43 } : ScanOptions).loopLookahead := by decide
  obtain ⟨hfound, hgoesOn⟩ := consumerOf_call hstart hahead hcall
  obtain ⟨hline, -, hscope, -⟩ := hgoesOn (by decide)
  exact ⟨hfound.trans (by decide), hline, hscope _ (by decide)⟩

/-- A window can end inside a scope or before a flag that the line of the call has. -/
theorem consumerOf_ne_wingetConsumer :
    (let text := "$A.Values | % \x7b winget install --scope machine \x7d".toList
     ∃ line, wingetCall.find? text = some line ∧
      wingetConsumer line "machine".toList = ⟨.winget, "machine".toList⟩ ∧
      consumerOf "A".toList text { loopLookahead := 43 } = ⟨.winget, "mach".toList⟩) ∧
    (let text := "$A.Values | % \x7b winget install $_ --source msstore \x7d".toList
     ∃ line, wingetCall.find? text = some line ∧
      wingetConsumer line "machine".toList = ⟨.wingetStore, "machine".toList⟩ ∧
      consumerOf "A".toList text { loopLookahead := 43 } = ⟨.winget, "machine".toList⟩) := by
  refine ⟨⟨" --scope machine \x7d".toList, ?_⟩, " $_ --source msstore \x7d".toList, ?_⟩
  · decide
  · decide

end SetupCatalog.Script
