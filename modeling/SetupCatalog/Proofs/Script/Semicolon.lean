import SetupCatalog.Proofs.Pattern.Stop
import SetupCatalog.Proofs.Script.Comment
import SetupCatalog.Proofs.Script.Invocation

/-!
# Calls before a semicolon

A semicolon ends a statement, but the patterns for calls take the rest of the line as arguments.
What they read up to the arguments has no semicolon in it. So the call in a statement is the call of
the whole line, and its arguments go on behind the semicolon with the next statement
(`find?_append_semicolon`). The scope that the arguments give is the first one of either statement
(`scopeOf_append_semicolon`).
-/

namespace SetupCatalog.Script

open Text Pattern

/-! ## Lines with a semicolon -/

/-- No loop variable is read across a semicolon. -/
theorem loopVariable_stopsAt : loopVariable.StopsAt ';' := by
  intro prev t more
  have hname : ∀ t : Text,
      (symbol '_' (t ++ ';' :: more)).orElse
          (fun _ => keyword "PSItem".toList (t ++ ';' :: more)) =
        ((symbol '_' t).orElse fun _ => keyword "PSItem".toList t).map (· ++ ';' :: more) := by
    intro t
    rw [symbol_append_stop (by decide), keyword_append_cons (by decide), Option.orElse_eq_or,
      Option.orElse_eq_or, Option.map_or]
  simp only [loopVariable, bind, pure, symbol_append_stop (show ';' ≠ '$' by decide), hname,
    wordEnds_append_stop (show isWord ';' = false by decide), Option.bind_map, Option.map_bind,
    Function.comp_def, Option.map_some]

/-- A line uses the variable of a loop if one of its statements does. -/
theorem usesLoopVariable_append_semicolon (first second : Text) :
    usesLoopVariable (first ++ ';' :: second) =
      (usesLoopVariable first || usesLoopVariable second) :=
  loopVariable_stopsAt.occursIn (fun _ => rfl) first second

/-- A statement after another one starts no comment. -/
theorem isComment_append_semicolon {first : Text} (h : isComment first = false) (second : Text) :
    isComment (first ++ ';' :: second) = false := by
  rw [List.append_cons, isComment_append ⟨';', by simp, by decide⟩,
    isComment_append_singleton h (by decide)]

/-! ## Calls and their arguments -/

/-- The words of an install call are not read across a semicolon. -/
theorem installWords_stopsAt {tool : Text} (htool : tool.any (sameLetter · ';') = false)
    (suffix : Bool) : (installWords tool suffix).StopsAt ';' := by
  intro prev t more
  have hending : ∀ t : Text,
      (if suffix then (keyword ".exe".toList (t ++ ';' :: more)).getD (t ++ ';' :: more)
        else t ++ ';' :: more) =
        (if suffix then (keyword ".exe".toList t).getD t else t) ++ ';' :: more := by
    intro t
    cases suffix with
    | false => rfl
    | true =>
      rw [if_pos rfl, if_pos rfl, keyword_append_cons (by decide)]
      cases keyword ".exe".toList t <;> rfl
  simp only [installWords, bind, pure, keyword_append_cons htool, hending,
    someBlanks_append_stop (show isBlank ';' = false by decide),
    keyword_append_cons (show "install".toList.any (sameLetter · ';') = false by decide),
    wordEnds_append_stop (show isWord ';' = false by decide), Option.bind_map, Option.map_bind,
    Function.comp_def, Option.map_some]

/-- The call in a statement is the call of a line that goes on behind it, and so do its arguments.
`words` are what a call starts with, and `rest` are its arguments. -/
theorem find?_append_semicolon {call : Pattern Text} {words : Pattern Unit}
    (rest : Text → Text × Text)
    (hcall : ∀ prev t, call prev t = (words prev t).map fun found => rest found.2)
    (hwords : words.StopsAt ';') (hsuffix : ∀ {prev t u}, words prev t = some ((), u) → u <:+ t)
    (hrest : ∀ {t : Text}, (∀ c ∈ t, isLineBreak c = false) → (rest t).1 = t)
    {first second arguments : Text} (hfirst : ∀ c ∈ first, isLineBreak c = false)
    (hsecond : ∀ c ∈ second, isLineBreak c = false) (h : call.find? first = some arguments) :
    call.find? (first ++ ';' :: second) = some (arguments ++ ';' :: second) := by
  have hfind := find?_of_eq_map (f := fun _ => rest) hcall
  rw [hfind, Option.map_eq_some_iff] at h
  obtain ⟨hit, hhit, hfound⟩ := h
  obtain ⟨behind, hbehind, hread, -⟩ := first?_eq_some_iff.mp hhit
  -- what is left behind the words is on the line too, so the arguments go up to its end
  have hafter : ∀ c ∈ hit.after, isLineBreak c = false := by
    intro c hc
    refine hfirst c ?_
    rw [hbehind]
    exact List.mem_append_right _ ((hsuffix hread).subset hc)
  rw [hrest hafter] at hfound
  rw [hfind, hwords.first?_of_some hhit, Option.map_some, hrest, hfound]
  intro c hc
  rcases List.mem_append.mp hc with hc | hc
  · exact hafter c hc
  · rcases List.mem_cons.mp hc with rfl | hc
    · decide
    · exact hsecond c hc

/-- A call that takes the rest of its line as arguments. -/
theorem find?_withArguments_append {tool first second arguments : Text} {suffix : Bool}
    (htool : tool.any (sameLetter · ';') = false) (hfirst : ∀ c ∈ first, isLineBreak c = false)
    (hsecond : ∀ c ∈ second, isLineBreak c = false)
    (h : (withArguments (installWords tool suffix)).find? first = some arguments) :
    (withArguments (installWords tool suffix)).find? (first ++ ';' :: second) =
      some (arguments ++ ';' :: second) := by
  have hcall : ∀ prev t, withArguments (installWords tool suffix) prev t =
      (installWords tool suffix prev t).map fun found => restOfLine found.2 := by
    intro prev t
    rw [withArguments]
    cases installWords tool suffix prev t <;> rfl
  refine find?_append_semicolon restOfLine hcall (installWords_stopsAt htool suffix)
    suffix_of_installWords (fun {t} ht => ?_) hfirst hsecond h
  refine List.takeWhile_eq_self_iff.mpr fun c hc => ?_
  rw [Bool.not_eq_true', Bool.eq_false_iff]
  intro hend
  have hbreak := ht c hc
  rw [isLineBreak_of_isLineEnd hend] at hbreak
  cases hbreak

/-! ## The scope -/

/-- No scope flag is read across a semicolon. -/
theorem scopeFlag_stopsAt : scopeFlag.StopsAt ';' := by
  intro prev t more
  rw [scopeFlag_eq, scopeFlag_eq, keyword_append_cons (by decide), Option.bind_map, Option.map_bind]
  exact congrArg _ (funext fun t =>
    scopeRest_append_stop (by decide) (by decide) (by decide) (by decide) t more)

/-- The arguments that go on behind a semicolon give the scope of either statement, the first one
first. -/
theorem scopeOf_append_semicolon (arguments second default : Text) :
    scopeOf (arguments ++ ';' :: second) default =
      ((scopeFlag.find? arguments).or (scopeFlag.find? second)).getD default := by
  rw [scopeOf, scopeFlag_stopsAt.find? fun _ => rfl]

end SetupCatalog.Script
