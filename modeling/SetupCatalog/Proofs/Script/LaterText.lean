import SetupCatalog.Proofs.Pattern.Stop
import SetupCatalog.Proofs.Script.WindowEnd
import SetupCatalog.Proofs.Text.Lowering

/-!
# What comes later in a script

What consumes a variable is read off a window that starts at the first pipeline over the variable.
Everything that comes behind the window and behind the start of the pipeline can be something else:
further pipelines over the same variable, other containers and other calls are never attributed to
this one (`consumerOf_laterText`).

The start of a pipeline is recognised by what it has up to its pipe character (`consumerHead`), and
the first pipe character is the end of it. So no text behind the start can turn an earlier part of
the script into the start of a pipeline.
-/

namespace SetupCatalog.Script

open Text Pattern

/-! ## The start of a pipeline -/

/-- The member before a pipe is read in the same way whatever follows that pipe. -/
theorem elementsMember_append_pipe (t more : Text) :
    elementsMember (t ++ '|' :: more) = (elementsMember t).map (· ++ '|' :: more) := by
  have hvalues := @keyword_append_cons "Values".toList '|' (by decide)
  have hkeys := @keyword_append_cons "Keys".toList '|' (by decide)
  have henumerator := @keyword_append_cons "GetEnumerator(".toList '|' (by decide)
  simp only [elementsMember, anyKeyword, hvalues, hkeys, henumerator, bind]
  cases keyword "Values".toList t with
  | some rest => rfl
  | none =>
    cases keyword "Keys".toList t with
    | some rest => rfl
    | none =>
      cases keyword "GetEnumerator(".toList t with
      | none => rfl
      | some rest =>
        simp only [Option.map_none, Option.orElse_none, Option.map_some, Option.bind_some]
        rw [trimStart, dropWhile_append_stop (by decide), symbol_append_stop (by decide), trimStart]

/-- Reading a member goes forward. -/
theorem suffix_of_elementsMember {t rest : Text} (h : elementsMember t = some rest) :
    rest <:+ t := by
  rw [elementsMember, Option.orElse_eq_or, Option.or_eq_some_iff] at h
  rcases h with h | ⟨-, h⟩
  · exact suffix_of_anyKeyword h
  · obtain ⟨t', hkeyword, h⟩ := Option.bind_eq_some_iff.mp h
    exact (suffix_of_symbol h).trans <|
      (List.dropWhile_suffix isBlank).trans (suffix_of_keyword hkeyword)

/-- Reads the elements of a variable, as the start of a pipeline does before its pipe character. -/
def consumerHead (variableName t : Text) : Option Text := do
  let t ← symbol '$' t
  let t ← keyword variableName t
  let t ← symbol '.' t
  elementsMember t

/-- A loop over a container is its head, blanks and a pipe. -/
theorem consumerStart_eq_some_iff {variableName t rest : Text} {prev : Option Char} {u : Unit} :
    consumerStart variableName prev t = some (u, rest) ↔
      ∃ blanks, (∀ b ∈ blanks, isBlank b = true) ∧
        consumerHead variableName t = some (blanks ++ '|' :: rest) := by
  have hstart : consumerStart variableName prev t = (consumerHead variableName t).bind fun t =>
      (symbol '|' (trimStart t)).map ((), ·) := by
    simp only [consumerStart, consumerHead, bind, pure, Option.bind_assoc, Option.map_eq_bind,
      Function.comp_def]
  rw [hstart, Option.bind_eq_some_iff]
  constructor
  · rintro ⟨t', hhead, hpipe⟩
    obtain ⟨rest', hpipe, hsame⟩ := Option.map_eq_some_iff.mp hpipe
    obtain ⟨blanks, hblanks, rfl⟩ := (symbol_trimStart_eq_some_iff (by decide)).mp hpipe
    cases hsame
    exact ⟨blanks, hblanks, hhead⟩
  · rintro ⟨blanks, hblanks, hhead⟩
    refine ⟨_, hhead, ?_⟩
    rw [(symbol_trimStart_eq_some_iff (by decide)).mpr ⟨blanks, hblanks, rfl⟩, Option.map_some]

/-- Reading the head of a loop goes forward. -/
theorem suffix_of_consumerHead {variableName t rest : Text}
    (h : consumerHead variableName t = some rest) : rest <:+ t := by
  simp only [consumerHead, bind, Option.bind_eq_some_iff] at h
  obtain ⟨t₁, hdollar, t₂, hname, t₃, hdot, hmember⟩ := h
  exact (suffix_of_elementsMember hmember).trans <| (suffix_of_symbol hdot).trans <|
    (suffix_of_keyword hname).trans (suffix_of_symbol hdollar)

/-- No letter of a variable's name is written as a pipe character. -/
theorem VariableName.any_sameLetter_pipe (name : VariableName) :
    name.val.any (sameLetter · '|') = false := by
  refine any_eq_false_iff.mpr fun c hc => Bool.eq_false_iff.mpr fun hsame => ?_
  obtain rfl := (sameLetter_eq_true_iff (by decide) (by decide)).mp hsame
  have hword := List.all_eq_true.mp name.property.2 _ hc
  exact absurd hword (by decide)

/-- The head before a pipe is read in the same way whatever follows that pipe: no name has a pipe.
-/
theorem consumerHead_append_pipe (name : VariableName) (t more : Text) :
    consumerHead name.val (t ++ '|' :: more) =
      (consumerHead name.val t).map (· ++ '|' :: more) := by
  have hdollar := @symbol_append_stop '|' '$' (by decide)
  have hdot := @symbol_append_stop '|' '.' (by decide)
  have hname := keyword_append_cons name.any_sameLetter_pipe
  simp only [consumerHead, bind, hdollar, hname, hdot, elementsMember_append_pipe, Option.bind_map,
    Option.map_bind, Function.comp_def]

/-- A loop over a container is read up to a pipe and no further. -/
theorem consumerStart_endsAt (name : VariableName) : (consumerStart name.val).EndsAt '|' := by
  intro prev t u rest h
  obtain ⟨blanks, hblanks, hhead⟩ := consumerStart_eq_some_iff.mp h
  have hpipe : '|' ∈ t :=
    (suffix_of_consumerHead hhead).subset (List.mem_append_right _ List.mem_cons_self)
  obtain ⟨read, after, rfl, hread⟩ := List.eq_append_cons_of_mem hpipe
  rw [consumerHead_append_pipe, Option.map_eq_some_iff] at hhead
  obtain ⟨rest', hhead, hsplit⟩ := hhead
  have hpipe' : '|' ∉ rest' := fun hmem => hread ((suffix_of_consumerHead hhead).subset hmem)
  have hnot : '|' ∉ blanks := fun hmem => absurd (hblanks _ hmem) (by decide)
  obtain ⟨rfl, rfl⟩ := append_separator_inj hpipe' hnot hsplit
  refine ⟨read, hread, rfl, fun more => ?_⟩
  refine consumerStart_eq_some_iff.mpr ⟨rest', hblanks, ?_⟩
  rw [consumerHead_append_pipe, hhead, Option.map_some]

/-! ## The consumer -/

/-- **Later text does not change what consumes a variable.** Two scripts that agree up to the end of
the window, and up to the start of the first pipeline over the variable, have this pipeline as their
first one, at the same offset, and the same consumer. -/
theorem consumerOf_laterText {name : VariableName} {text later : Text} {options : ScanOptions}
    {start : Hit Unit} (hstart : (consumerStart name.val).first? text = some start)
    (hahead : 0 ≤ options.loopLookahead)
    (hagree :
      let reach := max (text.length - start.after.length)
        (start.offset + options.loopLookahead.toNat)
      later.take reach = text.take reach) :
    ((consumerStart name.val).first? later).map Hit.offset = some start.offset ∧
      consumerOf name.val later options = consumerOf name.val text options := by
  have hagreeOn : ∀ size ≤ max (text.length - start.after.length)
      (start.offset + options.loopLookahead.toNat), later.take size = text.take size := by
    intro size hsize
    have htake := congrArg (List.take size) hagree
    rwa [List.take_take, List.take_take, Nat.min_eq_left hsize] at htake
  -- the start is decided by the text up to the pipe, and the window reaches no further than the
  -- lookahead
  have hlater := (consumerStart_endsAt name).first?_of_take_eq hstart
    (hagreeOn _ (Nat.le_max_left _ _))
  refine ⟨by rw [hlater]; rfl, ?_⟩
  rw [consumerOf_of_first? hlater hahead, consumerOf_of_first? hstart hahead]
  refine congrArg (consumerIn · options.defaultScope) ?_
  show (later.drop start.offset).take _ = _
  rw [List.take_drop, List.take_drop, hagreeOn _ (Nat.le_max_right _ _)]

/-- A second pipeline over the variable does not count, nor does a call behind the window. -/
theorem consumerOf_laterText_choco :
    let name : VariableName := ⟨"A".toList, by decide⟩
    let text := "$A.Values | % \x7b choco install $_ \x7d".toList
    let later := text ++ "; $A.Keys | % \x7b winget install $_ \x7d".toList
    ((consumerStart name.val).first? later).map Hit.offset = some 0 ∧
      consumerOf name.val later { loopLookahead := 34 } = ⟨.choco, "machine".toList⟩ := by
  intro name text later
  have hstart : (consumerStart name.val).first? text =
      some ⟨[], (), " % \x7b choco install $_ \x7d".toList⟩ := rfl
  have hahead : 0 ≤ ({ loopLookahead := 34 } : ScanOptions).loopLookahead := by decide
  obtain ⟨hoffset, hconsumer⟩ :=
    @consumerOf_laterText name text later _ _ hstart hahead (by decide)
  exact ⟨hoffset, hconsumer.trans (by decide)⟩

end SetupCatalog.Script
