import SetupCatalog.Proofs.Pattern.Unified
import SetupCatalog.Proofs.Script.Nesting
import SetupCatalog.Proofs.Text.Uncased
import SetupCatalog.Script.Consumer

/-!
# Scripts with one kind of line break

The containers of a script and the calls in it do not depend on how its lines end: no brace, no
letter and no sign that a pattern looks for is a line end, and where a pattern reads blanks it reads
line ends of every kind. So a script has the same containers with unified texts
(`blocks_unified`), and a window has the same consumer (`consumerIn_unified`).

Where a window ends is another matter, as windows are measured in characters.
-/

namespace SetupCatalog.Script

open Text Pattern

/-! ## Containers -/

/-- A line break before a text belongs to the body that is read. -/
theorem bodyOf_break {b t : Text} (hb : BreakBefore b t) (depth : Nat) :
    bodyOf depth (b ++ t) = (bodyOf depth t).map fun (body, rest) => (b ++ body, rest) := by
  have hcons : ∀ {c : Char} (u : Text), isLineEnd c = true →
      bodyOf depth (c :: u) = (bodyOf depth u).map fun (body, rest) => (c :: body, rest) := by
    intro c u hc
    refine bodyOf_cons ?_ ?_ depth u
    · rintro rfl
      cases hc
    · rintro rfl
      cases hc
  cases hb with
  | pair =>
    rw [List.cons_append, List.cons_append, hcons _ rfl, hcons _ rfl, Option.map_map]
    rfl
  | feed | «return» => exact hcons t rfl

/-- A body is found in the same place under either spelling of the line breaks: no brace is one. -/
theorem bodyOf_unified (depth : Nat) (t : Text) :
    bodyOf depth (unifyBreaks t) =
      (bodyOf depth t).map (Prod.map unifyBreaks unifyBreaks) := by
  induction t using breaks_induction generalizing depth with
  | nil => rfl
  | inside c t hc ih =>
    have hfound : ∀ found : Option (Text × Text),
        (found.map (Prod.map unifyBreaks unifyBreaks)).map (fun (b, rest) => (c :: b, rest)) =
          (found.map fun (b, rest) => (c :: b, rest)).map (Prod.map unifyBreaks unifyBreaks) := by
      intro found
      rw [Option.map_map, Option.map_map]
      refine congrArg (fun f => Option.map f found) (funext fun (b, rest) => ?_)
      rw [Function.comp_apply, Function.comp_apply, Prod.map, Prod.map, unifyBreaks_cons hc]
    rw [unifyBreaks_cons hc]
    by_cases hopen : c = '{'
    · subst hopen
      rw [bodyOf_open, bodyOf_open, ih, hfound]
    · by_cases hclose : c = '}'
      · subst hclose
        cases depth with
        | zero => rfl
        | succ depth => rw [bodyOf_close_succ, bodyOf_close_succ, ih, hfound]
      · rw [bodyOf_cons hopen hclose, bodyOf_cons hopen hclose, ih, hfound]
  | lineBreak b t hb ih =>
    rw [unifyBreaks_break hb, bodyOf_break hb, Option.map_map]
    refine (bodyOf_break (.feed _) depth).trans ?_
    rw [ih, Option.map_map]
    refine Option.map_congr fun (body, rest) hbody => ?_
    -- the break is still whole before the body, which is a beginning of the text
    have hwhole : BreakBefore b body := by
      cases hb with
      | pair => exact .pair _
      | feed => exact .feed _
      | «return» h =>
        refine .return fun hhead => h ?_
        obtain ⟨u, rfl⟩ := List.head?_eq_some_iff.mp hhead
        rw [bodyOf_eq_some hbody]
        rfl
    rw [Function.comp_apply, Function.comp_apply, Prod.map, Prod.map, unifyBreaks_break hwhole]
    rfl

/-- A block starts in the same place under either spelling of the line breaks. -/
theorem blockStart_unified : blockStart.ReadsUnified id where
  reads prev t := by
    simp only [blockStart, bind, pure, @symbol_unified '$' rfl, @symbol_unified '=' rfl,
      @symbol_unified '@' rfl, @symbol_unified '{' rfl, Option.bind_map, Option.map_bind,
      Function.comp_def, any_head?_unifyBreaks (show BreakBlind startsVariable by decide),
      takeWhile_unifyBreaks_inside (show BreakBlind isWord by decide) rfl,
      dropWhile_unifyBreaks (show BreakBlind isWord by decide), trimStart_unifyBreaks,
      Option.map_some, Prod.map, id]
  lineEnd prev c t hc := by
    rw [blockStart, symbol_lineEnd rfl hc]
    rfl

/-- An opener ends with a brace. -/
theorem leavesBreaksWhole_blockStart : blockStart.LeavesBreaksWhole := by
  intro prev t name after h
  obtain ⟨opener, hopener, rfl⟩ := blockStart_eq_some_iff.mp h
  obtain ⟨front, rfl, -⟩ := hopener.form
  rw [← List.cons_append, List.append_assoc]
  refine ⟨(leavesWhole_cons rfl after).append _, ?_⟩
  rw [List.length_append, List.length_append, List.length_singleton]
  omega

/-- The containers of a script and of the unified script have the same names, and the same bodies up
to line breaks. -/
theorem blocks_unified (t : Text) :
    (blocks (unifyBreaks t)).map (fun b => (b.variableName, b.body)) =
      (blocks t).map fun b => (b.variableName, unifyBreaks b.body) := by
  rw [blocks, all_unified blockStart_unified leavesBreaksWhole_blockStart, blocks,
    List.filterMap_map, List.map_filterMap, List.map_filterMap]
  refine List.filterMap_congr fun start _ => ?_
  rw [Function.comp_apply, Hit.unified, bodyOf_unified, Option.map_map, Option.map_map,
    Option.map_map]
  rfl

/-! ## Calls -/

/-- The words of a call are read in the same way under either spelling of the line breaks. -/
theorem installWords_unified {w : Char} {tool : Text} (htool : isOneLineWord (w :: tool) = true)
    (suffix : Bool) : (installWords (w :: tool) suffix).ReadsUnified id where
  reads prev t := by
    -- the file extension is optional, so it is looked at on its own
    have hexe : ∀ t : Text, (if suffix then ((keyword ".exe".toList t).map unifyBreaks).getD
        (unifyBreaks t) else unifyBreaks t) =
          unifyBreaks (if suffix then (keyword ".exe".toList t).getD t else t) := by
      intro t
      cases suffix with
      | false => rfl
      | true =>
        rw [if_pos rfl, if_pos rfl]
        cases keyword ".exe".toList t <;> rfl
    simp only [installWords, bind, pure, wordStarts_map_unifyChar, keyword_unified htool,
      keyword_unified (show isOneLineWord ".exe".toList = true by decide), hexe,
      keyword_unified (show isOneLineWord "install".toList = true by decide),
      someBlanks_unified, Option.bind_map, Option.map_bind, Function.comp_def, wordEnds_unified,
      Option.map_some, Prod.map, id]
  lineEnd prev c t hc := by
    rw [installWords, keyword_lineEnd htool hc]
    cases wordStarts prev <;> rfl

/-- Arguments after words that read in the same way are the same, as they end with the line. -/
theorem withArguments_unified {words : Pattern Unit} (h : words.ReadsUnified id) :
    (withArguments words).ReadsUnified id where
  reads prev t := by
    simp only [withArguments, bind, pure, h.reads prev t, Option.bind_map, Option.map_bind,
      Function.comp_def, Prod.map, restOfLine_unified, Option.map_some]
  lineEnd prev c t hc := by
    rw [withArguments, h.lineEnd prev c t hc]
    rfl

/-- The words of a `winget` call, under either spelling. -/
theorem wingetWords_unified : wingetWords.ReadsUnified id :=
  installWords_unified (by decide) true

/-- The words of a `choco` call, under either spelling. -/
theorem chocoWords_unified : chocoWords.ReadsUnified id :=
  installWords_unified (by decide) true

/-- The words of a `scoop` call, under either spelling. -/
theorem scoopWords_unified : scoopWords.ReadsUnified id :=
  installWords_unified (by decide) false

/-! ## Consumers -/

/-- Word characters spell no line end. -/
theorem isOneLineWord_of_isWord {name : Text} (h : ∀ c ∈ name, isWord c = true) :
    isOneLineWord name = true := by
  refine List.all_eq_true.mpr fun w hw => ?_
  have hsmall : isBlank (lowerChar w) = false :=
    isBlank_lowerChar (isBlank_eq_false_of_isWord (h w hw))
  rw [sameLetter_eq_false_of_isBlank hsmall rfl,
    sameLetter_eq_false_of_isBlank hsmall rfl]
  rfl

/-- The name of a container can only be spelt on one line. -/
theorem isOneLineWord_of_mem_blocks {text : Text} {b : Block} (h : b ∈ blocks text) :
    isOneLineWord b.variableName = true := by
  obtain ⟨start, hstart, hb⟩ := List.mem_filterMap.mp h
  obtain ⟨⟨body, rest⟩, -, rfl⟩ := Option.map_eq_some_iff.mp hb
  obtain ⟨after, -, hread⟩ := exists_of_mem_all hstart
  obtain ⟨opener, ⟨c, others, -, -, hname, hc, hothers, -⟩, -⟩ := blockStart_eq_some_iff.mp hread
  apply isOneLineWord_of_isWord
  rw [hname]
  exact List.forall_mem_cons.mpr ⟨isWord_of_startsVariable hc, hothers⟩

/-- The member before a pipe, under either spelling. -/
theorem elementsMember_unified (t : Text) :
    elementsMember (unifyBreaks t) = (elementsMember t).map unifyBreaks := by
  have hmembers : ∀ word ∈ ["Values".toList, "Keys".toList], isOneLineWord word = true := by
    decide
  rw [elementsMember, anyKeyword_unified hmembers, elementsMember]
  cases anyKeyword ["Values".toList, "Keys".toList] t with
  | some rest => rfl
  | none =>
    simp only [bind, trimStart_unifyBreaks, @symbol_unified ')' rfl,
      keyword_unified (show isOneLineWord "GetEnumerator(".toList = true by decide),
      Option.bind_map, Option.map_none, Option.orElse_none, Option.map_bind, Function.comp_def]

/-- The start of a loop over a container, under either spelling. -/
theorem consumerStart_unified {variableName : Text} (hname : isOneLineWord variableName = true) :
    (consumerStart variableName).ReadsUnified id where
  reads prev t := by
    simp only [consumerStart, bind, pure, @symbol_unified '$' rfl, @symbol_unified '.' rfl,
      @symbol_unified '|' rfl, keyword_unified hname,
      elementsMember_unified, trimStart_unifyBreaks, Option.bind_map, Option.map_bind,
      Function.comp_def, Option.map_some, Prod.map, id]
  lineEnd prev c t hc := by
    rw [consumerStart, symbol_lineEnd rfl hc]
    rfl

/-- The install call of a window does not depend on how its lines end. -/
theorem consumerIn_unified (window defaultScope : Text) :
    consumerIn (unifyBreaks window) defaultScope = consumerIn window defaultScope := by
  have hwinget : wingetCall.find? (unifyBreaks window) = wingetCall.find? window := by
    rw [wingetCall, find?_unified (withArguments_unified wingetWords_unified), Option.map_id_fun,
      id]
  rw [consumerIn, hwinget, occursIn_unified chocoWords_unified, occursIn_unified scoopWords_unified,
    consumerIn]

end SetupCatalog.Script
