import SetupCatalog.Proofs.Rule.LiveLine
import SetupCatalog.Proofs.Rule.SideloadUnified
import SetupCatalog.Proofs.Script.Unified
import SetupCatalog.Proofs.Script.WrittenPipeline
import SetupCatalog.Proofs.Text.Unit

/-!
# Rules and line breaks

What the rules recognise in a script does not depend on how its lines end, with two exceptions. A
window ends after a number of characters, so a script has less in its windows where its lines end
with two characters each. And what stands before a piped array is read back to a line feed, so a
carriage return alone does not end the comment before it. A script that `ReadsAlike` is one where
neither makes a difference: its windows read the same whether a carriage return and a line feed
count once or twice, and so do the lines before its piped arrays whether a carriage return ends them
or not.

The rules are gone through one by one, and `candidates_unified` says of each of them that it
recognises the same packages in the script with one kind of line break.
-/

namespace SetupCatalog

open Text Pattern Script

/-! ## Consumers of containers -/

/-- A script consumes a variable with the same installer however its lines end, if the window that
its first pipeline opens reads the same. -/
theorem Script.consumerOf_unified {variableName text : Text} {options : ScanOptions}
    (hname : isOneLineWord variableName = true) (hsize : 0 ≤ options.loopLookahead)
    (hwindow : ∀ hit, (consumerStart variableName).first? text = some hit →
      consumerIn (takeUnits options.loopLookahead.toNat (text.drop hit.offset))
          options.defaultScope =
        consumerIn ((text.drop hit.offset).take options.loopLookahead.toNat)
          options.defaultScope) :
    consumerOf variableName (unifyBreaks text) options = consumerOf variableName text options := by
  have hreads := consumerStart_unified hname
  rw [consumerOf, first?_unified hreads, consumerOf]
  cases hhit : (consumerStart variableName).first? text with
  | none => rfl
  | some hit =>
    obtain ⟨rest, ht, -, hunified⟩ := unifyBreaks_of_first? hreads hhit
    -- the start stands at the same spot once the text before it is unified
    have hrest : text.drop hit.offset = rest := by
      rw [ht]
      exact List.drop_left' (List.length_reverse)
    have hwhole := hwindow hit hhit
    rw [hrest] at hwhole
    have hlength : (hit.unified id).offset = (unifyBefore hit.before).reverse.length :=
      List.length_reverse.symm
    have hlength' : hit.offset = hit.before.reverse.length := List.length_reverse.symm
    rw [Option.map_some]
    dsimp only
    rw [hlength, hlength', hunified, window_append _ _ hsize, ← unifyBreaks_takeUnits,
      consumerIn_unified, hwhole]
    conv_rhs => rw [ht, window_append _ _ hsize]

namespace Rule

/-! ## Containers -/

namespace Container

/-- Whether some line might declare a package need not be asked: the lines say so themselves. -/
theorem candidates_eq (options : ScanOptions) (script text : Text) :
    candidates options script text =
      ((blocks text).map fun b => (b.variableName, b.body)).flatMap fun (name, body) =>
        if (consumerOf name text options).isUnknown then []
        else (lines body).filterMap (declared? script (consumerOf name text options)) := by
  rw [candidates, List.flatMap_map]
  refine List.flatMap_congr fun b hb => ?_
  dsimp only
  cases hids : declaresIds b with
  | true => rfl
  | false =>
    -- a block without identities has no line that gives one, so skipping it changes nothing
    have hnone : entries script (consumerOf b.variableName text options) b = [] := by
      refine List.filterMap_eq_nil_iff.mpr fun line hline => ?_
      cases hdeclared : declared? script (consumerOf b.variableName text options) line with
      | none => rfl
      | some p =>
        obtain ⟨-, value, hvalue, -⟩ := declared?_eq_some_iff.mp hdeclared
        rw [declaresIds, occursIn_of_find?_line hline hvalue] at hids
        cases hids
    rw [Bool.not_false, Bool.true_or, if_pos rfl, ← entries, hnone, ite_self]

/-- Containers declare the same, if their consumers are the same. -/
theorem candidates_unified {options : ScanOptions} {text : Text} (script : Text)
    (hconsumer : ∀ b ∈ blocks text, consumerOf b.variableName (unifyBreaks text) options =
      consumerOf b.variableName text options) :
    candidates options script (unifyBreaks text) = candidates options script text := by
  rw [candidates_eq, blocks_unified, candidates_eq, List.flatMap_map, List.flatMap_map]
  refine List.flatMap_congr fun b hb => ?_
  dsimp only
  rw [hconsumer b hb, lines_unifyBreaks]

end Container

/-! ## Piped arrays -/

namespace PipedArray

/-- A literal stays on one line. -/
theorem literal_unified : literal.ReadsUnified id where
  reads prev t := by
    cases t using breaks_induction with
    | nil => rfl
    | inside q t hend _ =>
      rw [unifyBreaks_cons hend, literal, literal]
      cases hq : isQuote q with
      | false => rfl
      | true =>
        -- a literal ends at its quote or fails at a line end of any kind
        have hblind : BreakBlind fun c => c != q && !isLineEnd c := by
          rw [BreakBlind, show isLineEnd '\r' = true by decide,
            show isLineEnd '\n' = true by decide, Bool.not_true, Bool.and_false, Bool.and_false]
        simp only [if_true, bind, pure, someOf_unified hblind (Bool.and_false _),
          symbol_unified (isLineEnd_of_isQuote hq), Option.bind_map, Option.map_bind,
          Function.comp_def, Option.map_some, Prod.map, id]
    | lineBreak b t hb _ =>
      obtain ⟨e, u, heq, he⟩ := hb.exists_cons
      have hquote : ¬ isQuote e = true := by
        intro hq
        rw [isLineEnd_of_isQuote hq] at he
        cases he
      rw [unifyBreaks_break hb, heq, literal, literal, if_neg (by decide), if_neg hquote]
      rfl
  lineEnd prev c t hc := by
    rw [literal, if_neg]
    intro hq
    rw [isLineEnd_of_isQuote hq] at hc
    cases hc

/-- A literal is left behind its quote. -/
theorem leavesBreaksWhole_literal : literal.LeavesBreaksWhole := by
  intro prev t value rest h
  obtain ⟨q, hq, -, -, -, rfl⟩ := literal_eq_some_iff.mp h
  refine ⟨(leavesWhole_cons (isLineEnd_of_isQuote hq) rest).append (q :: value), ?_⟩
  rw [List.length_cons, List.length_append, List.length_cons]
  omega

/-- The literals that are found in a run do not depend on how its lines end. -/
theorem literalValues_unified (run : Text) :
    literalValues (unifyBreaks run) = literalValues run := by
  rw [literalValues, all_unified literal_unified leavesBreaksWhole_literal, List.map_map,
    literalValues]
  rfl

/-- A run of literals has the same values, with equal bounds on their number. -/
theorem literalRun_unified_same (most : Nat) (t : Text) :
    literalRun most (unifyBreaks t) = (literalRun most t).map (Prod.map id unifyBreaks) := by
  induction most generalizing t with
  | zero => rfl
  | succ most ih =>
    have hliteral := literal_unified.reads none t
    rw [Option.map_none] at hliteral
    simp only [literalRun, bind, hliteral, Option.bind_map, Option.map_bind, Function.comp_def]
    refine congrArg (Option.bind _) (funext fun found => ?_)
    simp only [Prod.map, id, trimStart_unifyBreaks,
      @symbol_unified ',' rfl, Option.bind_map, Function.comp_def, ih]
    cases symbol ',' (trimStart found.2) with
    | none => rfl
    | some rest =>
      simp only [Option.bind_some]
      cases literalRun most (trimStart rest) <;> rfl

/-- A run of literals has no more literals than the text has characters. -/
theorem literalRun_add {most : Nat} {t : Text} (h : t.length ≤ most) (more : Nat) :
    literalRun (most + more) t = literalRun most t := by
  induction most generalizing t with
  | zero =>
    obtain rfl := List.eq_nil_of_length_eq_zero (Nat.le_zero.mp h)
    cases more <;> rfl
  | succ most ih =>
    rw [Nat.add_right_comm]
    simp only [literalRun, bind]
    cases hvalue : literal none t with
    | none => rfl
    | some found =>
      obtain ⟨value, rest⟩ := found
      obtain ⟨q, -, -, -, -, rfl⟩ := literal_eq_some_iff.mp hvalue
      simp only [Option.bind_some]
      cases hcomma : symbol ',' (trimStart rest) with
      | none => rfl
      | some t =>
        -- the literals behind the comma are read of a shorter text
        have hrest := (trimStart_suffix rest).length_le
        have ht := (trimStart_suffix t).length_le
        rw [symbol_eq_some_iff.mp hcomma, List.length_cons] at hrest
        have hshorter : (trimStart t).length ≤ most := by
          simp only [List.length_cons, List.length_append] at h
          omega
        rw [Option.bind_some, Option.bind_some, ih hshorter]

/-- And with the bounds that the two texts give. -/
theorem literalRun_unified (t : Text) :
    literalRun (unifyBreaks t).length (unifyBreaks t) =
      (literalRun t.length t).map (Prod.map id unifyBreaks) := by
  obtain ⟨more, hmore⟩ := Nat.exists_eq_add_of_le (length_unifyBreaks_le t)
  rw [← literalRun_unified_same, hmore, literalRun_add (Nat.le_refl _)]

/-- The beginning of an array is read up to its blanks. -/
theorem arrayOpening_unified (t : Text) :
    arrayOpening (unifyBreaks t) = unifyBreaks (arrayOpening t) := by
  have hopening : (symbol '@' (unifyBreaks t)).bind (symbol '(') =
      ((symbol '@' t).bind (symbol '(')).map unifyBreaks := by
    simp only [@symbol_unified '@' rfl, @symbol_unified '(' rfl, Option.bind_map, Option.map_bind,
      Function.comp_def]
  simp only [arrayOpening, bind, hopening]
  cases (symbol '@' t).bind (symbol '(') with
  | none => rfl
  | some rest => exact trimStart_unifyBreaks rest

/-- The body of a loop ends at the same brace. -/
theorem pipedLoop_unified (t : Text) :
    pipedLoop (unifyBreaks t) = (pipedLoop t).map (Prod.map unifyBreaks unifyBreaks) := by
  have hinside : BreakBlind fun c => c != '}' := by decide
  have hclose : ∀ t : Text, ((symbol ')' t).map unifyBreaks).getD (unifyBreaks t) =
      unifyBreaks ((symbol ')' t).getD t) := by
    intro t
    cases symbol ')' t <;> rfl
  have hwords : ∀ word ∈ ["ForEach-Object".toList, "foreach".toList, "%".toList],
      isOneLineWord word = true := by
    decide
  simp only [pipedLoop, bind, pure, trimStart_unifyBreaks, hclose, anyKeyword_unified hwords,
    @symbol_unified ')' rfl, @symbol_unified '|' rfl, @symbol_unified '{' rfl,
    @symbol_unified '}' rfl, takeWhile_unifyBreaks hinside,
    dropWhile_unifyBreaks hinside, Option.bind_map, Option.map_bind, Function.comp_def,
    Option.map_some, Prod.map]

/-- A loop whose texts have one kind of line break. -/
def Loop.unified (l : Loop) : Loop :=
  ⟨unifyBreaks l.run, unifyBreaks l.body⟩

/-- A run is left behind its last quote, which is not inside of a line break. -/
theorem leavesWhole_of_literalRun {most : Nat} {t : Text} {found : List Text} {rest : Text}
    (h : literalRun most t = some (found, rest)) : t.LeavesWhole rest := by
  obtain ⟨run, q, rfl, hlast, hq, -⟩ := exists_of_literalRun h
  obtain ⟨front, rfl⟩ := List.getLast?_eq_some_iff.mp hlast
  rw [List.append_assoc]
  exact (leavesWhole_cons (isLineEnd_of_isQuote hq) rest).append front

/-- A loop over literals is read off a text with one kind of line break. -/
theorem loop_unified : loop.ReadsUnified Loop.unified where
  reads prev t := by
    simp only [loop, bind, pure, arrayOpening_unified,
      any_head?_unifyBreaks (show BreakBlind isQuote by decide), literalRun_unified,
      Option.bind_map, Option.map_bind, Function.comp_def, Prod.map]
    refine congrArg (Option.bind _) (funext fun _ => ?_)
    cases hrun : literalRun (arrayOpening t).length (arrayOpening t) with
    | none => rfl
    | some found =>
      have hconsumed := consumed_unifyBreaks (leavesWhole_of_literalRun hrun)
      simp only [Option.bind_some, pipedLoop_unified, hconsumed, Option.bind_map, Prod.map,
        Function.comp_def, Option.map_some, Loop.unified]
  lineEnd prev c t hc := by
    rcases isLineEnd_iff.mp hc with rfl | rfl
    · exact loop_cons_eq_none (by decide) (by decide) prev t
    · exact loop_cons_eq_none (by decide) (by decide) prev t

/-- A loop is left behind its brace. -/
theorem leavesBreaksWhole_loop : loop.LeavesBreaksWhole := by
  intro prev t found rest h
  obtain ⟨read, rfl⟩ := exists_of_loop_eq_some h
  rw [List.append_assoc, List.singleton_append]
  refine ⟨(leavesWhole_cons rfl rest).append read, ?_⟩
  rw [List.length_append, List.length_cons]
  omega

/-! ### What a script declares -/

/-- What the body of a loop installs with does not depend on how its lines end. -/
theorem installerIn_unified (body : Text) : installerIn (unifyBreaks body) = installerIn body := by
  rw [installerIn, occursIn_unified chocoWords_unified, occursIn_unified scoopWords_unified,
    installerIn]

/-- The part of a match's first line that stands before the match, if a carriage return ends a line
as a line feed does. -/
def partOfLine {α : Type} (hit : Hit α) : Text :=
  (hit.before.takeWhile fun c => !isLineEnd c).reverse

/-- With one kind of line break, the line before a match begins after any of them. -/
theorem lineBefore_unified {α : Type} (onFound : α → α) (hit : Hit α) :
    lineBefore (hit.unified onFound) = partOfLine hit := by
  have hclass : (fun c => !isLineEnd c && c != '\n') = fun c => !isLineEnd c := by
    funext c
    rw [isLineEnd, Bool.not_or, Bool.and_assoc, bne, Bool.and_self]
  rw [lineBefore, Hit.unified, takeWhile_unifyBefore rfl, hclass, partOfLine]

/-- Where carriage returns stand before line feeds only, they end no line by themselves. -/
theorem partOfLine_eq {α : Type} {text : Text} {hit : Hit α} {rest : Text}
    (hpaired : returnsPaired text = true)
    (htext : text = hit.before.reverse ++ rest) (hrest : rest.head? ≠ some '\n') :
    partOfLine hit = lineBefore hit := by
  rw [partOfLine, lineBefore]
  generalize hit.before = before at htext
  induction before generalizing rest with
  | nil => rfl
  | cons c before ih =>
    rw [List.reverse_cons, List.append_assoc, List.singleton_append] at htext
    by_cases hfeed : c = '\n'
    · subst hfeed
      rfl
    · -- a return before the hit would need its feed, which is not what the hit starts with
      have hreturn : c ≠ '\r' := by
        rintro rfl
        rw [htext] at hpaired
        exact hrest (head?_of_returnsPaired hpaired)
      have hinside : isLineEnd c = false := by
        rw [isLineEnd, beq_false_of_ne hreturn, beq_false_of_ne hfeed, Bool.or_self]
      have hhead : (c :: rest).head? ≠ some '\n' := fun h => hfeed (Option.some.inj h)
      have hlater := List.reverse_injective (ih hhead htext)
      rw [List.takeWhile_cons, List.takeWhile_cons, hinside, Bool.not_false, if_pos rfl,
        if_pos (bne_iff_ne.mpr hfeed), hlater]

/-- Piped arrays declare the same, if no carriage return hides that a match is commented out. -/
theorem candidates_unified {text : Text} (script : Text)
    (hcomment : ∀ hit ∈ loop.all text, isComment (partOfLine hit) = isComment (lineBefore hit)) :
    candidates script (unifyBreaks text) = candidates script text := by
  rw [candidates, all_unified loop_unified leavesBreaksWhole_loop, List.flatMap_map, candidates]
  refine List.flatMap_congr fun hit hhit => ?_
  rw [declared, lineBefore_unified, hcomment hit hhit, declared]
  have hinstaller : installerIn (hit.unified Loop.unified).found.body =
      installerIn hit.found.body := installerIn_unified hit.found.body
  have hvalues : literalValues (hit.unified Loop.unified).found.run =
      literalValues hit.found.run := literalValues_unified hit.found.run
  rw [hinstaller, hvalues]

end PipedArray

/-! ## Sideloads -/

namespace Sideload

/-- A sideload declares the same, if its two windows say the same when a line break counts for one
character. -/
theorem declaredAt_unified {options : ScanOptions} {before rest : Text} (script : Text)
    (hname : 0 ≤ options.nameLookback) (hbefore : 0 ≤ options.urlBefore)
    (hafter : 0 ≤ options.urlAfter) (hhead : rest.head? ≠ some '\n')
    (hsame : nameIn (lastUnits options.nameLookback.toNat before) =
      nameIn (lastChars options.nameLookback.toNat before))
    (hsame' : addressIn (lastUnits options.urlBefore.toNat before ++
        takeUnits options.urlAfter.toNat rest) =
      addressIn (lastChars options.urlBefore.toNat before ++ rest.take options.urlAfter.toNat)) :
    declaredAt options script (unifyBreaks before ++ unifyBreaks rest) (unifyBreaks before).length =
      declaredAt options script (before ++ rest) before.length := by
  have hspot : ¬ MidBreak (lastUnits options.urlBefore.toNat before).getLast?
      (takeUnits options.urlAfter.toNat rest) :=
    fun hmid => hhead (head?_takeUnits hmid.2)
  rw [declaredAt, window_before _ _ hname, window_around _ _ hbefore hafter, declaredAt,
    window_before _ _ hname, window_around _ _ hbefore hafter, ← unifyBreaks_lastUnits,
    ← unifyBreaks_lastUnits, ← unifyBreaks_takeUnits, ← unifyBreaks_append hspot, nameIn_unified,
    addressIn_unified, hsame, hsame']

end Sideload

end Rule

/-! ## Every rule -/

/-- No distance of the options is negative: all windows lie on the side that they are meant for. -/
structure ScanOptions.Forward (options : ScanOptions) : Prop where
  loopLookahead : 0 ≤ options.loopLookahead
  nameLookback : 0 ≤ options.nameLookback
  urlBefore : 0 ≤ options.urlBefore
  urlAfter : 0 ≤ options.urlAfter

/-- The default distances are not negative. -/
theorem ScanOptions.forward_default : ScanOptions.Forward {} := by
  constructor <;> decide

/-- A script reads the same however its lines end: the window of a container's first consuming
pipeline and those around the first sideload say the same whether a carriage return and a line feed
count once or twice, and a piped array stands in a comment or not whether a carriage return ends the
comment or not. -/
structure ReadsAlike (options : ScanOptions) (text : Text) : Prop where
  consumer : ∀ b ∈ blocks text, ∀ hit, (consumerStart b.variableName).first? text = some hit →
    consumerIn (takeUnits options.loopLookahead.toNat (text.drop hit.offset))
        options.defaultScope =
      consumerIn ((text.drop hit.offset).take options.loopLookahead.toNat) options.defaultScope
  comment : ∀ hit ∈ Rule.PipedArray.loop.all text,
    isComment (Rule.PipedArray.partOfLine hit) = isComment (Rule.PipedArray.lineBefore hit)
  name : ∀ hit, Rule.Sideload.marker.first? text = some hit →
    Rule.Sideload.nameIn (lastUnits options.nameLookback.toNat (text.take hit.offset)) =
      Rule.Sideload.nameIn (lastChars options.nameLookback.toNat (text.take hit.offset))
  address : ∀ hit, Rule.Sideload.marker.first? text = some hit →
    Rule.Sideload.addressIn (lastUnits options.urlBefore.toNat (text.take hit.offset) ++
        takeUnits options.urlAfter.toNat (text.drop hit.offset)) =
      Rule.Sideload.addressIn (lastChars options.urlBefore.toNat (text.take hit.offset) ++
        (text.drop hit.offset).take options.urlAfter.toNat)

/-- A script that the windows are larger than, with carriage returns before line feeds only, reads
the same however its lines end. -/
theorem readsAlike_of_length_le {options : ScanOptions} {text : Text}
    (hpaired : returnsPaired text = true)
    (hahead : text.length ≤ options.loopLookahead.toNat)
    (hname : text.length ≤ options.nameLookback.toNat)
    (hbefore : text.length ≤ options.urlBefore.toNat)
    (hafter : text.length ≤ options.urlAfter.toNat) : ReadsAlike options text := by
  have htake : ∀ {size : Nat}, text.length ≤ size → ∀ n, (text.take n).length ≤ size := by
    intro size hsize n
    rw [List.length_take]
    omega
  have hdrop : ∀ {size : Nat}, text.length ≤ size → ∀ n, (text.drop n).length ≤ size := by
    intro size hsize n
    rw [List.length_drop]
    omega
  -- every window takes in all that there is on its side
  refine ⟨fun b _ hit _ => ?_, fun hit hhit => ?_, fun hit _ => ?_, fun hit _ => ?_⟩
  · rw [takeUnits_of_length_le (hdrop hahead _), List.take_of_length_le (hdrop hahead _)]
  · obtain ⟨rest, htext, hread⟩ := exists_of_mem_all hhit
    rw [Rule.PipedArray.partOfLine_eq hpaired htext
      (Rule.PipedArray.loop_unified.head?_ne hread)]
  · rw [lastUnits_of_length_le (htake hname _), lastChars_of_length_le (htake hname _)]
  · rw [lastUnits_of_length_le (htake hbefore _), lastChars_of_length_le (htake hbefore _),
      takeUnits_of_length_le (hdrop hafter _), List.take_of_length_le (hdrop hafter _)]

namespace Rule

/-- So sideloads declare the same where every call is read alike. -/
theorem Sideload.candidates_unified {options : ScanOptions} {text : Text} (script : Text)
    (hoptions : options.Forward) (h : ReadsAlike options text) :
    candidates options script (unifyBreaks text) = candidates options script text := by
  rw [candidates, first?_unified marker_unified, candidates]
  cases hhit : marker.first? text with
  | none => rfl
  | some hit =>
    obtain ⟨rest, ht, hhead, hunified⟩ := unifyBreaks_of_first? marker_unified hhit
    have hbefore : hit.offset = hit.before.reverse.length := List.length_reverse.symm
    have hbefore' : (hit.unified id).offset = (unifyBreaks hit.before.reverse).length :=
      List.length_reverse
    have hname := h.name hit hhit
    have haddress := h.address hit hhit
    rw [hbefore, ht, List.take_left, List.drop_left] at haddress
    rw [hbefore, ht, List.take_left] at hname
    -- the windows around the call show the same line by line, which is what the hypothesis is for
    have hsame := declaredAt_unified script hoptions.nameLookback hoptions.urlBefore
      hoptions.urlAfter hhead hname haddress
    rw [unifyBefore, List.reverse_reverse] at hunified
    rw [← hunified, ← ht, ← hbefore, ← hbefore'] at hsame
    simp only [Option.map_some, hsame]

/-- **Every rule recognises the same packages in a script with one kind of line break**, if the
script reads the same however its lines end. -/
theorem candidates_unified {options : ScanOptions} {text : Text} (hoptions : options.Forward)
    (h : ReadsAlike options text) (rule : Rule) (script : Text) :
    rule.candidates options script (unifyBreaks text) = rule.candidates options script text := by
  cases rule with
  | container =>
    exact Container.candidates_unified script fun b hb =>
      consumerOf_unified (isOneLineWord_of_mem_blocks hb) hoptions.loopLookahead (h.consumer b hb)
  | pipedArray => exact PipedArray.candidates_unified script h.comment
  -- the other rules but the last take the script line by line
  | choco => rw [candidates, Choco.candidates, freeLines, lines_unifyBreaks]; rfl
  | winget => rw [candidates, Winget.candidates, freeLines, lines_unifyBreaks]; rfl
  | psModule => rw [candidates, PsModule.candidates, lines_unifyBreaks]; rfl
  | sideload => exact Sideload.candidates_unified script hoptions h

end Rule

/-- A script that reads the same however its lines end declares the same packages. -/
theorem packagesOf_unified {options : ScanOptions} {text : Text} (hoptions : options.Forward)
    (h : ReadsAlike options text) (script : Text) :
    packagesOf script (unifyBreaks text) options = packagesOf script text options := by
  rw [packagesOf_eq, packagesOf_eq]
  refine congrArg (newPackages []) (List.flatMap_congr fun rule _ => ?_)
  exact Rule.candidates_unified hoptions h rule script

end SetupCatalog
