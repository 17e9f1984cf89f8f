import Mathlib.Data.List.Infix
import SetupCatalog.Proofs.Detector.Scan
import SetupCatalog.Proofs.Pattern.Stop
import SetupCatalog.Proofs.Pattern.Sweep
import SetupCatalog.Proofs.Rule.SideloadUnified
import SetupCatalog.Proofs.Text.Unit

/-!
# The closest announcement names a sideload

A script announces what it installs in a quoted text such as `"Installing Windows Terminal..."`. If
nothing is announced between such a text and the first call, then the sideload has the announced
name, whatever has been announced before (`scan_announced`).

Two things could go wrong. The name could end early: it is read up to the first spot where an
announcement can end, but no such spot is in the name (`IsNameEnd.announcedName_append`). And an
earlier announcement, or the part of one that the window has, could swallow the start of this one:
but no announcement reads beyond a quote (`suffix_of_announcement`), and a quote stands before this
one.
-/

namespace SetupCatalog.Rule.Sideload

open Text Pattern

/-! ## Announced names -/

/-- The end of a name that an announcement shows as it is: the announcement does not end in it, and
cleaning takes nothing off. -/
structure IsNameEnd (t : Text) : Prop where
  /-- There is no quote of any kind in it, no line end and no ellipsis. -/
  chars : t.all (fun c => isAnnouncedChar c && c != '…') = true
  /-- There are no three dots in a row. -/
  dots : ¬ ['.', '.', '.'] <:+: t
  /-- The last character is neither blank nor a dot. -/
  last : t.getLast?.any (fun c => !isBlank c && c != '.') = true

/-- A name that an announcement shows as it is. -/
structure ShownName where
  /-- The name. -/
  text : Text
  /-- The announcement does not end in it. -/
  isNameEnd : IsNameEnd text
  /-- The first character is not blank. -/
  head : text.head?.any (fun c => !isBlank c) = true

/-- The announcement of a name, without the quotes around it. -/
def ShownName.announced (name : ShownName) : Text :=
  "Installing".toList ++ ' ' :: (name.text ++ "...".toList)

namespace IsNameEnd

/-- A name end is never empty: it stops at a last character. -/
theorem ne_nil {t : Text} (h : IsNameEnd t) : t ≠ [] := by
  rintro rfl
  cases h.last

/-- The last character of a name end survives both trims, of blanks and of dots. -/
theorem exists_concat {t : Text} (h : IsNameEnd t) :
    ∃ front c, t = front ++ [c] ∧ isBlank c = false ∧ (c == '.') = false := by
  obtain ⟨c, hlast, hc⟩ := (Option.any_eq_true _ _).mp h.last
  obtain ⟨front, rfl⟩ := List.getLast?_eq_some_iff.mp hlast
  rw [Bool.and_eq_true, Bool.not_eq_true', bne, Bool.not_eq_true'] at hc
  exact ⟨front, c, rfl, hc⟩

/-- Every character of a name end may stand in an announced name, and none is the ellipsis. -/
theorem of_mem {t : Text} (h : IsNameEnd t) {c : Char} (hc : c ∈ t) :
    isAnnouncedChar c = true ∧ c ≠ '…' := by
  have hchar := List.all_eq_true.mp h.chars c hc
  rwa [Bool.and_eq_true, bne_iff_ne] at hchar

/-- What is left of a name end after a proper front is a name end again, so the window may cut a
name anywhere. -/
theorem of_append {front t : Text} (h : IsNameEnd (front ++ t)) (hne : t ≠ []) : IsNameEnd t where
  chars := by
    have hchars := h.chars
    rw [List.all_append, Bool.and_eq_true] at hchars
    exact hchars.2
  dots hdots := h.dots (hdots.trans (List.suffix_append front t).isInfix)
  last := by
    have hlast := h.last
    rwa [List.getLast?_append_of_ne_nil front hne] at hlast

/-- No mark stands at the start of a name. -/
theorem announcementMark_eq_none {t : Text} (h : IsNameEnd t) (rest : Text) :
    announcementMark (t ++ ("...".toList ++ rest)) = none := by
  obtain ⟨c, t, rfl⟩ := List.exists_cons_of_ne_nil h.ne_nil
  obtain ⟨hc, hellipsis⟩ := h.of_mem List.mem_cons_self
  have hsingle : endsAnnouncement c = false := by
    simp only [isAnnouncedChar, Bool.and_eq_true, Bool.not_eq_true', bne_iff_ne] at hc
    simp [endsAnnouncement, hellipsis, hc.1.1, hc.1.2]
  rw [List.cons_append, announcementMark_cons, hsingle, if_neg Bool.false_ne_true, Option.or_none,
    Option.eq_none_iff_forall_ne_some]
  intro after hdots
  -- the dots behind the name do not help: it would have to end with a dot
  have hsplit := threeDots_eq_some_iff.mp hdots
  rcases t with _ | ⟨d, _ | ⟨e, t⟩⟩
  · obtain ⟨rfl, -⟩ := List.cons.inj hsplit
    exact absurd h.last (by decide)
  · simp only [List.cons_append, List.nil_append, List.cons.injEq] at hsplit
    obtain ⟨rfl, rfl, -⟩ := hsplit
    exact absurd h.last (by decide)
  · simp only [List.cons_append, List.cons.injEq] at hsplit
    obtain ⟨rfl, rfl, rfl, -⟩ := hsplit
    exact h.dots ⟨[], t, rfl⟩

/-- An announcement does not end in a name. -/
theorem announcementEnd_eq_none {t : Text} (h : IsNameEnd t) (rest : Text) :
    announcementEnd (t ++ ("...".toList ++ rest)) = none := by
  have hsplit : t.takeWhile isBlank ++ trimStart t = t := List.takeWhile_append_dropWhile
  have hvisible : trimStart t ≠ [] := by
    obtain ⟨front, c, rfl, hc, -⟩ := h.exists_concat
    rw [trimStart, Ne, List.dropWhile_eq_nil_iff]
    intro hblank
    rw [hblank c (by simp)] at hc
    cases hc
  have hrest : IsNameEnd (trimStart t) := of_append (hsplit.symm ▸ h) hvisible
  have hblanks : (t ++ ("...".toList ++ rest)).takeWhile isBlank = t.takeWhile isBlank := by
    rw [takeWhile_append_eq, if_neg]
    rw [List.isEmpty_iff]
    exact hvisible
  -- the blanks that are passed over are part of the name, so none of them ends a line
  have hline : (t.takeWhile isBlank).reverse.any isLineEnd = false := by
    refine any_eq_false_iff.mpr fun c hc => ?_
    have hchar := (h.of_mem ((List.takeWhile_prefix _).subset (List.mem_reverse.mp hc))).1
    simp only [isAnnouncedChar, Bool.and_eq_true, Bool.not_eq_true'] at hchar
    exact hchar.2
  simp only [announcementEnd, trimStart_append hvisible, hrest.announcementMark_eq_none, hblanks,
    hline, Bool.false_eq_true, if_false]

/-- A name is read up to the dots behind it. -/
theorem announcedName_append {t : Text} (h : IsNameEnd t) (rest : Text) :
    announcedName (t ++ ("...".toList ++ rest)) = some (t, rest) := by
  induction t with
  | nil => cases h.last
  | cons c t ih =>
    rw [List.cons_append, announcedName, if_pos (h.of_mem List.mem_cons_self).1]
    cases t with
    | nil => rfl
    | cons d t =>
      have hlater : IsNameEnd (d :: t) := @of_append [c] _ h (List.cons_ne_nil d t)
      rw [hlater.announcementEnd_eq_none, ih hlater]
      rfl

end IsNameEnd

/-- Trimming at the end stops at once where the last character is kept. -/
theorem trimEnd_concat {p : Char → Bool} {c : Char} (hc : p c = false) (t : Text) :
    trimEnd p (t ++ [c]) = t ++ [c] := by
  rw [trimEnd, List.reverse_concat, List.dropWhile_cons_of_neg (by simp [hc]),
    ← List.reverse_concat, List.reverse_reverse]

namespace ShownName

/-- A shown name starts with no blank, so the text from it on is trimmed already. -/
theorem trimStart_append (name : ShownName) (rest : Text) :
    trimStart (name.text ++ rest) = name.text ++ rest := by
  obtain ⟨c, hhead, hc⟩ := (Option.any_eq_true _ _).mp name.head
  obtain ⟨others, htext⟩ := List.head?_eq_some_iff.mp hhead
  rw [htext, List.cons_append, trimStart, List.dropWhile_cons_of_neg]
  simpa using hc

/-- Cleaning takes nothing off. -/
theorem cleanName_text (name : ShownName) : cleanName name.text = name.text := by
  have hstart := name.trimStart_append []
  rw [List.append_nil] at hstart
  obtain ⟨front, c, htext, hblank, hdot⟩ := name.isNameEnd.exists_concat
  rw [cleanName, strip, hstart, htext, trimEnd_concat hblank,
    trimEnd_concat (p := fun c => c == '.') hdot]

/-- An announcement is read with the name in it. -/
theorem announcement_announced (name : ShownName) {prev : Option Char}
    (hprev : wordStarts prev = true) (rest : Text) :
    announcement prev (name.announced ++ rest) = some (name.text, rest) := by
  have htext : name.announced ++ rest =
      "Installing".toList ++ ' ' :: (name.text ++ ("...".toList ++ rest)) := by
    unfold announced
    rw [List.append_assoc, List.cons_append, List.append_assoc]
  have hblanks : someBlanks (' ' :: (name.text ++ ("...".toList ++ rest))) =
      some (name.text ++ ("...".toList ++ rest)) := by
    rw [someBlanks, if_pos (by decide), name.trimStart_append]
  simp only [announcement, hprev, guard, if_true, bind, Option.bind_some, htext, keyword_self,
    hblanks, pure]
  exact name.isNameEnd.announcedName_append rest

/-- The part of a shown name that is announced has at least one character. -/
theorem announced_ne_nil (name : ShownName) : name.announced ≠ [] :=
  List.append_ne_nil_of_right_ne_nil _ (List.cons_ne_nil _ _)

end ShownName

/-! ## Announcements and quotes -/

/-- The end mark of an announcement does not read beyond a quote: what stands behind it is left. -/
theorem suffix_of_announcementMark {t rest after : Text}
    (h : announcementMark (t ++ '"' :: rest) = some after) : rest <:+ after := by
  have hbehind : ∀ u : Text, rest <:+ u ++ '"' :: rest := fun u =>
    (List.suffix_cons '"' rest).trans (List.suffix_append u _)
  cases t with
  | nil =>
    obtain rfl := Option.some.inj h
    exact List.suffix_rfl
  | cons c t =>
    -- no dot is a quote, so the dots are read before it
    have hdots : ((symbol '.' (c :: t ++ '"' :: rest)).bind (symbol '.')).bind (symbol '.') =
        (((symbol '.' (c :: t)).bind (symbol '.')).bind (symbol '.')).map (· ++ '"' :: rest) := by
      have hdot := @symbol_append_stop '"' '.' (by decide)
      simp only [hdot, Option.bind_map, Option.map_bind, Option.bind_assoc, Function.comp_def]
    rw [List.cons_append] at h hdots
    rw [announcementMark_cons, hdots, Option.or_eq_some_iff] at h
    rcases h with h | ⟨-, h⟩
    · obtain ⟨u, -, rfl⟩ := Option.map_eq_some_iff.mp h
      exact hbehind u
    · split at h
      · obtain rfl := Option.some.inj h
        exact hbehind t
      · cases h

/-- Nor does the end of an announcement, with the blanks before its mark. -/
theorem suffix_of_announcementEnd {t rest after : Text}
    (h : announcementEnd (t ++ '"' :: rest) = some after) : rest <:+ after := by
  have htrim : trimStart (t ++ '"' :: rest) = trimStart t ++ '"' :: rest :=
    dropWhile_append_stop (by decide) t rest
  simp only [announcementEnd, htrim] at h
  split at h
  · next hmark =>
    obtain rfl := Option.some.inj h
    exact suffix_of_announcementMark hmark
  · split at h
    · obtain rfl := Option.some.inj h
      exact (List.suffix_cons '"' rest).trans <|
        (List.suffix_append _ _).trans (List.suffix_append _ _)
    · cases h

/-- Nor does an announced name: no character of it is a quote. -/
theorem suffix_of_announcedName {t name rest after : Text}
    (h : announcedName (t ++ '"' :: rest) = some (name, after)) : rest <:+ after := by
  induction t generalizing name with
  | nil => cases h
  | cons c t ih =>
    rw [List.cons_append, announcedName] at h
    split at h
    · split at h
      · next hend =>
        cases h
        exact suffix_of_announcementEnd hend
      · obtain ⟨⟨others, after'⟩, hothers, hsame⟩ := Option.map_eq_some_iff.mp h
        obtain ⟨-, rfl⟩ := Prod.mk.inj hsame
        exact ih hothers
    · cases h

/-- No announcement reads beyond a quote. -/
theorem suffix_of_announcement {prev : Option Char} {t name rest after : Text}
    (h : announcement prev (t ++ '"' :: rest) = some (name, after)) : rest <:+ after := by
  have hkeyword := @keyword_append_cons "Installing".toList '"' (by decide) t rest
  simp only [announcement, hkeyword, bind, Option.bind_eq_some_iff] at h
  obtain ⟨-, -, t₁, hword, t₂, hblanks, hname⟩ := h
  obtain ⟨u₁, -, rfl⟩ := Option.map_eq_some_iff.mp hword
  rw [someBlanks_append_stop (by decide)] at hblanks
  obtain ⟨u₂, -, rfl⟩ := Option.map_eq_some_iff.mp hblanks
  exact suffix_of_announcedName hname

/-- Nothing is announced behind a quote if nothing is announced in the text there. -/
theorem allFrom_announcement_eq_nil {mid : Text} (h : announcement.occursIn mid = false)
    (before : Text) : allFrom announcement 0 before ('"' :: mid) = [] := by
  have hnone : announcement.first? mid = none :=
    Option.isNone_iff_eq_none.mp (Option.isSome_eq_false_iff.mp h)
  refine allFrom_eq_nil fun u c v huv => ?_
  rcases u with _ | ⟨d, u⟩
  · obtain ⟨rfl, rfl⟩ := List.cons.inj huv
    have hword : keyword "Installing".toList ('"' :: mid) = none :=
      keyword_cons_eq_none (by decide)
    simp only [announcement, hword, bind, Option.bind_none, Option.bind_fun_none]
  · obtain ⟨rfl, rfl⟩ := List.cons.inj huv
    have hspot := first?_eq_none_iff.mp hnone u (c :: v) rfl
    rw [← List.head?_reverse] at hspot
    rw [List.reverse_cons, List.append_assoc, List.singleton_append]
    cases hbefore : u.reverse with
    | nil => rwa [hbefore] at hspot
    | cons e front => rwa [hbefore] at hspot

/-! ## The name of a sideload -/

/-- A window that starts in front of an announcement, or ahead of the quote before it, gives the
name of this announcement if it is the last one. -/
theorem nameIn_announced (name : ShownName) {passed mid : Text}
    (hpassed : passed = [] ∨ ∃ front, passed = front ++ ['"'])
    (hmid : announcement.occursIn mid = false) :
    nameIn (passed ++ (name.announced ++ '"' :: mid)) = name.text := by
  have hstays : ∀ u c v, passed = u ++ c :: v → ∀ prev a after,
      announcement prev (c :: v ++ (name.announced ++ '"' :: mid)) = some (a, after) →
        name.announced ++ '"' :: mid <:+ after := by
    intro u c v huv prev a after hread
    rcases hpassed with rfl | ⟨front, rfl⟩
    · exact absurd huv.symm (by simp)
    · -- what is passed ends with a quote, and so does what is left of it
      have hsuffix : c :: v <:+ front ++ ['"'] := ⟨u, huv.symm⟩
      obtain hnil | ⟨w, hw, -⟩ := List.suffix_concat_iff.mp hsuffix
      · cases hnil
      · rw [hw, List.append_assoc, List.singleton_append] at hread
        exact suffix_of_announcement hread
  have hprev : wordStarts (passed.reverse ++ []).head? = true := by
    rcases hpassed with rfl | ⟨front, rfl⟩
    · rfl
    · rw [List.append_nil, List.reverse_concat, List.head?_cons]
      decide
  obtain ⟨earlier, hall⟩ := exists_allFrom_append hstays (Nat.zero_le _) []
  have hlast : allFrom announcement 0 (passed.reverse ++ []) (name.announced ++ '"' :: mid) =
      [⟨passed.reverse ++ [], name.text, '"' :: mid⟩] := by
    have hread := name.announcement_announced hprev ('"' :: mid)
    obtain ⟨c, others, hcons⟩ := List.exists_cons_of_ne_nil name.announced_ne_nil
    rw [hcons, List.cons_append] at hread ⊢
    rw [allFrom_of_read hread, allFrom_announcement_eq_nil hmid]
  have hnames : ([⟨passed.reverse ++ [], name.text, '"' :: mid⟩] : List (Hit Text)).map
      (fun hit => cleanName hit.found) = [name.text] := by
    rw [List.map_singleton, name.cleanName_text]
  have hvisible : [name.text].filter (fun name => !name.isEmpty) = [name.text] := by
    rw [List.filter_singleton, List.isEmpty_eq_false_iff.mpr name.isNameEnd.ne_nil]
    rfl
  rw [nameIn, Pattern.all, hall, hlast, List.map_append, List.filter_append, hnames, hvisible,
    List.getLast?_concat, Option.getD_some]

/-- **The closest announcement names a sideload**, whatever comes before it: the announcement of a
name in quotes that the window reaches, with no further announcement between it and the first
call. -/
theorem scan_announced (name : ShownName) {pre mid post : Text} (options : ScanOptions)
    (earlier : List Text) (script : Text) :
    let before := pre ++ '"' :: (name.announced ++ '"' :: mid)
    let text := before ++ ("Add-AppxPackage".toList ++ post)
    (marker.first? text).map Hit.offset = some before.length →
    announcement.occursIn mid = false →
    ((name.announced ++ '"' :: mid).length : Int) ≤ options.nameLookback →
    ∃ p : Package, p.name = name.text ∧ ∀ seen,
      ((⟨.sideload, options, earlier⟩ : Detector).scan script text seen).1 =
        if p.key ∈ seen then [] else [p] := by
  intro before text hfirst hmid hlookback
  obtain ⟨call, hcall, hoffset⟩ := Option.map_eq_some_iff.mp hfirst
  refine ⟨declaredAt options script text before.length, ?_, fun seen => ?_⟩
  · have hbefore : before = pre ++ ['"'] ++ (name.announced ++ '"' :: mid) := by
      rw [List.append_assoc, List.singleton_append]
    -- the window before the call is an end of the text before it, and long enough for the
    -- announcement
    have hwindow : window text (max 0 (before.length - options.nameLookback)) before.length =
        lastChars options.nameLookback.toNat before :=
      window_before before _ (by omega)
    have hreach : (name.announced ++ '"' :: mid).length ≤ options.nameLookback.toNat := by omega
    show nameIn (window text (max 0 (before.length - options.nameLookback)) before.length) = _
    rw [hwindow, hbefore, lastChars_append _ hreach]
    refine nameIn_announced name ?_ hmid
    obtain hnil | ⟨front, hfront, -⟩ :=
      List.suffix_concat_iff.mp (lastChars_suffix _ (pre ++ ['"']))
    · exact Or.inl hnil
    · exact Or.inr ⟨front, hfront⟩
  · have hcandidates : candidates options script text =
        [declaredAt options script text before.length] := by
      rw [candidates, hcall, ← hoffset]
      rfl
    show newPackages seen (candidates options script text) = _
    rw [hcandidates]
    split
    · next hseen => exact newPackages_cons_of_mem hseen []
    · next hseen => exact newPackages_cons_of_not_mem hseen []

/-- The name is that of the second announcement. -/
theorem scan_announced_notes :
    let name : ShownName := ⟨"My Notes".toList, ⟨by decide, by decide, by decide⟩, by decide⟩
    let text := "'Installing a...'; ".toList ++ '"' :: (name.announced ++ '"' :: [' ']) ++
      ("Add-AppxPackage".toList ++ " n".toList)
    ∃ p : Package, p.name = "My Notes".toList ∧
      ((⟨.sideload, {}, []⟩ : Detector).scan [] text []).1 = [p] := by
  intro name text
  have hfirst : (marker.first? text).map Hit.offset = some 44 := by decide
  have hmid : announcement.occursIn [' '] = false := by decide
  have hlookback : ((name.announced ++ '"' :: [' ']).length : Int) ≤
      ({} : ScanOptions).nameLookback := by decide
  obtain ⟨p, hname, hscan⟩ := scan_announced name {} [] [] hfirst hmid hlookback
  exact ⟨p, hname, hscan []⟩

end SetupCatalog.Rule.Sideload
