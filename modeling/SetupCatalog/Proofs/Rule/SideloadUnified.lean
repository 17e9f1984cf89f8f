import SetupCatalog.Proofs.Rule.Field
import SetupCatalog.Proofs.Rule.SideloadText
import SetupCatalog.Proofs.Pattern.Unified

/-!
# Sideloads and line breaks

The name that a window announces and the address that it gives do not depend on how the lines of the
window end (`nameIn_unified`, `addressIn_unified`). An announcement may stretch over several lines
before the name and may end at a line end, but the name itself has none; and where the end of an
announcement is a line end, it is the last one of a run of blanks, so that a line break is taken as
a whole. An address has no line end at all.
-/

namespace SetupCatalog.Rule.Sideload

open Text Pattern

/-- The word that marks a sideload stays on one line. -/
theorem marker_unified : marker.ReadsUnified id where
  reads prev t := by
    simp only [marker, bind, pure, wordStarts_map_unifyChar,
      keyword_unified (show isOneLineWord "Add-AppxPackage".toList = true by decide),
      wordEnds_unified, Option.bind_map, Option.map_bind, Function.comp_def, Option.map_some,
      Prod.map, id]
  lineEnd prev c t hc := by
    have hword : keyword "Add-AppxPackage".toList (c :: t) = none :=
      keyword_lineEnd (by decide) hc t
    simp only [marker, hword, bind, Option.bind_none, Option.bind_fun_none]

/-! ## The announcement of the name -/

/-- Whether a character ends an announcement by itself. -/
def endsAnnouncement (c : Char) : Bool :=
  c = '…' || isQuote c || c = '\x60'

/-- Three dots are read one by one. -/
theorem threeDots_eq_some_iff {t rest : Text} :
    ((symbol '.' t).bind (symbol '.')).bind (symbol '.') = some rest ↔
      t = '.' :: '.' :: '.' :: rest := by
  simp only [Option.bind_assoc, Option.bind_eq_some_iff, symbol_eq_some_iff, exists_eq_right]

/-- A mark that ends an announcement is three dots or a single character. -/
theorem announcementMark_cons (c : Char) (t : Text) :
    announcementMark (c :: t) =
      (((symbol '.' (c :: t)).bind (symbol '.')).bind (symbol '.')).or
        (if endsAnnouncement c then some t else none) := by
  by_cases hdots : ∃ u, c :: t = '.' :: '.' :: '.' :: u
  · obtain ⟨u, hu⟩ := hdots
    rw [List.cons.injEq] at hu
    obtain ⟨rfl, rfl⟩ := hu
    rfl
  · have hnone : ((symbol '.' (c :: t)).bind (symbol '.')).bind (symbol '.') = none :=
      Option.eq_none_iff_forall_ne_some.mpr fun u hu => hdots ⟨u, threeDots_eq_some_iff.mp hu⟩
    rw [hnone, Option.none_or]
    apply announcementMark.eq_3
    rintro u rfl rfl
    exact hdots ⟨u, rfl⟩

/-- No mark starts with a line end. -/
theorem announcementMark_lineEnd {c : Char} (hc : isLineEnd c = true) (t : Text) :
    announcementMark (c :: t) = none := by
  rw [announcementMark_cons, symbol_lineEnd rfl hc, if_neg]
  · rfl
  · rcases isLineEnd_iff.mp hc with rfl | rfl <;> decide

/-- The word that announces a package is read up to its blanks. -/
theorem announcementMark_unified (t : Text) :
    announcementMark (unifyBreaks t) = (announcementMark t).map unifyBreaks := by
  cases t using breaks_induction with
  | nil => rfl
  | inside c t hc _ =>
    have hdots : ((symbol '.' (unifyBreaks (c :: t))).bind (symbol '.')).bind (symbol '.') =
        (((symbol '.' (c :: t)).bind (symbol '.')).bind (symbol '.')).map unifyBreaks := by
      simp only [@symbol_unified '.' rfl, Option.bind_map, Option.map_bind, Option.bind_assoc,
        Function.comp_def]
    rw [unifyBreaks_cons hc] at hdots ⊢
    rw [announcementMark_cons, hdots, announcementMark_cons]
    -- without three dots only the first character counts
    cases ((symbol '.' (c :: t)).bind (symbol '.')).bind (symbol '.') with
    | some rest => rfl
    | none =>
      rw [Option.map_none, Option.none_or, Option.none_or]
      split <;> rfl
  | lineBreak b t hb _ =>
    obtain ⟨e, u, heq, he⟩ := hb.exists_cons
    rw [unifyBreaks_break hb, heq, announcementMark_lineEnd he, announcementMark_lineEnd rfl]
    rfl

/-- What ends an announcement is read off a text with one kind of line break. -/
theorem announcementEnd_unified (t : Text) :
    announcementEnd (unifyBreaks t) = (announcementEnd t).map unifyBreaks := by
  -- the blanks before the end, the nearest first, and those of them on its line
  have hblanks : ((unifyBreaks t).takeWhile isBlank).reverse =
      unifyBefore (t.takeWhile isBlank).reverse := by
    rw [takeWhile_unifyBreaks (by decide), unifyBefore, List.reverse_reverse]
  have hclass : (fun c => !isLineEnd c && !isLineEnd c) = fun c => !isLineEnd c := by
    funext c
    rw [Bool.and_self]
  have hline : ∀ before : Text, (unifyBefore before).takeWhile (fun c => !isLineEnd c) =
      before.takeWhile fun c => !isLineEnd c := by
    intro before
    rw [takeWhile_unifyBefore rfl, hclass]
  have hinside : ∀ before : Text, ∀ c ∈ (before.takeWhile fun c => !isLineEnd c).reverse,
      isLineEnd c = false := by
    intro before c hc
    simpa using List.mem_takeWhile_imp (List.mem_reverse.mp hc)
  simp only [announcementEnd, trimStart_unifyBreaks, announcementMark_unified, hblanks, hline,
    any_isLineEnd_unifyBefore]
  cases announcementMark (trimStart t) with
  | some rest => rfl
  | none =>
    simp only [Option.map_none]
    split
    · rw [Option.map_some, unifyBreaks_append_inside (hinside _)]
    · rfl

/-- The name between the two is on one line, so it stays as it is. -/
theorem announcedName_unified (t : Text) :
    announcedName (unifyBreaks t) = (announcedName t).map (Prod.map id unifyBreaks) := by
  -- no announced name goes over a line end
  have hlineEnd : ∀ {c : Char} (u : Text), isLineEnd c = true → announcedName (c :: u) = none := by
    intro c u hc
    rw [announcedName, if_neg]
    rw [isAnnouncedChar, hc, Bool.not_true, Bool.and_false]
    exact Bool.false_ne_true
  induction t using breaks_induction with
  | nil => rfl
  | inside c t hc ih =>
    rw [unifyBreaks_cons hc, announcedName, announcedName, announcementEnd_unified, ih]
    split
    · cases announcementEnd t with
      | some rest => rfl
      | none => cases announcedName t <;> rfl
    · rfl
  | lineBreak b t hb _ =>
    obtain ⟨e, u, heq, he⟩ := hb.exists_cons
    rw [unifyBreaks_break hb, heq, hlineEnd u he, hlineEnd _ rfl]
    rfl

/-- An announcement gives the same name. -/
theorem announcement_unified : announcement.ReadsUnified id where
  reads prev t := by
    simp only [announcement, bind, wordStarts_map_unifyChar,
      keyword_unified (show isOneLineWord "Installing".toList = true by decide),
      someBlanks_unified, announcedName_unified, Option.bind_map, Option.map_bind,
      Function.comp_def]
  lineEnd prev c t hc := by
    have hword : keyword "Installing".toList (c :: t) = none :=
      keyword_lineEnd (by decide) hc t
    simp only [announcement, hword, bind, Option.bind_none, Option.bind_fun_none]

/-! ### Where an announcement ends -/

/-- The mark of an announcement is left outside of a line break. -/
theorem leavesWhole_of_announcementMark {t rest : Text} (h : announcementMark t = some rest) :
    t.LeavesWhole rest := by
  cases t with
  | nil =>
    obtain rfl := Option.some.inj h
    exact leavesWhole_of_head? (by simp)
  | cons c t =>
    rw [announcementMark_cons, Option.or_eq_some_iff] at h
    rcases h with h | ⟨-, h⟩
    · rw [threeDots_eq_some_iff.mp h]
      exact (leavesWhole_cons rfl rest).append ['.', '.']
    · split at h
      · next hc =>
        obtain rfl := Option.some.inj h
        apply leavesWhole_cons
        cases hend : isLineEnd c with
        | false => rfl
        | true => rcases isLineEnd_iff.mp hend with rfl | rfl <;> exact absurd hc (by decide)
      · cases h

/-- So is its end. -/
theorem leavesWhole_of_announcementEnd {t rest : Text} (h : announcementEnd t = some rest) :
    t.LeavesWhole rest := by
  have hsplit : t.takeWhile isBlank ++ trimStart t = t := List.takeWhile_append_dropWhile
  unfold announcementEnd at h
  extract_lets after blanks at h
  split at h
  · next hmark =>
    obtain rfl := Option.some.inj h
    rw [← hsplit]
    exact (leavesWhole_of_announcementMark hmark).append _
  · split at h
    · obtain rfl := Option.some.inj h
      -- the end is the last line end of the blanks, so no line feed comes next
      have hhead : ((blanks.takeWhile fun c => !isLineEnd c).reverse ++ after).head? ≠
          some '\n' := by
        intro hhead
        obtain ⟨u, hu⟩ := List.head?_eq_some_iff.mp hhead
        cases hline : (blanks.takeWhile fun c => !isLineEnd c).reverse with
        | nil =>
          have hafter := List.head?_dropWhile_not isBlank t
          rw [hline, List.nil_append] at hu
          rw [← trimStart, show trimStart t = '\n' :: u from hu, List.head?_cons] at hafter
          exact absurd hafter (by decide)
        | cons c others =>
          rw [hline, List.cons_append, List.cons.injEq] at hu
          have hc : '\n' ∈ blanks.takeWhile fun c => !isLineEnd c := by
            rw [← List.mem_reverse, hline, hu.1]
            exact List.mem_cons_self
          exact absurd (List.mem_takeWhile_imp hc) (by decide)
      have hblanks : t.takeWhile isBlank = (blanks.dropWhile fun c => !isLineEnd c).reverse ++
          (blanks.takeWhile fun c => !isLineEnd c).reverse := by
        rw [← List.reverse_append, List.takeWhile_append_dropWhile, List.reverse_reverse]
      rw [← hsplit, hblanks, List.append_assoc]
      exact (leavesWhole_of_head? hhead).append _
    · cases h

/-- So is the name. -/
theorem leavesWhole_of_announcedName {t name rest : Text}
    (h : announcedName t = some (name, rest)) : t.LeavesWhole rest := by
  induction t generalizing name with
  | nil => cases h
  | cons c t ih =>
    rw [announcedName] at h
    split at h
    · split at h
      · next hend =>
        cases h
        exact (leavesWhole_of_announcementEnd hend).append [c]
      · obtain ⟨⟨others, rest'⟩, hothers, heq⟩ := Option.map_eq_some_iff.mp h
        obtain ⟨-, rfl⟩ := Prod.mk.inj heq
        exact (ih hothers).append [c]
    · cases h

/-- So an announcement is left outside of a line break. -/
theorem leavesBreaksWhole_announcement : announcement.LeavesBreaksWhole := by
  intro prev t name rest h
  simp only [announcement, bind, Option.bind_eq_some_iff] at h
  obtain ⟨-, -, t₁, hword, t₂, hblanks, hname⟩ := h
  obtain ⟨spelt, hspelt, rfl⟩ := keyword_eq_some_iff.mp hword
  obtain ⟨passed, rfl⟩ := suffix_of_someBlanks hblanks
  have hwhole := leavesWhole_of_announcedName hname
  refine ⟨(hwhole.append passed).append spelt, ?_⟩
  obtain ⟨read, rfl, -⟩ := hwhole
  have hlength : spelt.length = "Installing".toList.length := (List.Forall₂.length_eq hspelt).symm
  rw [List.length_append, List.length_append, List.length_append, hlength,
    show "Installing".toList.length = 10 from rfl]
  omega

/-- The name that a window announces does not depend on how its lines end. -/
theorem nameIn_unified (window : Text) : nameIn (unifyBreaks window) = nameIn window := by
  rw [nameIn, all_unified announcement_unified leavesBreaksWhole_announcement, List.map_map, nameIn]
  rfl

/-! ## The address of the download -/

/-- The scheme of an address stays on one line. -/
theorem scheme_unified (t : Text) : scheme (unifyBreaks t) = (scheme t).map unifyBreaks := by
  have hhttp : isOneLineWord "http".toList = true := by decide
  have hs : isOneLineWord "s".toList = true := by decide
  have hslashes : isOneLineWord "://".toList = true := by decide
  have hsecure : ∀ t : Text, ((keyword "s".toList t).map unifyBreaks).getD (unifyBreaks t) =
      unifyBreaks ((keyword "s".toList t).getD t) := by
    intro t
    cases keyword "s".toList t <;> rfl
  simp only [scheme, bind, keyword_unified hhttp, keyword_unified hs, keyword_unified hslashes,
    hsecure, Option.bind_map, Option.map_bind, Function.comp_def]

/-- No address starts with the end of a line. -/
theorem scheme_lineEnd {c : Char} (hc : isLineEnd c = true) (t : Text) :
    scheme (c :: t) = none := by
  have hword : keyword "http".toList (c :: t) = none := keyword_lineEnd (by decide) hc t
  rw [scheme, hword]
  rfl

/-- What is read on one line stays. -/
theorem consumed_unified {read : Text} (h : read.OneLine) (rest : Text) :
    consumed (unifyBreaks (read ++ rest)) (unifyBreaks rest) = consumed (read ++ rest) rest := by
  rw [unifyBreaks_append_inside h, consumed_append, consumed_append]

/-- An address ends at a blank at the latest, so it stays as it is. -/
theorem address_unified (t : Text) :
    address (unifyBreaks t) = (address t).map (Prod.map id unifyBreaks) := by
  simp only [address, bind, pure, scheme_unified, Option.bind_map, Option.map_bind,
    Function.comp_def, someOf_unified (show BreakBlind isAddressChar by decide)
      (show isAddressChar '\n' = false by decide), Option.map_some, Prod.map]
  cases hscheme : scheme t with
  | none => rfl
  | some after =>
    rw [Option.bind_some, Option.bind_some]
    cases hword : someOf isAddressChar after with
    | none => rfl
    | some found =>
      obtain ⟨word, rest⟩ := found
      obtain ⟨read, rfl, hread⟩ := scheme_eq_some hscheme
      obtain ⟨-, hchars, rfl⟩ := of_someOf_eq_some hword
      -- an address stands on one line, so it is kept as it is
      have hline : word.OneLine := fun c hc =>
        isLineEnd_eq_false_of_isBlank (isBlank_eq_false_of_isAddressChar (hchars c hc))
      rw [Option.bind_some, Option.bind_some, ← List.append_assoc,
        consumed_unified (hread.append hline)]
      rfl

/-- The first address on a line is the same. -/
theorem addressOnLine_unified (t : Text) :
    addressOnLine (unifyBreaks t) = (addressOnLine t).map (Prod.map id unifyBreaks) := by
  -- the search for an address stops at the end of the line
  have hlineEnd : ∀ {c : Char} (u : Text), isLineEnd c = true → addressOnLine (c :: u) = none := by
    intro c u hc
    rw [addressOnLine, address, scheme_lineEnd hc, if_pos hc]
    rfl
  induction t using breaks_induction with
  | nil => rfl
  | inside c t hc ih =>
    have haddress := address_unified (c :: t)
    rw [unifyBreaks_cons hc] at haddress ⊢
    rw [addressOnLine, haddress, ih, addressOnLine]
    cases address (c :: t) with
    | some found => rfl
    | none =>
      simp only [Option.map_none]
      split <;> rfl
  | lineBreak b t hb _ =>
    obtain ⟨e, u, heq, he⟩ := hb.exists_cons
    rw [unifyBreaks_break hb, heq, hlineEnd u he, hlineEnd _ rfl]
    rfl

/-- The word that fetches an address stays on one line. -/
theorem fetchVerb_unified (prev : Option Char) (t : Text) :
    fetchVerb (prev.map unifyChar) (unifyBreaks t) = (fetchVerb prev t).map unifyBreaks := by
  have horElse : ∀ word other : Option Text,
      ((word.map unifyBreaks).orElse fun _ => other.map unifyBreaks) =
        (word.orElse fun _ => other).map unifyBreaks := by
    intro word other
    cases word <;> rfl
  have hwords : ∀ word ∈ ["Invoke-WebRequest".toList, "iwr".toList, "Start-BitsTransfer".toList,
      "curl".toList, "wget".toList], isOneLineWord word = true := by
    decide
  have hmethod : isOneLineWord ".DownloadFile".toList = true := by decide
  simp only [fetchVerb, bind, pure, wordStarts_map_unifyChar, anyKeyword_unified hwords,
    keyword_unified hmethod, trimStart_unifyBreaks,
    @symbol_unified '(' rfl, wordEnds_unified, Option.bind_map,
    Function.comp_def, ← horElse, Option.map_bind, Option.map_some]

/-- A fetch finds the same address. -/
theorem fetch_unified : fetch.ReadsUnified id where
  reads prev t := by
    simp only [fetch, bind, fetchVerb_unified, addressOnLine_unified, Option.bind_map,
      Option.map_bind, Function.comp_def]
  lineEnd prev c t hc := by
    have hwords : anyKeyword ["Invoke-WebRequest".toList, "iwr".toList,
        "Start-BitsTransfer".toList, "curl".toList, "wget".toList] (c :: t) = none := by
      exact anyKeyword_lineEnd (by decide) hc t
    have hmethod : keyword ".DownloadFile".toList (c :: t) = none :=
      keyword_lineEnd (by decide) hc t
    simp only [fetch, fetchVerb, hwords, hmethod, bind, Option.bind_none, Option.bind_fun_none]
    rfl

/-- The ending of a package file stays on one line. -/
theorem packageEnding_unified (t : Text) :
    packageEnding (unifyBreaks t) = (packageEnding t).map unifyBreaks := by
  have hendings : ∀ word ∈ ["msixbundle".toList, "appxbundle".toList, "msix".toList,
      "appx".toList], isOneLineWord word = true := by
    decide
  -- the extensions are tried in turn, and each is read alike
  have hfirst : ∀ words : List Text, ∀ read read' : Text → Option Text,
      (∀ word ∈ words, read' word = (read word).map unifyBreaks) →
        words.findSome? read' = (words.findSome? read).map unifyBreaks := by
    intro words read read' h
    induction words with
    | nil => rfl
    | cons word words ih =>
      obtain ⟨hword, hothers⟩ := List.forall_mem_cons.mp h
      rw [List.findSome?_cons, List.findSome?_cons, hword, ih hothers]
      cases read word <;> rfl
  rw [packageEnding, @symbol_unified '.' rfl, packageEnding]
  cases symbol '.' t with
  | none => rfl
  | some rest =>
    simp only [bind, Option.map_some, Option.bind_some]
    refine hfirst _ _ _ fun word hword => ?_
    simp only [pure, keyword_unified (hendings word hword), wordEnds_unified, Option.bind_map,
      Option.map_bind, Function.comp_def, Option.map_some]

/-- The path of a package file ends at the same place. -/
theorem packagePath_unified (t : Text) :
    packagePath (unifyBreaks t) = (packagePath t).map unifyBreaks := by
  induction t using breaks_induction with
  | nil => rfl
  | inside c t hc ih =>
    rw [unifyBreaks_cons hc, packagePath, packagePath, packageEnding_unified, ih]
    split
    · cases packageEnding t <;> rfl
    · rfl
  | lineBreak b t hb _ =>
    have hfeed : ¬ isAddressChar '\n' = true := by decide
    obtain ⟨e, u, heq, he⟩ := hb.exists_cons
    have hend : ¬ isAddressChar e = true := by
      rwa [(show BreakBlind isAddressChar by decide).eq he]
    rw [unifyBreaks_break hb, heq, packagePath, if_neg hfeed, packagePath, if_neg hend]
    rfl

/-- The address of a package file is the same. -/
theorem packageAddress_unified : packageAddress.ReadsUnified id where
  reads prev t := by
    simp only [packageAddress, bind, pure, scheme_unified, packagePath_unified, Option.bind_map,
      Option.map_bind, Function.comp_def, Option.map_some, Prod.map]
    cases hscheme : scheme t with
    | none => rfl
    | some after =>
      rw [Option.bind_some, Option.bind_some]
      cases hpath : packagePath after with
      | none => rfl
      | some rest =>
        obtain ⟨read, rfl, hread⟩ := scheme_eq_some hscheme
        obtain ⟨path, rfl, hlegible⟩ := packagePath_eq_some hpath
        rw [Option.bind_some, Option.bind_some, ← List.append_assoc,
          consumed_unified (hread.append hlegible.oneLine)]
        rfl
  lineEnd prev c t hc := by
    rw [packageAddress, scheme_lineEnd hc]
    rfl

/-- The address that a window gives does not depend on how its lines end. -/
theorem addressIn_unified (window : Text) : addressIn (unifyBreaks window) = addressIn window := by
  rw [addressIn, find?_unified fetch_unified, find?_unified packageAddress_unified,
    Option.map_id_fun, addressIn]
  rfl

end SetupCatalog.Rule.Sideload
