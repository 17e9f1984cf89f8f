import SetupCatalog.Proofs.Pattern.Reading
import SetupCatalog.Proofs.Pattern.Search
import SetupCatalog.Proofs.Text.Legible
import SetupCatalog.Rule.Sideload

/-!
# What the sideload rule reads

The rule reads a name before the call and an address around it, and falls back on a fixed text for
either. The windows that it reads may hold any number of lines, so it is the readings themselves
that stay on one line:

* an announced name stops before a line end, and a name that cleaning leaves empty is passed over;
* an address has a scheme, which spells letters that no line end is a variant of, and goes on with
  at least one character that is not blank.

`legible_nameIn` and `legible_addressIn` hold for every window. Besides, an address starts as its
scheme does, which tells it from other texts (`addressIn_eq_or_startsAsScheme`).
-/

namespace SetupCatalog.Rule.Sideload

open Text Pattern

/-! ## Names -/

/-- An announced name stays on one line. -/
theorem announcedName_oneLine {t name rest : Text} (h : announcedName t = some (name, rest)) :
    name.OneLine := by
  induction t generalizing name with
  | nil => cases h
  | cons c t ih =>
    rw [announcedName] at h
    split at h
    · next hc =>
      have hend : isLineEnd c = false := by
        simp only [isAnnouncedChar, Bool.and_eq_true, Bool.not_eq_true'] at hc
        exact hc.2
      split at h
      · cases h
        exact oneLine_nil.cons hend
      · obtain ⟨⟨others, rest'⟩, hothers, heq⟩ := Option.map_eq_some_iff.mp h
        obtain ⟨rfl, rfl⟩ := Prod.mk.inj heq
        exact (ih hothers).cons hend
    · cases h

/-- What cleaning leaves of a name on one line is legible, if anything is left. -/
theorem legible_cleanName {name : Text} (hne : cleanName name ≠ [])
    (h : name.OneLine) : (cleanName name).Legible :=
  -- the dots are taken off last, so what is left still starts with a visible character
  .of_prefix_trimStart ((isPrefix_trimEnd _ _).trans (isPrefix_trimEnd isBlank _)) hne h

/-- The name of a sideloaded package is legible. -/
theorem legible_nameIn (window : Text) : (nameIn window).Legible := by
  unfold nameIn
  extract_lets names
  cases hlast : names.getLast? with
  | none =>
    -- no announcement has left a name
    exact (by decide : defaultName.Legible)
  | some name =>
    have hname : name ∈ names := List.mem_of_getLast? hlast
    simp only [names, List.mem_filter, List.mem_map, Bool.not_eq_true',
      List.isEmpty_eq_false_iff] at hname
    obtain ⟨⟨hit, hhit, rfl⟩, hne⟩ := hname
    obtain ⟨rest, -, hread⟩ := exists_of_mem_all hhit
    simp only [announcement, bind, Option.bind_eq_some_iff] at hread
    obtain ⟨-, -, t, -, t', -, hfound⟩ := hread
    exact legible_cleanName hne (announcedName_oneLine hfound)

/-! ## Addresses -/

/-- What a scheme is read of stays on one line. -/
theorem scheme_eq_some {t rest : Text} (h : scheme t = some rest) :
    ∃ read, t = read ++ rest ∧ read.OneLine := by
  obtain ⟨t', hfirst, hlast⟩ := Option.bind_eq_some_iff.mp h
  obtain ⟨http, rfl, hhttp⟩ := keyword_oneLine (by decide) hfirst
  obtain ⟨slashes, hafter, hslashes⟩ := keyword_oneLine (by decide) hlast
  -- the letter `s` between the two is optional
  cases hmiddle : keyword "s".toList t' with
  | none =>
    rw [hmiddle, Option.getD_none] at hafter
    exact ⟨http ++ slashes, by rw [hafter, List.append_assoc], hhttp.append hslashes⟩
  | some t'' =>
    rw [hmiddle, Option.getD_some] at hafter
    obtain ⟨s, rfl, hs⟩ := keyword_oneLine (by decide) hmiddle
    refine ⟨http ++ (s ++ slashes), ?_, hhttp.append (hs.append hslashes)⟩
    rw [hafter, List.append_assoc, List.append_assoc]

/-- No character of an address is blank. -/
theorem isBlank_eq_false_of_isAddressChar {c : Char} (h : isAddressChar c = true) :
    isBlank c = false := by
  simp only [isAddressChar, Bool.and_eq_true, Bool.not_eq_true'] at h
  exact h.1.1

/-- An address is a scheme and at least one further character, as many as there are. -/
theorem address_eq_some_iff {t found rest : Text} :
    address t = some (found, rest) ↔
      ∃ read word, found = read ++ word ∧ t = read ++ (word ++ rest) ∧
        scheme t = some (word ++ rest) ∧
        someOf isAddressChar (word ++ rest) = some (word, rest) := by
  constructor
  · intro h
    obtain ⟨t', hscheme, h⟩ := Option.bind_eq_some_iff.mp h
    obtain ⟨⟨word, after⟩, hword, h⟩ := Option.bind_eq_some_iff.mp h
    obtain ⟨rfl, rfl⟩ := Prod.mk.inj (Option.some.inj h)
    obtain ⟨read, rfl, -⟩ := scheme_eq_some hscheme
    obtain ⟨-, -, rfl⟩ := of_someOf_eq_some hword
    refine ⟨read, word, ?_, rfl, hscheme, hword⟩
    rw [← List.append_assoc, consumed_append]
  · rintro ⟨read, word, rfl, ht, hscheme, hword⟩
    simp only [address, bind, hscheme, hword, Option.bind_some, pure]
    rw [ht, ← List.append_assoc, consumed_append]

/-- An address is legible. -/
theorem legible_of_address {t found rest : Text} (h : address t = some (found, rest)) :
    found.Legible := by
  obtain ⟨read, word, rfl, rfl, hscheme, hword⟩ := address_eq_some_iff.mp h
  obtain ⟨read', hread', hline⟩ := scheme_eq_some hscheme
  obtain rfl := List.append_cancel_right hread'
  obtain ⟨hne, hchars, -⟩ := of_someOf_eq_some hword
  refine Legible.append_left (.of_not_blank hne fun c hc => ?_) hline
  exact isBlank_eq_false_of_isAddressChar (hchars c hc)

/-- An address on the line is an address that stands further on in the text. -/
theorem exists_of_addressOnLine {t found rest : Text} (h : addressOnLine t = some (found, rest)) :
    ∃ passed t', t = passed ++ t' ∧ address t' = some (found, rest) := by
  induction t with
  | nil => cases h
  | cons c t ih =>
    rw [addressOnLine] at h
    split at h
    · next hfound =>
      rw [h] at hfound
      exact ⟨[], c :: t, rfl, hfound⟩
    · split at h
      · cases h
      · obtain ⟨passed, t', rfl, haddress⟩ := ih h
        exact ⟨c :: passed, t', rfl, haddress⟩

/-- An address found on a line is legible. -/
theorem legible_of_addressOnLine {t found rest : Text}
    (h : addressOnLine t = some (found, rest)) : found.Legible := by
  obtain ⟨passed, t', -, haddress⟩ := exists_of_addressOnLine h
  exact legible_of_address haddress

/-- The ending of a package's name stays on one line. -/
theorem packageEnding_eq_some {t rest : Text} (h : packageEnding t = some rest) :
    ∃ read, t = read ++ rest ∧ read.OneLine := by
  have hendings : ["msixbundle".toList, "appxbundle".toList, "msix".toList,
      "appx".toList].all isOneLineWord = true := by
    decide
  obtain ⟨t', hdot, h⟩ := Option.bind_eq_some_iff.mp h
  obtain rfl := symbol_eq_some_iff.mp hdot
  obtain ⟨word, hword, h⟩ := List.exists_of_findSome?_eq_some h
  obtain ⟨after, hkeyword, h⟩ := Option.bind_eq_some_iff.mp h
  obtain ⟨-, -, h⟩ := Option.bind_eq_some_iff.mp h
  obtain rfl := Option.some.inj h
  obtain ⟨read, rfl, hread⟩ := keyword_oneLine (List.all_eq_true.mp hendings word hword) hkeyword
  exact ⟨'.' :: read, rfl, hread.cons (by decide)⟩

/-- The path to a package is legible. -/
theorem packagePath_eq_some {t rest : Text} (h : packagePath t = some rest) :
    ∃ path, t = path ++ rest ∧ path.Legible := by
  induction t with
  | nil => cases h
  | cons c t ih =>
    rw [packagePath] at h
    split at h
    · next hc =>
      have hblank : ∀ d ∈ [c], isBlank d = false := by
        intro d hd
        rw [List.mem_singleton.mp hd]
        exact isBlank_eq_false_of_isAddressChar hc
      have hfirst : Legible [c] := .of_not_blank (List.cons_ne_nil c []) hblank
      rw [Option.orElse_eq_or, Option.or_eq_some_iff] at h
      -- the extension comes here, or the path goes on
      rcases h with h | ⟨-, h⟩
      · obtain ⟨ending, rfl, hending⟩ := packageEnding_eq_some h
        exact ⟨[c] ++ ending, rfl, hfirst.append_right hending⟩
      · obtain ⟨path, rfl, hpath⟩ := ih h
        exact ⟨[c] ++ path, rfl, hpath.append_left hfirst.oneLine⟩
    · cases h

/-- An address found at a package's extension is legible. -/
theorem legible_of_packageAddress {prev : Option Char} {t found rest : Text}
    (h : packageAddress prev t = some (found, rest)) : found.Legible := by
  obtain ⟨t', hscheme, h⟩ := Option.bind_eq_some_iff.mp h
  obtain ⟨after, hpath, h⟩ := Option.bind_eq_some_iff.mp h
  obtain ⟨rfl, rfl⟩ := Prod.mk.inj (Option.some.inj h)
  obtain ⟨read, rfl, hread⟩ := scheme_eq_some hscheme
  obtain ⟨path, rfl, hlegible⟩ := packagePath_eq_some hpath
  rw [← List.append_assoc, consumed_append]
  exact hlegible.append_left hread

/-- An address is read from somewhere, or none was found. -/
theorem addressIn_eq_or (window : Text) :
    addressIn window = defaultAddress ∨
      (∃ t rest, addressOnLine t = some (addressIn window, rest)) ∨
      ∃ prev t rest, packageAddress prev t = some (addressIn window, rest) := by
  unfold addressIn
  rw [Option.orElse_eq_or]
  cases hfound : (fetch.find? window).or (packageAddress.find? window) with
  | none => exact Or.inl rfl
  | some found =>
    rw [Option.getD_some]
    refine Or.inr ?_
    rcases Option.or_eq_some_iff.mp hfound with h | ⟨-, h⟩
    · obtain ⟨before, t, after, -, hread, -⟩ := find?_eq_some_iff.mp h
      obtain ⟨t', -, honline⟩ := Option.bind_eq_some_iff.mp hread
      exact Or.inl ⟨t', after, honline⟩
    · obtain ⟨before, t, after, -, hread, -⟩ := find?_eq_some_iff.mp h
      exact Or.inr ⟨_, t, after, hread⟩

/-- The address of a sideloaded package is legible. -/
theorem legible_addressIn (window : Text) : (addressIn window).Legible := by
  rcases addressIn_eq_or window with h | ⟨t, rest, h⟩ | ⟨prev, t, rest, h⟩
  · rw [h]
    decide
  · exact legible_of_addressOnLine h
  · exact legible_of_packageAddress h

/-! ## Where addresses start -/

/-- A text starts as a scheme does. -/
def StartsAsScheme (t : Text) : Prop :=
  ∃ c ∈ t.head?, sameLetter 'h' c = true

/-- Where a scheme is read, the text starts as one. -/
theorem startsAsScheme_of_scheme {t rest : Text} (h : scheme t = some rest) : StartsAsScheme t := by
  obtain ⟨t', hfirst, -⟩ := Option.bind_eq_some_iff.mp h
  obtain ⟨spelt, hspelt, rfl⟩ := keyword_eq_some_iff.mp hfirst
  obtain ⟨c, spelt, hc, -, rfl⟩ := List.forall₂_cons_left_iff.mp hspelt
  exact ⟨c, rfl, hc⟩

/-- What is read of a text that starts as a scheme does starts like that, unless it is nothing. -/
theorem StartsAsScheme.of_legible_start {t read : Text} (h : StartsAsScheme t) (hread : read <+: t)
    (hlegible : read.Legible) : StartsAsScheme read := by
  obtain ⟨d, hd, -⟩ := hlegible.visible
  obtain ⟨more, rfl⟩ := hread
  obtain ⟨c, hc, hsame⟩ := h
  rw [List.head?_append_of_ne_nil _ (List.ne_nil_of_mem hd)] at hc
  exact ⟨c, hc, hsame⟩

/-- What is found as an address starts as one: the scheme is part of what is kept. -/
theorem startsAsScheme_of_address {t found rest : Text} (h : address t = some (found, rest)) :
    StartsAsScheme found := by
  obtain ⟨read, word, hfound, ht, hscheme, -⟩ := address_eq_some_iff.mp h
  refine (startsAsScheme_of_scheme hscheme).of_legible_start ⟨rest, ?_⟩ (legible_of_address h)
  rw [hfound, ht, List.append_assoc]

/-- An address found on a line starts as one. -/
theorem startsAsScheme_of_addressOnLine {t found rest : Text}
    (h : addressOnLine t = some (found, rest)) : StartsAsScheme found := by
  obtain ⟨passed, t', -, haddress⟩ := exists_of_addressOnLine h
  exact startsAsScheme_of_address haddress

/-- An address found at a package's extension starts as one. -/
theorem startsAsScheme_of_packageAddress {prev : Option Char} {t found rest : Text}
    (h : packageAddress prev t = some (found, rest)) : StartsAsScheme found := by
  have hlegible := legible_of_packageAddress h
  obtain ⟨t', hscheme, h⟩ := Option.bind_eq_some_iff.mp h
  obtain ⟨after, -, h⟩ := Option.bind_eq_some_iff.mp h
  obtain ⟨rfl, rfl⟩ := Prod.mk.inj (Option.some.inj h)
  exact (startsAsScheme_of_scheme hscheme).of_legible_start (List.take_prefix _ _) hlegible

/-- An address starts as a scheme does, unless none was found. -/
theorem addressIn_eq_or_startsAsScheme (window : Text) :
    addressIn window = defaultAddress ∨ StartsAsScheme (addressIn window) := by
  rcases addressIn_eq_or window with h | ⟨t, rest, h⟩ | ⟨prev, t, rest, h⟩
  · exact Or.inl h
  · exact Or.inr (startsAsScheme_of_addressOnLine h)
  · exact Or.inr (startsAsScheme_of_packageAddress h)

end SetupCatalog.Rule.Sideload
