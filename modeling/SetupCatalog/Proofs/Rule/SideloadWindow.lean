import SetupCatalog.Proofs.Detector.Scan
import SetupCatalog.Proofs.Pattern.Extension
import SetupCatalog.Proofs.Rule.Declaration
import SetupCatalog.Proofs.Rule.SideloadText
import SetupCatalog.Proofs.Text.Unit

/-!
# Addresses at the edge of a window

The rule for sideloads takes the first fetched address of a window around the call. The window is
cut out by counting characters, so it may end inside an address. What is read then is the part of
the address that lies in the window, and nothing tells it from a whole one. `id_of_fetch` says what
the identity is in the text: the address that is written there, or else, if the address reaches the
end of the window, as much of it as the window holds.
-/

namespace SetupCatalog.Rule.Sideload

open Text Pattern

/-! ## Addresses in a text that goes on -/

/-- An address that ends before a text is whole: no character of an address comes next. -/
def EndsAddress (rest : Text) : Prop :=
  rest.head?.any isAddressChar = false

instance (rest : Text) : Decidable (EndsAddress rest) :=
  inferInstanceAs (Decidable (_ = _))

/-- What of an address lies behind the end of a text: nothing, unless the address reaches it.
`after` is what the text has after the address, and `beyond` is what comes behind it. -/
def cutOff (after beyond : Text) : Text :=
  if after.isEmpty then beyond.takeWhile isAddressChar else []

/-- Where the address characters run out, an address ends. -/
theorem endsAddress_dropWhile (t : Text) : EndsAddress (t.dropWhile isAddressChar) := by
  have hhead := List.head?_dropWhile_not isAddressChar t
  rw [EndsAddress]
  cases h : (t.dropWhile isAddressChar).head? with
  | none => rfl
  | some c =>
    rw [h] at hhead
    simpa using hhead

/-- Where nothing comes after an address, it ends if what comes later does not go on with it. -/
theorem endsAddress_append_iff {rest more : Text} (h : EndsAddress rest) :
    EndsAddress (rest ++ more) ↔ (rest = [] → EndsAddress more) := by
  cases rest with
  | nil => simp
  | cons c rest => exact iff_of_true h fun hnil => absurd hnil (List.cons_ne_nil c rest)

/-- A scheme is read in the same way when the text goes on. -/
theorem scheme_append {t rest : Text} (h : scheme t = some rest) (more : Text) :
    scheme (t ++ more) = some (rest ++ more) := by
  obtain ⟨t', hfirst, hlast⟩ := Option.bind_eq_some_iff.mp h
  refine Option.bind_eq_some_iff.mpr ⟨t' ++ more, keyword_append_right hfirst more, ?_⟩
  cases hmiddle : keyword "s".toList t' with
  | some t'' =>
    rw [hmiddle, Option.getD_some] at hlast
    rw [keyword_append_right hmiddle, Option.getD_some, keyword_append_right hlast]
  | none =>
    rw [hmiddle, Option.getD_none] at hlast
    -- a colon stands where the letter could, so it is not there if the text goes on either
    have hletter : keyword "s".toList (t' ++ more) = none := by
      cases t' with
      | nil => cases hlast
      | cons c t' =>
        rw [show "s".toList = ['s'] from rfl, keyword] at hmiddle
        rw [List.cons_append, show "s".toList = ['s'] from rfl, keyword]
        split at hmiddle
        · cases hmiddle
        · next hc => rw [if_neg hc]
    rw [hletter, Option.getD_none, keyword_append_right hlast]

/-- What is read of an address stands before the rest, and the address ends there. -/
theorem of_address {t found rest : Text} (h : address t = some (found, rest)) :
    t = found ++ rest ∧ EndsAddress rest := by
  obtain ⟨read, word, rfl, rfl, -, hword⟩ := address_eq_some_iff.mp h
  exact ⟨(List.append_assoc _ _ _).symm, (someOf_eq_some_iff.mp hword).2.2.2⟩

/-- Where the text goes on, an address that reaches its end goes on too. -/
theorem address_append {t found rest : Text} (h : address t = some (found, rest)) (more : Text) :
    ∃ after, address (t ++ more) = some (found ++ cutOff rest more, after) := by
  obtain ⟨read, word, rfl, rfl, hscheme, hword⟩ := address_eq_some_iff.mp h
  replace hscheme := scheme_append hscheme more
  -- the address goes on only if it was read up to the end of the text
  cases rest with
  | nil =>
    obtain ⟨hne, hchars, -, -⟩ := someOf_eq_some_iff.mp hword
    refine ⟨more.dropWhile isAddressChar, address_eq_some_iff.mpr
      ⟨read, word ++ more.takeWhile isAddressChar, ?_, ?_, ?_, ?_⟩⟩
    · rw [cutOff, List.isEmpty_nil, if_pos rfl, List.append_assoc]
    · simp
    · rw [hscheme, List.append_nil, List.append_assoc, List.takeWhile_append_dropWhile]
    · refine someOf_eq_some_iff.mpr ⟨by simp [hne], fun c hc => ?_, rfl, ?_⟩
      · rcases List.mem_append.mp hc with hc | hc
        · exact hchars c hc
        · exact List.mem_takeWhile_imp hc
      · exact endsAddress_dropWhile more
  | cons c rest =>
    refine ⟨c :: rest ++ more, address_eq_some_iff.mpr ⟨read, word, ?_, ?_, ?_, ?_⟩⟩
    · rw [cutOff, List.isEmpty_cons, if_neg Bool.false_ne_true, List.append_nil]
    · simp
    · rw [hscheme, List.append_assoc]
    · have hlonger : someOf isAddressChar (word ++ c :: rest ++ more) =
          some (word, c :: rest ++ more) :=
        someOf_append hword fun hnil => absurd hnil (List.cons_ne_nil c rest)
      rwa [List.append_assoc] at hlonger

/-! ## Fetched addresses -/

/-- A fetching verb reads forward: what is left is an end of the text. -/
theorem suffix_of_fetchVerb {prev : Option Char} {t rest : Text}
    (h : fetchVerb prev t = some rest) : rest <:+ t := by
  rw [fetchVerb, Option.orElse_eq_or, Option.or_eq_some_iff] at h
  rcases h with h | ⟨-, h⟩
  · simp only [bind, Option.bind_eq_some_iff, Option.guard_eq_some', exists_const, pure,
      Option.some.injEq] at h
    obtain ⟨-, u, hword, -, rfl⟩ := h
    exact suffix_of_anyKeyword hword
  · obtain ⟨u, hmethod, hbracket⟩ := Option.bind_eq_some_iff.mp h
    exact (suffix_of_symbol hbracket).trans
      ((List.dropWhile_suffix isBlank).trans (suffix_of_keyword hmethod))

/-- A fetched address stands further on in the text. -/
theorem exists_of_fetch {prev : Option Char} {t found rest : Text}
    (h : fetch prev t = some (found, rest)) :
    ∃ passed t', t = passed ++ t' ∧ address t' = some (found, rest) := by
  obtain ⟨u, hverb, honline⟩ := Option.bind_eq_some_iff.mp h
  obtain ⟨read, rfl⟩ := suffix_of_fetchVerb hverb
  obtain ⟨passed, t', rfl, haddress⟩ := exists_of_addressOnLine honline
  exact ⟨read ++ passed, t', (List.append_assoc _ _ _).symm, haddress⟩

/-- A fetched address of a text stands in it, and the text goes on with what is left. -/
theorem exists_of_first?_fetch {t : Text} {hit : Hit Text} (h : fetch.first? t = some hit) :
    ∃ passed, t = passed ++ (hit.found ++ hit.after) ∧
      address (hit.found ++ hit.after) = some (hit.found, hit.after) := by
  obtain ⟨rest, ht, hread, -⟩ := first?_eq_some_iff.mp h
  obtain ⟨passed, t', rfl, haddress⟩ := exists_of_fetch hread
  obtain ⟨rfl, -⟩ := of_address haddress
  exact ⟨hit.before.reverse ++ passed, by rw [ht, List.append_assoc], haddress⟩

/-! ## The identity of a sideload -/

/-- The identity is the fetched address of the window around the call. -/
theorem id_eq_of_fetch {d : Detector} (hrule : d.rule = .sideload) {script text : Text}
    {seen : Seen} {p : Package} (hp : p ∈ (d.scan script text seen).1) {call : Hit Unit}
    (hcall : marker.first? text = some call) {hit : Hit Text}
    (hfetch : fetch.first? (window text (max 0 (call.offset - d.options.urlBefore))
      (call.offset + d.options.urlAfter)) = some hit) : p.id = hit.found := by
  have hcandidate := (mem_newPackages hp).1
  rw [hrule] at hcandidate
  obtain ⟨call', hcall', rfl⟩ := mem_candidates_iff.mp hcandidate
  obtain rfl := Option.some.inj (hcall.symm.trans hcall')
  have hfind : fetch.find? (window text (max 0 (call.offset - d.options.urlBefore))
      (call.offset + d.options.urlAfter)) = some hit.found := by
    rw [find?, hfetch, Option.map_some]
  show addressIn _ = _
  rw [addressIn, hfind, Option.orElse_some, Option.getD_some]

/-- A fetched identity stands in the text, and it is the address that is written there, or as much
of it as the window holds if the address reaches its end. So it is a whole address exactly if it
ends before the window does, or the text goes on behind the window with no further character of an
address. -/
theorem id_of_fetch {d : Detector} (hrule : d.rule = .sideload)
    (hbefore : 0 ≤ d.options.urlBefore) (hafter : 0 ≤ d.options.urlAfter) {script text : Text}
    {seen : Seen} {p : Package} (hp : p ∈ (d.scan script text seen).1) {call : Hit Unit}
    (hcall : marker.first? text = some call) {hit : Hit Text}
    (hfetch : fetch.first? (window text (max 0 (call.offset - d.options.urlBefore))
      (call.offset + d.options.urlAfter)) = some hit) :
    let beyond := text.drop (call.offset + d.options.urlAfter.toNat)
    p.id = hit.found ∧
      ∃ passed, text = passed ++ (p.id ++ (hit.after ++ beyond)) ∧
        (∃ rest, address (p.id ++ (hit.after ++ beyond)) =
          some (p.id ++ cutOff hit.after beyond, rest)) ∧
        (EndsAddress (hit.after ++ beyond) ↔ (hit.after = [] → EndsAddress beyond)) := by
  intro beyond
  have hid := id_eq_of_fetch hrule hp hcall hfetch
  obtain ⟨passed, hwindow, haddress⟩ := exists_of_first?_fetch hfetch
  obtain ⟨rest, hlonger⟩ := address_append haddress beyond
  obtain ⟨behind, htext, -⟩ := first?_eq_some_iff.mp hcall
  have hlength : call.offset = call.before.reverse.length := (List.length_reverse).symm
  -- the window and what is beyond it are an end of the text
  obtain ⟨start, hstart⟩ := exists_window_append call.before.reverse behind hbefore hafter
  rw [← htext, ← hlength, hwindow] at hstart
  rw [hid]
  refine ⟨rfl, start ++ passed, ?_, ⟨rest, ?_⟩,
    endsAddress_append_iff (of_address haddress).2⟩
  · calc text = start ++ (passed ++ (hit.found ++ hit.after) ++ beyond) := hstart
      _ = start ++ passed ++ (hit.found ++ (hit.after ++ beyond)) := by simp
  · rw [← List.append_assoc]
    exact hlonger

/-- A window that ends behind the host of an address: the path is cut off. -/
theorem id_of_fetch_host :
    let text := "Add-AppxPackage a; iwr https://e.org/app.msix".toList
    let p := declaredAt { urlAfter := 36 } [] text 0
    let beyond := text.drop 36
    p.id = "https://e.org".toList ∧
      ∃ passed, text = passed ++ (p.id ++ ([] ++ beyond)) ∧
        (∃ rest, address (p.id ++ ([] ++ beyond)) = some (p.id ++ cutOff [] beyond, rest)) ∧
        (EndsAddress ([] ++ beyond) ↔ (([] : Text) = [] → EndsAddress beyond)) := by
  intro text p beyond
  have hp : p ∈ ((⟨.sideload, { urlAfter := 36 }, []⟩ : Detector).scan [] text []).1 := by decide
  have hcall : marker.first? text = some ⟨[], (), " a; iwr https://e.org/app.msix".toList⟩ := rfl
  exact @id_of_fetch ⟨.sideload, { urlAfter := 36 }, []⟩ rfl (by decide) (by decide) [] text [] p hp
    _ hcall ⟨" ;a egakcaPxppA-ddA".toList, "https://e.org".toList, []⟩ rfl

/-- The script names a whole address, but the identity is only the start of it: the text goes on
with a character of an address. -/
theorem id_cut_by_window :
    let text := "Add-AppxPackage a; iwr https://e.org/app.msix".toList
    ((⟨.sideload, { urlAfter := 36 }, []⟩ : Detector).scan [] text []).1 =
        [{ plainPackage .sideload [] "https://e.org".toList with name := defaultName }] ∧
      text = "Add-AppxPackage a; iwr ".toList ++ ("https://e.org".toList ++ "/app.msix".toList) ∧
      ¬ EndsAddress "/app.msix".toList := by
  refine ⟨?_, ?_, ?_⟩ <;> decide

end SetupCatalog.Rule.Sideload
