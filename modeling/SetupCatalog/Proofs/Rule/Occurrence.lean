import SetupCatalog.Proofs.Rule.Legibility
import SetupCatalog.Proofs.Script.Invocation

/-!
# Identities stand in the script

No rule makes up an identity. Apart from sideloads, for which the default address may stand in,
every identity is a stretch of the text that the rule reads it from: of the line for a container's
entry, of the arguments of the call for a package on a line of its own, where quotes around a word
and flags before it are left out.
-/

namespace SetupCatalog

open Text Pattern

/-- What stripping leaves is a stretch of the text. -/
theorem Text.strip_isInfix (t : Text) : strip t <:+: t :=
  (isPrefix_trimEnd isBlank _).isInfix.trans (trimStart_suffix t).isInfix

namespace Script

/-! ## Calls and their arguments -/

/-- The arguments of a call stand on its line. -/
theorem isInfix_of_find?_withArguments {tool : Text} {suffix : Bool} {line arguments : Text}
    (h : (withArguments (installWords tool suffix)).find? line = some arguments) :
    arguments <:+: line := by
  refine isInfix_of_find? h fun prev rest found after hread => ?_
  simp only [withArguments, bind, Option.bind_eq_some_iff, Prod.exists, pure, Option.some.injEq,
    restOfLine, Prod.mk.injEq] at hread
  obtain ⟨_, t, hwords, rfl, -⟩ := hread
  exact (List.takeWhile_prefix _).isInfix.trans (suffix_of_installWords hwords).isInfix

/-- A word is read with the quotes around it. -/
theorem isInfix_of_argument {prev : Option Char} {t word rest : Text}
    (h : argument prev t = some (word, rest)) : word <:+: t := by
  unfold argument at h
  split at h
  · cases h
  · next q u =>
    split at h
    · next hquoted =>
      obtain ⟨rfl, -⟩ := Prod.mk.inj (Option.some.inj h)
      rw [Bool.and_eq_true, List.contains_iff_mem] at hquoted
      have hsplit := List.takeWhile_append_dropWhile (p := fun c => c != q) (l := u)
      -- the quote is closed, so the word stands between the two quotes
      cases hdrop : u.dropWhile fun c => c != q with
      | nil =>
        have hother := List.dropWhile_eq_nil_iff.mp hdrop q hquoted.2
        rw [bne_self_eq_false] at hother
        cases hother
      | cons c more =>
        have hhead := List.head?_dropWhile_not (fun c => c != q) u
        rw [hdrop] at hhead hsplit
        obtain rfl : c = q := by simpa using hhead
        refine ⟨[], more, ?_⟩
        rw [List.nil_append, List.cons_append, List.cons_append, List.append_assoc,
          List.singleton_append, hsplit]
    · obtain ⟨-, -, heq⟩ := of_someOf_eq_some h
      rw [heq]
      exact (List.prefix_append word rest).isInfix

/-- Unquoting only drops characters at both ends. -/
theorem unquoted_isInfix (word : Text) : unquoted word <:+: word := by
  unfold unquoted
  split
  · exact List.infix_refl _
  · split
    · exact (List.dropLast_prefix _).isInfix.trans (List.suffix_cons _ _).isInfix
    · exact List.infix_refl _

/-- Every word of an argument text is a stretch of it. -/
theorem isInfix_of_mem_arguments {text word : Text} (h : word ∈ arguments text) :
    word <:+: text := by
  obtain ⟨hit, hhit, rfl⟩ := List.mem_map.mp h
  obtain ⟨rest, htext, hread⟩ := exists_of_mem_all hhit
  have hrest : rest <:+ text := htext ▸ List.suffix_append _ rest
  exact (unquoted_isInfix _).trans ((isInfix_of_argument hread).trans hrest.isInfix)

end Script

namespace Rule

open Script

/-! ## Rules -/

/-- The identity of an entry stands on its line. -/
theorem Container.IsEntry.id_isInfix {text : Text} {b : Block} {line value : Text}
    (entry : IsEntry text b line value) : strip value <:+: line :=
  (strip_isInfix value).trans entry.value_isInfix

/-- The package found in a list of words stands in one of them. -/
theorem Choco.isInfix_of_packageIn {skipping : Bool} {words : List Text} {name : Text}
    (h : packageIn skipping words = some name) : ∃ word ∈ words, name <:+: word := by
  induction words generalizing skipping with
  | nil => cases h
  | cons word words ih =>
    have hlater : (∃ w ∈ words, name <:+: w) → ∃ w ∈ word :: words, name <:+: w :=
      fun ⟨w, hw, hinfix⟩ => ⟨w, List.mem_cons_of_mem word hw, hinfix⟩
    -- flags and the values of flags are passed over; the first other word gives the name
    rw [packageIn] at h
    split at h
    · exact hlater (ih h)
    · split at h
      · exact hlater (ih h)
      · refine ⟨word, List.mem_cons_self, ?_⟩
        unfold nameAtStart at h
        split at h
        · cases h
        · split at h
          · obtain rfl := Option.some.inj h
            exact ((List.prefix_cons_inj _).mpr (List.takeWhile_prefix _)).isInfix
          · cases h

/-- The name that the arguments of a call give stands among them. -/
theorem Choco.isInfix_of_packageOf {text name : Text} (h : packageOf text = some name) :
    name <:+: text := by
  obtain ⟨word, hword, hinfix⟩ := isInfix_of_packageIn h
  exact hinfix.trans (isInfix_of_mem_arguments hword)

/-- An identifier that is offered stands in the word or in one of those after it. -/
theorem Winget.isInfix_of_offeredId {word : Text} {words : List Text} {id : Text}
    (h : offeredId word words = some id) : ∃ w ∈ word :: words, id <:+: w := by
  rw [offeredId] at h
  split at h
  · obtain rfl := Option.some.inj h
    exact ⟨word, List.mem_cons_self,
      ((List.drop_suffix 1 _).trans (List.dropWhile_suffix _)).isInfix⟩
  · split at h
    · exact ⟨id, List.mem_cons_of_mem word (List.mem_of_head? h), List.infix_refl id⟩
    · cases h

/-- The identity that the arguments of a call give stands among them. -/
theorem Winget.isInfix_of_idOf {text id : Text} (h : idOf text = some id) : id <:+: text := by
  rw [idOf, Option.orElse_eq_or, Option.or_eq_some_iff] at h
  rcases h with h | ⟨-, h⟩
  · obtain ⟨word, rest, hsuffix, hoffered, -⟩ := exists_of_flaggedId h
    obtain ⟨w, hw, hinfix⟩ := isInfix_of_offeredId hoffered
    exact hinfix.trans (isInfix_of_mem_arguments (hsuffix.subset hw))
  · exact isInfix_of_mem_arguments (mem_of_positionalId h).1

/-- The arguments of a module's call stand on its line. -/
theorem PsModule.isInfix_of_find?_moduleCall {line arguments : Text}
    (h : moduleCall.find? line = some arguments) : arguments <:+: line := by
  refine isInfix_of_find? h fun prev rest found after hread => ?_
  simp only [moduleCall, bind, Option.bind_eq_some_iff, Option.guard_eq_some', exists_const, pure,
    Option.some.injEq, Prod.mk.injEq] at hread
  obtain ⟨-, t, hcall, -, rfl, -⟩ := hread
  exact (List.takeWhile_prefix _).isInfix.trans (suffix_of_keyword hcall).isInfix

end Rule

end SetupCatalog
