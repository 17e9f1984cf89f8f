import Mathlib.Data.List.Forall2
import SetupCatalog.Proofs.Json.Reading
import SetupCatalog.Proofs.Json.Writing
import SetupCatalog.Service.Payload

/-!
# Payloads that are accepted

A value is accepted exactly if it `Carries` scripts: it is an object with a list of items, each of
which stands for a script. Every other value is `Refused` with one message. Where there is a list,
the message names the first item that stands for no script, and the first thing that is wrong with
it: that it is no object, that it has no name, or that it has no text. `sourcesOf_exact` says both.

A payload of scripts is read as it was written (`sourcesOf_payload`), if each of them has a name.
-/

namespace SetupCatalog.Service

open Text

/-- An item of a payload stands for a script: it is an object with the name of the script, which is
not empty, and with the text of it. Other fields do not count. -/
def StandsFor (item : Json) (s : Source) : Prop :=
  ∃ fields, item = .object fields ∧ Json.field? fields "name".toList = some (.text s.name) ∧
    s.name ≠ [] ∧ Json.field? fields "text".toList = some (.text s.text)

/-- A value is an object with a list of scripts. -/
def Lists (v : Json) (items : List Json) : Prop :=
  ∃ fields, v = .object fields ∧ Json.field? fields "scripts".toList = some (.array items)

/-- A value carries scripts: its items stand for them, one by one. -/
def Carries (v : Json) (sources : List Source) : Prop :=
  ∃ items, Lists v items ∧ List.Forall₂ StandsFor items sources

/-- What is wrong with an item that stands for no script. -/
inductive ItemFault : Json → Text → Prop
  | notObject {item : Json} (h : ∀ fields, item ≠ .object fields) :
      ItemFault item " must be an object".toList
  | noName {fields : List (Text × Json)}
      (h : ∀ name, Json.field? fields "name".toList = some (.text name) → name = []) :
      ItemFault (.object fields) ".name must be a non-empty string".toList
  | noText {fields : List (Text × Json)} {name : Text}
      (hname : Json.field? fields "name".toList = some (.text name)) (hne : name ≠ [])
      (h : ∀ text, Json.field? fields "text".toList ≠ some (.text text)) :
      ItemFault (.object fields) ".text must be a string".toList

/-- A value is refused with a message. -/
inductive Refused : Json → Text → Prop
  | notObject {v : Json} (h : ∀ fields, v ≠ .object fields) :
      Refused v "Request body must be a JSON object with a 'scripts' list".toList
  | noScripts {fields : List (Text × Json)}
      (h : ∀ items, Json.field? fields "scripts".toList ≠ some (.array items)) :
      Refused (.object fields) "'scripts' must be a list of \x7bname, text\x7d objects".toList
  /-- All the items before the faulty one stand for scripts. -/
  | item {v item : Json} {good others : List Json} {what : Text}
      (hlists : Lists v (good ++ item :: others)) (hgood : ∀ g ∈ good, ∃ s, StandsFor g s)
      (hfault : ItemFault item what) :
      Refused v ("scripts[".toList ++ ofNat good.length ++ "]".toList ++ what)

/-- A reading fails with a message. -/
def FailsWith {α : Type} (result : Except PayloadFault α) (message : Text) : Prop :=
  ∃ fault, result = .error fault ∧ fault.message = message

/-! ## One item -/

/-- An item is accepted exactly as the script that it stands for. -/
theorem sourceOf_eq_ok_iff {index : Nat} {item : Json} {s : Source} :
    sourceOf index item = .ok s ↔ StandsFor item s := by
  constructor
  · intro h
    -- the checks come in the order of the fields, and only the last one accepts
    unfold sourceOf at h
    split at h
    · next fields =>
      split at h
      · next c name hname =>
        split at h
        · next text htext =>
          obtain rfl := Except.ok.inj h
          exact ⟨fields, rfl, hname, List.cons_ne_nil c name, htext⟩
        · cases h
      · cases h
    · cases h
  · rintro ⟨fields, rfl, hname, hne, htext⟩
    obtain ⟨name, text⟩ := s
    obtain ⟨c, name, rfl⟩ := List.exists_cons_of_ne_nil hne
    rw [sourceOf, hname]
    simp only [htext]

/-- An item that stands for no script fails with the first thing that is wrong with it. -/
theorem sourceOf_failsWith_iff {index : Nat} {item : Json} {message : Text} :
    FailsWith (sourceOf index item) message ↔
      ∃ what, ItemFault item what ∧ message = itemLabel index ++ what := by
  constructor
  · rintro ⟨fault, h, rfl⟩
    unfold sourceOf at h
    split at h
    · next fields =>
      split at h
      · next c name hname =>
        split at h
        · cases h
        · next htext =>
          obtain rfl := Except.error.inj h
          exact ⟨_, .noText hname (List.cons_ne_nil c name) htext, rfl⟩
      · next hname =>
        obtain rfl := Except.error.inj h
        refine ⟨_, .noName fun name hfound => ?_, rfl⟩
        cases name with
        | nil => rfl
        | cons c name => exact absurd hfound (hname c name)
    · next hobject =>
      obtain rfl := Except.error.inj h
      exact ⟨_, .notObject hobject, rfl⟩
  · rintro ⟨what, hfault, rfl⟩
    -- a fault says which check fails first, so the earlier ones are met
    cases hfault with
    | notObject h =>
      refine ⟨.scriptNotObject index, ?_, rfl⟩
      unfold sourceOf
      split
      · next fields => exact absurd rfl (h fields)
      · rfl
    | @noName fields h =>
      refine ⟨.noName index, ?_, rfl⟩
      rw [sourceOf]
      split
      · next c name hname => exact absurd (h _ hname) (List.cons_ne_nil c name)
      · rfl
    | @noText fields name hname hne h =>
      refine ⟨.noText index, ?_, rfl⟩
      obtain ⟨c, name, rfl⟩ := List.exists_cons_of_ne_nil hne
      rw [sourceOf, hname]
      dsimp only
      split
      · next text htext => exact absurd htext (h text)
      · rfl

/-! ## The items in their order -/

/-- Items are read one after the other, up to the first that is refused. -/
theorem sourcesFrom_cons (index : Nat) (item : Json) (items : List Json) :
    sourcesFrom index (item :: items) =
      (sourceOf index item).bind fun s => (sourcesFrom (index + 1) items).map (s :: ·) := by
  rw [sourcesFrom]
  cases sourceOf index item with
  | error fault => rfl
  | ok s => cases sourcesFrom (index + 1) items <;> rfl

/-- Items are accepted exactly when the first one and the others are. -/
theorem sourcesFrom_cons_eq_ok_iff {index : Nat} {item : Json} {items : List Json}
    {sources : List Source} :
    sourcesFrom index (item :: items) = .ok sources ↔
      ∃ s others, sourceOf index item = .ok s ∧ sourcesFrom (index + 1) items = .ok others ∧
        sources = s :: others := by
  rw [sourcesFrom_cons]
  cases sourceOf index item with
  | error fault => simp [Except.bind]
  | ok s =>
    cases sourcesFrom (index + 1) items with
    | error fault => simp [Except.bind, Except.map]
    | ok others => simp [Except.bind, Except.map, eq_comm]

/-- The items after the first one count only if that one stands for a script. -/
theorem sourcesFrom_cons_failsWith_iff {index : Nat} {item : Json} {items : List Json}
    {message : Text} :
    FailsWith (sourcesFrom index (item :: items)) message ↔
      FailsWith (sourceOf index item) message ∨
        (∃ s, sourceOf index item = .ok s) ∧ FailsWith (sourcesFrom (index + 1) items) message := by
  rw [sourcesFrom_cons]
  cases sourceOf index item with
  | error fault => simp [FailsWith, Except.bind]
  | ok s => cases sourcesFrom (index + 1) items <;> simp [FailsWith, Except.bind, Except.map]

/-- Items are accepted exactly as the scripts that they stand for, one by one. -/
theorem sourcesFrom_eq_ok_iff {index : Nat} {items : List Json} {sources : List Source} :
    sourcesFrom index items = .ok sources ↔ List.Forall₂ StandsFor items sources := by
  induction items generalizing index sources with
  | nil =>
    rw [sourcesFrom, List.forall₂_nil_left_iff, Except.ok.injEq]
    exact eq_comm
  | cons item items ih =>
    simp only [sourcesFrom_cons_eq_ok_iff, sourceOf_eq_ok_iff, ih, List.forall₂_cons_left_iff]

/-- Items fail with the first of them that stands for no script. -/
theorem sourcesFrom_failsWith_iff {index : Nat} {items : List Json} {message : Text} :
    FailsWith (sourcesFrom index items) message ↔
      ∃ good item others what, items = good ++ item :: others ∧
        (∀ g ∈ good, ∃ s, StandsFor g s) ∧ ItemFault item what ∧
        message = itemLabel (index + good.length) ++ what := by
  induction items generalizing index with
  | nil =>
    constructor
    · rintro ⟨fault, h, -⟩
      cases h
    · rintro ⟨good, item, others, what, h, -⟩
      exact absurd h.symm (List.append_ne_nil_of_right_ne_nil good (List.cons_ne_nil item others))
  | cons first items ih =>
    simp only [sourcesFrom_cons_failsWith_iff, sourceOf_failsWith_iff, sourceOf_eq_ok_iff, ih]
    have hindex : ∀ good : List Json,
        index + 1 + good.length = index + (first :: good).length := by
      intro good
      rw [List.length_cons]
      omega
    constructor
    -- the first item is the faulty one, or it joins the good ones
    · rintro (⟨what, hfault, rfl⟩ | ⟨hfirst, good, item, others, what, rfl, hgood, hfault, rfl⟩)
      · exact ⟨[], first, items, what, rfl, List.forall_mem_nil _, hfault, rfl⟩
      · refine ⟨first :: good, item, others, what, rfl, ?_, hfault, by rw [hindex]⟩
        exact List.forall_mem_cons.mpr ⟨hfirst, hgood⟩
    · rintro ⟨good, item, others, what, hitems, hgood, hfault, rfl⟩
      cases good with
      | nil =>
        obtain ⟨rfl, rfl⟩ := List.cons.inj hitems
        exact .inl ⟨what, hfault, rfl⟩
      | cons g good =>
        obtain ⟨rfl, rfl⟩ := List.cons.inj hitems
        obtain ⟨hfirst, hgood⟩ := List.forall_mem_cons.mp hgood
        exact .inr ⟨hfirst, good, item, others, what, rfl, hgood, hfault, by rw [hindex]⟩

/-! ## The whole value -/

/-- The list of a value is read from the first item on. -/
theorem sourcesOf_of_lists {v : Json} {items : List Json} (h : Lists v items) :
    sourcesOf v = sourcesFrom 0 items := by
  obtain ⟨fields, rfl, hscripts⟩ := h
  rw [sourcesOf, hscripts]

/-- A value is accepted exactly as the scripts that it carries. -/
theorem sourcesOf_eq_ok_iff {v : Json} {sources : List Source} :
    sourcesOf v = .ok sources ↔ Carries v sources := by
  constructor
  · intro h
    unfold sourcesOf at h
    split at h
    · next fields =>
      split at h
      · next items hscripts => exact ⟨items, ⟨fields, rfl, hscripts⟩, sourcesFrom_eq_ok_iff.mp h⟩
      · cases h
    · cases h
  · rintro ⟨items, hlists, hitems⟩
    rw [sourcesOf_of_lists hlists]
    exact sourcesFrom_eq_ok_iff.mpr hitems

/-- A value is refused exactly with the message that is due. -/
theorem sourcesOf_failsWith_iff {v : Json} {message : Text} :
    FailsWith (sourcesOf v) message ↔ Refused v message := by
  constructor
  · rintro ⟨fault, h, rfl⟩
    unfold sourcesOf at h
    split at h
    · next fields =>
      split at h
      · next items hscripts =>
        obtain ⟨good, item, others, what, rfl, hgood, hfault, hmessage⟩ :=
          sourcesFrom_failsWith_iff.mp ⟨fault, h, rfl⟩
        rw [hmessage, Nat.zero_add]
        exact .item ⟨fields, rfl, hscripts⟩ hgood hfault
      · next hscripts =>
        obtain rfl := Except.error.inj h
        exact .noScripts hscripts
    · next hobject =>
      obtain rfl := Except.error.inj h
      exact .notObject hobject
  · intro h
    -- the value itself is checked before its items
    cases h with
    | notObject h =>
      refine ⟨.notObject, ?_, rfl⟩
      unfold sourcesOf
      split
      · next fields => exact absurd rfl (h fields)
      · rfl
    | @noScripts fields h =>
      refine ⟨.noScripts, ?_, rfl⟩
      rw [sourcesOf]
      split
      · next items hscripts => exact absurd hscripts (h items)
      · rfl
    | @item v item good others what hlists hgood hfault =>
      rw [sourcesOf_of_lists hlists, sourcesFrom_failsWith_iff]
      refine ⟨good, item, others, what, rfl, hgood, hfault, ?_⟩
      rw [Nat.zero_add]
      rfl

/-! ## Payloads that are written -/

/-- The printed value of some scripts lists one object for each. -/
theorem lists_payload (sources : List Source) :
    Lists (payload sources) (sources.map fun s =>
      .object [("name".toList, .text s.name), ("text".toList, .text s.text)]) :=
  ⟨_, rfl, rfl⟩

/-- A printed value is read back exactly when no script's name is empty. -/
theorem sourcesOf_payload_iff {sources : List Source} :
    sourcesOf (payload sources) = .ok sources ↔ ∀ s ∈ sources, s.name ≠ [] := by
  rw [sourcesOf_of_lists (lists_payload sources), sourcesFrom_eq_ok_iff,
    List.forall₂_map_left_iff, List.forall₂_same]
  refine forall₂_congr fun s _ => ?_
  constructor
  · rintro ⟨fields, -, -, hne, -⟩
    exact hne
  · intro hne
    exact ⟨_, rfl, rfl, hne, rfl⟩

/-- **A payload gives the scripts that it was written for.** -/
theorem sourcesOf_payload {sources : List Source} (h : ∀ s ∈ sources, s.name ≠ []) :
    sourcesOf (payload sources) = .ok sources :=
  sourcesOf_payload_iff.mpr h

/-- A payload has only texts in it. -/
theorem standard_payload (limit : Option Nat) (sources : List Source) :
    Json.Standard limit (payload sources) := by
  refine .object fun field hfield => ?_
  obtain rfl := List.mem_singleton.mp hfield
  refine .array fun item hitem => ?_
  obtain ⟨s, -, rfl⟩ := List.mem_map.mp hitem
  refine .object fun field hfield => ?_
  simp only [List.mem_cons, List.not_mem_nil, or_false] at hfield
  rcases hfield with rfl | rfl <;> exact .text _

/-- **A value is accepted exactly if it carries scripts**, and it gives them in their order. Every
other value is refused, with the message of the first thing that is wrong. Scripts that are written
as a payload, with any indentation, are read again exactly if each of them has a name. -/
theorem sourcesOf_exact (v : Json) :
    (∀ sources, sourcesOf v = .ok sources ↔ Carries v sources) ∧
    (∀ message, FailsWith (sourcesOf v) message ↔ Refused v message) ∧
    ((∃ sources, Carries v sources) ∨ ∃ message, Refused v message) ∧
    ∀ (sources : List Source) (indent : Option Int),
      (Json.read? (Json.write indent (payload sources))).map sourcesOf = some (.ok sources) ↔
        ∀ s ∈ sources, s.name ≠ [] := by
  refine ⟨fun _ => sourcesOf_eq_ok_iff, fun _ => sourcesOf_failsWith_iff, ?_,
    fun sources indent => ?_⟩
  · cases h : sourcesOf v with
    | ok sources => exact .inl ⟨sources, sourcesOf_eq_ok_iff.mp h⟩
    | error fault => exact .inr ⟨fault.message, sourcesOf_failsWith_iff.mp ⟨fault, h, rfl⟩⟩
  · have hread := Json.read?_of_denotes (Json.denotes_write (standard_payload _ sources) indent)
    rw [hread, Option.map_some, Option.some.injEq]
    exact sourcesOf_payload_iff

/-- An empty text is fine, and the second item has neither a name nor a text. -/
example : sourcesOf (.object [("scripts".toList, .array [
    .object [("text".toList, .text []), ("name".toList, .text "a".toList)], .object []])]) =
      .error (.noName 1) := by
  decide

end SetupCatalog.Service
