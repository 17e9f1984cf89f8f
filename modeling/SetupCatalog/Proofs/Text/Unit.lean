import SetupCatalog.Proofs.Text.Unified

/-!
# Windows that count line breaks once

A window is measured in characters, and a carriage return with the line feed after it is two of them
in a text but one in the unified text. `takeUnits` and `dropUnits` part a text by units instead: a
unit is a character, or such a pair. Units of a text are characters of the unified text
(`unifyBreaks_takeUnits`, `unifyBreaks_dropUnits`).

The windows before and after a spot are the end of what comes before it and the beginning of what
comes after it (`window_around`).
-/

namespace SetupCatalog.Text

/-- The first units of a text. -/
def takeUnits : Nat → Text → Text
  | 0, _ => []
  | _ + 1, [] => []
  | size + 1, '\r' :: '\n' :: t => '\r' :: '\n' :: takeUnits size t
  | size + 1, c :: t => c :: takeUnits size t

/-- A text without its first units. -/
def dropUnits : Nat → Text → Text
  | 0, t => t
  | _ + 1, [] => []
  | size + 1, '\r' :: '\n' :: t => dropUnits size t
  | size + 1, _ :: t => dropUnits size t

/-- The last units of a text. -/
def lastUnits (size : Nat) (t : Text) : Text :=
  dropUnits ((unifyBreaks t).length - size) t

/-- The last characters of a text. -/
def lastChars (size : Nat) (t : Text) : Text :=
  t.drop (t.length - size)

/-! ## Units of a text -/

theorem takeUnits_nil (size : Nat) : takeUnits size [] = [] := by
  cases size <;> rfl

theorem dropUnits_nil (size : Nat) : dropUnits size [] = [] := by
  cases size <;> rfl

/-- A character that does not belong to a longer line break counts for one. -/
theorem takeUnits_cons {c : Char} {t : Text} (h : c = '\r' → t.head? ≠ some '\n') (size : Nat) :
    takeUnits (size + 1) (c :: t) = c :: takeUnits size t := by
  apply takeUnits.eq_4
  rintro u rfl rfl
  exact h rfl rfl

/-- So it does when it is dropped. -/
theorem dropUnits_cons {c : Char} {t : Text} (h : c = '\r' → t.head? ≠ some '\n') (size : Nat) :
    dropUnits (size + 1) (c :: t) = dropUnits size t := by
  apply dropUnits.eq_4
  rintro u rfl rfl
  exact h rfl rfl

/-- A character of a line is a unit. -/
theorem takeUnits_inside {c : Char} (hc : isLineEnd c = false) (size : Nat) (t : Text) :
    takeUnits (size + 1) (c :: t) = c :: takeUnits size t :=
  takeUnits_cons (fun h => absurd h (ne_return_of_inside hc)) size

/-- A character that ends no line is dropped as one. -/
theorem dropUnits_inside {c : Char} (hc : isLineEnd c = false) (size : Nat) (t : Text) :
    dropUnits (size + 1) (c :: t) = dropUnits size t :=
  dropUnits_cons (fun h => absurd h (ne_return_of_inside hc)) size

/-- A line break is a unit. -/
theorem takeUnits_break {b t : Text} (hb : BreakBefore b t) (size : Nat) :
    takeUnits (size + 1) (b ++ t) = b ++ takeUnits size t := by
  cases hb with
  | pair => rfl
  | feed => exact takeUnits_cons (fun h => absurd h (by decide)) size
  | «return» h => exact takeUnits_cons (fun _ => h) size

/-- A line break is dropped as one, however long it is. -/
theorem dropUnits_break {b t : Text} (hb : BreakBefore b t) (size : Nat) :
    dropUnits (size + 1) (b ++ t) = dropUnits size t := by
  cases hb with
  | pair => rfl
  | feed => exact dropUnits_cons (fun h => absurd h (by decide)) size
  | «return» h => exact dropUnits_cons (fun _ => h) size

/-- A beginning of a text in units starts as the text does. -/
theorem head?_takeUnits {c : Char} {size : Nat} {t : Text}
    (h : (takeUnits size t).head? = some c) : t.head? = some c := by
  unfold takeUnits at h
  split at h
  · cases h
  · cases h
  · exact h
  · exact h

/-- Units are characters of the text with one kind of line break. -/
theorem unifyBreaks_takeUnits (size : Nat) (t : Text) :
    unifyBreaks (takeUnits size t) = (unifyBreaks t).take size := by
  induction t using breaks_induction generalizing size with
  | nil => rw [takeUnits_nil, unifyBreaks_nil, List.take_nil]
  | inside c t hc ih =>
    cases size with
    | zero => rfl
    | succ size =>
      rw [takeUnits_inside hc, unifyBreaks_cons hc, unifyBreaks_cons hc, ih, List.take_succ_cons]
  | lineBreak b t hb ih =>
    cases size with
    | zero => rfl
    | succ size =>
      -- what is taken behind a return starts no other way than the text does
      have hwhole : BreakBefore b (takeUnits size t) := by
        cases hb with
        | pair => exact .pair _
        | feed => exact .feed _
        | «return» h => exact .return fun hhead => h (head?_takeUnits hhead)
      rw [takeUnits_break hb, unifyBreaks_break hwhole, unifyBreaks_break hb, ih,
        List.take_succ_cons]

/-- So they are when they are dropped. -/
theorem unifyBreaks_dropUnits (size : Nat) (t : Text) :
    unifyBreaks (dropUnits size t) = (unifyBreaks t).drop size := by
  induction t using breaks_induction generalizing size with
  | nil => rw [dropUnits_nil, unifyBreaks_nil, List.drop_nil]
  | inside c t hc ih =>
    cases size with
    | zero => rfl
    | succ size => rw [dropUnits_inside hc, unifyBreaks_cons hc, ih, List.drop_succ_cons]
  | lineBreak b t hb ih =>
    cases size with
    | zero => rfl
    | succ size => rw [dropUnits_break hb, unifyBreaks_break hb, ih, List.drop_succ_cons]

/-- And at the end of the text. -/
theorem unifyBreaks_lastUnits (size : Nat) (t : Text) :
    unifyBreaks (lastUnits size t) = lastChars size (unifyBreaks t) :=
  unifyBreaks_dropUnits _ t

/-! ## Texts with fewer characters than a window -/

/-- A text does not grow when its line breaks become one character each. -/
theorem length_unifyBreaks_le (t : Text) : (unifyBreaks t).length ≤ t.length := by
  induction t using breaks_induction with
  | nil => exact Nat.le_refl 0
  | inside c t hc ih =>
    rw [unifyBreaks_cons hc, List.length_cons, List.length_cons]
    omega
  | lineBreak b t hb ih =>
    have hlength := hb.length_pos
    rw [unifyBreaks_break hb, List.length_cons, List.length_append]
    omega

/-- A text has no more units than characters, so all of a short one is taken. -/
theorem takeUnits_of_length_le {size : Nat} {t : Text} (h : t.length ≤ size) :
    takeUnits size t = t := by
  induction t using breaks_induction generalizing size with
  | nil => exact takeUnits_nil size
  | inside c t hc ih =>
    obtain ⟨size, rfl⟩ := Nat.exists_eq_add_of_le' (Nat.le_trans (Nat.le_add_left 1 _) h)
    rw [takeUnits_inside hc, ih (Nat.le_of_succ_le_succ h)]
  | lineBreak b t hb ih =>
    have hlength := hb.length_pos
    rw [List.length_append] at h
    obtain ⟨size, rfl⟩ := Nat.exists_eq_add_of_le' (show 1 ≤ size by omega)
    rw [takeUnits_break hb, ih (by omega)]

/-- All of a short text is at its end. -/
theorem lastUnits_of_length_le {size : Nat} {t : Text} (h : t.length ≤ size) :
    lastUnits size t = t := by
  have hzero : (unifyBreaks t).length - size = 0 := by
    have := length_unifyBreaks_le t
    omega
  rw [lastUnits, hzero]
  rfl

/-- So it is in characters. -/
theorem lastChars_of_length_le {size : Nat} {t : Text} (h : t.length ≤ size) :
    lastChars size t = t := by
  rw [lastChars, Nat.sub_eq_zero_of_le h, List.drop_zero]

/-- The last characters are an end of the text. -/
theorem lastChars_suffix (size : Nat) (t : Text) : lastChars size t <:+ t :=
  List.drop_suffix _ t

/-- The last characters of two texts are those of the first and all of the second, if it is short.
-/
theorem lastChars_append {size : Nat} (t : Text) {u : Text} (h : u.length ≤ size) :
    lastChars size (t ++ u) = lastChars (size - u.length) t ++ u := by
  have hlength : (t ++ u).length - size = t.length - (size - u.length) := by
    rw [List.length_append]
    omega
  rw [lastChars, hlength, List.drop_append_of_le_length (Nat.sub_le _ _), lastChars]

/-! ## Windows -/

/-- A window around a spot is the end of what comes before it and the beginning of what comes after
it. -/
theorem window_around (before rest : Text) {left right : Int} (hleft : 0 ≤ left)
    (hright : 0 ≤ right) :
    window (before ++ rest) (max 0 (before.length - left)) (before.length + right) =
      lastChars left.toNat before ++ rest.take right.toNat := by
  have hfirst : bound (before ++ rest).length (max 0 (before.length - left)) =
      before.length - left.toNat := by
    rw [bound, if_neg (by omega), List.length_append]
    omega
  have hlast : bound (before ++ rest).length (before.length + right) =
      before.length + min right.toNat rest.length := by
    rw [bound, if_neg (by omega), List.length_append]
    omega
  rw [window, hfirst, hlast, List.take_length_add_append, ← List.take_eq_take_min,
    List.drop_append_of_le_length (Nat.sub_le _ _), lastChars]

/-- A text is what comes before a window, the window, and what comes after it. -/
theorem exists_window_append (before rest : Text) {left right : Int} (hleft : 0 ≤ left)
    (hright : 0 ≤ right) :
    ∃ start, before ++ rest = start ++
      (window (before ++ rest) (max 0 (before.length - left)) (before.length + right) ++
        (before ++ rest).drop (before.length + right.toNat)) := by
  refine ⟨before.take (before.length - left.toNat), ?_⟩
  rw [window_around before rest hleft hright, List.drop_length_add_append, List.append_assoc,
    List.take_append_drop, ← List.append_assoc, lastChars, List.take_append_drop]

/-- A window before a spot is the end of what comes before it. -/
theorem window_before (before rest : Text) {left : Int} (hleft : 0 ≤ left) :
    window (before ++ rest) (max 0 (before.length - left)) before.length =
      lastChars left.toNat before := by
  have := window_around before rest hleft (Int.le_refl 0)
  rwa [Int.add_zero, Int.toNat_zero, List.take_zero, List.append_nil] at this

end SetupCatalog.Text
