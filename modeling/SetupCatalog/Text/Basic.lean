/-!
# Texts

A text is the list of its characters. Offsets, lengths and windows count characters, so nothing in
this library depends on how a text is stored.

* `Text.window` cuts a piece out of a text. A negative bound counts from the end, and both bounds
  are clamped, so every pair of bounds is a window of every text.
* `Text.pieces` cuts a text at a separator, `Text.joined` puts pieces together, and
  `Text.joined_pieces` says that the second undoes the first.
-/

namespace SetupCatalog

/-- A text is the list of its characters. -/
abbrev Text := List Char

namespace Text

/-- The offset that a bound stands for in a text of the given size: a negative bound counts from
the end, and a bound outside the text stands for its nearer end. -/
def bound (size : Nat) (i : Int) : Nat :=
  if i < 0 then (i + size).toNat else min i.toNat size

/-- The characters from one bound up to, and not including, another. -/
def window (t : Text) (first last : Int) : Text :=
  (t.take (bound t.length last)).drop (bound t.length first)

/-- The pieces of a text between the occurrences of a separator. There is always at least one. -/
def pieces (sep : Char) : Text → List Text
  | [] => [[]]
  | c :: t =>
    if c = sep then [] :: pieces sep t
    else match pieces sep t with
      | [] => [[c]]
      | p :: ps => (c :: p) :: ps

/-- The texts in order, with a separator between neighbours. -/
def joined (sep : Text) : List Text → Text
  | [] => []
  | [p] => p
  | p :: q :: ps => p ++ sep ++ joined sep (q :: ps)

theorem pieces_ne_nil (sep : Char) (t : Text) : pieces sep t ≠ [] := by
  cases t with
  | nil => simp [pieces]
  | cons c t =>
    unfold pieces
    split
    · simp
    · split <;> simp

theorem joined_pieces (sep : Char) (t : Text) : joined [sep] (pieces sep t) = t := by
  induction t with
  | nil => rfl
  | cons c t ih =>
    unfold pieces
    split
    · next h =>
      subst h
      cases hp : pieces c t with
      | nil => exact absurd hp (pieces_ne_nil c t)
      | cons p ps => rw [hp] at ih; simp [joined, ih]
    · cases hp : pieces sep t with
      | nil => exact absurd hp (pieces_ne_nil sep t)
      | cons p ps =>
        rw [hp] at ih
        cases ps with
        | nil => simpa [joined] using ih
        | cons q ps => simpa [joined] using ih

/-- The text without the characters at its end that satisfy `p`. -/
def trimEnd (p : Char → Bool) (t : Text) : Text :=
  (t.reverse.dropWhile p).reverse

/-- The text after the given beginning, if the text starts with it. -/
def dropPrefix? (beginning t : Text) : Option Text :=
  if beginning.isPrefixOf t then some (t.drop beginning.length) else none

/-- The decimal digits of a natural number. -/
def ofNat (n : Nat) : Text :=
  Nat.toDigits 10 n

/-- An integer in decimal, with a minus sign when it is negative. -/
def ofInt : Int → Text
  | .ofNat n => ofNat n
  | .negSucc n => '-' :: ofNat (n + 1)

/-- A number in hexadecimal with at least `width` digits, in lower case. -/
def hex (width n : Nat) : Text :=
  let digits := Nat.toDigits 16 n
  List.replicate (width - digits.length) '0' ++ digits

/-- The order of texts: by code point, and a text comes before its extensions. -/
def le : Text → Text → Bool
  | [], _ => true
  | _ :: _, [] => false
  | c :: t, d :: u => if c = d then le t u else c.toNat ≤ d.toNat

end Text

end SetupCatalog
