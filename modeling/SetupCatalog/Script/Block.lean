import SetupCatalog.Pattern.Element

/-!
# Container literals

A container is a hashtable literal that is assigned to a variable, `$Name = @{ … }`. Its body ends
at the brace that closes it, which is found by counting braces alone: braces inside strings and
comments count as well. A container that is never closed is no container.

* `bodyOf` reads a body at a given depth of nesting, and `bodyOf_eq_some` says that nothing is lost.
* `blocks` lists the containers of a script in the order in which they open.
-/

namespace SetupCatalog.Script

open Text Pattern

/-- A container literal of a script. -/
structure Block where
  /-- The name of the variable, without the dollar sign. -/
  variableName : Text
  /-- The text between the braces. -/
  body : Text
  /-- The offset just after the closing brace. -/
  endOffset : Nat
  deriving DecidableEq, Repr

/-- The text up to the brace that closes `depth` open braces and one more, and the text after that
brace. -/
def bodyOf (depth : Nat) : Text → Option (Text × Text)
  | [] => none
  | c :: t =>
    if c = '{' then (bodyOf (depth + 1) t).map fun (b, rest) => (c :: b, rest)
    else if c = '}' then
      -- this brace closes the body itself, or one that was opened in it
      match depth with
      | 0 => some ([], t)
      | depth + 1 => (bodyOf depth t).map fun (b, rest) => (c :: b, rest)
    else (bodyOf depth t).map fun (b, rest) => (c :: b, rest)

/-- A body, the closing brace and the rest make up the text. -/
theorem bodyOf_eq_some {depth : Nat} {t body rest : Text}
    (h : bodyOf depth t = some (body, rest)) : t = body ++ '}' :: rest := by
  induction t generalizing depth body with
  | nil => simp [bodyOf] at h
  | cons c t ih =>
    unfold bodyOf at h
    split at h
    · simp only [Option.map_eq_some_iff, Prod.mk.injEq, Prod.exists] at h
      obtain ⟨b, r, hb, rfl, rfl⟩ := h
      simp [ih hb]
    · split at h
      · next hc =>
        cases depth with
        | zero =>
          simp only [Option.some.injEq, Prod.mk.injEq] at h
          obtain ⟨rfl, rfl⟩ := h
          simp [hc]
        | succ depth =>
          simp only [Option.map_eq_some_iff, Prod.mk.injEq, Prod.exists] at h
          obtain ⟨b, r, hb, rfl, rfl⟩ := h
          simp [ih hb]
      · simp only [Option.map_eq_some_iff, Prod.mk.injEq, Prod.exists] at h
        obtain ⟨b, r, hb, rfl, rfl⟩ := h
        simp [ih hb]

/-- Why a search for a closing brace cannot start. -/
inductive OffsetFault where
  /-- The start lies before the text. -/
  | beforeText
  deriving DecidableEq, Repr

/-- The wording of a fault. -/
def OffsetFault.message : OffsetFault → Text
  | beforeText => "string index out of range".toList

/-- The offset of the brace that closes the container whose body starts at `start`, if there is one.
A negative start counts from the end, but not beyond the beginning; the search then runs to the end
of the text and goes on from its beginning, where offsets start at zero again. -/
def closingOffset (t : Text) (start : Int) : Except OffsetFault (Option Int) :=
  if start + t.length < 0 then .error .beforeText
  else
    let searched := if start < 0 then t.drop (bound t.length start) ++ t else t.drop start.toNat
    .ok ((bodyOf 0 searched).map fun (body, _) => start + body.length)

/-- Whether a character can start the name of a variable. -/
def startsVariable (c : Char) : Bool :=
  c.isAlpha || c == '_'

/-- The start of a container, up to and with its opening brace. Finds the name of the variable. -/
def blockStart : Pattern Text := fun _ t => do
  let t ← symbol '$' t
  guard (t.head?.any startsVariable)
  let name := t.takeWhile isWord
  let t ← symbol '=' (trimStart (t.dropWhile isWord))
  let t ← symbol '@' (trimStart t)
  let t ← symbol '{' t
  return (name, t)

/-- The containers of a script in the order in which they open. -/
def blocks (text : Text) : List Block :=
  (blockStart.all text).filterMap fun start =>
    (bodyOf 0 start.after).map fun (body, rest) =>
      ⟨start.found, body, text.length - rest.length⟩

end SetupCatalog.Script
