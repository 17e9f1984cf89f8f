import SetupCatalog.Text.Basic

/-!
# PowerShell literals

A single-quoted literal stands for its own characters, except that a quote inside it is written
twice.

* `literal` writes a text as a literal, and `parts?` reads a script as PowerShell does, which also
  takes the four typographic quotes for single quotes.
* `parts?_literal` says that a literal is read as the text that was written, provided that this text
  has no typographic quotes.
-/

namespace SetupCatalog.PowerShell

/-! ## Writing -/

/-- The characters between the quotes of a literal. -/
def literalBody (value : Text) : Text :=
  value.flatMap fun c => if c = '\'' then ['\'', '\''] else [c]

/-- A text as a single-quoted literal. -/
def literal (value : Text) : Text :=
  '\'' :: literalBody value ++ ['\'']

/-! ## Reading -/

/-- A part of a script. -/
inductive Part where
  /-- A character outside of literals. -/
  | code (c : Char)
  /-- A single-quoted literal and what it stands for. -/
  | literal (value : Text)
  deriving DecidableEq, Repr

/-- Whether a character is one of the four typographic single quotes. -/
def isTypographicQuote (c : Char) : Bool :=
  0x2018 ≤ c.toNat && c.toNat ≤ 0x201B

/-- Whether a character opens and closes single-quoted literals. -/
def isQuote (c : Char) : Bool :=
  c == '\'' || isTypographicQuote c

/-- What a spot of a script is in. -/
inductive Spot where
  | code
  /-- A literal that has been read so far. -/
  | inside (value : Text)
  /-- A literal, just after a quote that ends it unless another quote follows. -/
  | afterQuote (value : Text)

/-- The parts of a script from some spot on. Of two quotes in a literal the second stands for
itself. -/
def partsFrom : Spot → Text → Option (List Part)
  | .code, [] => some []
  | .inside _, [] => none
  | .afterQuote value, [] => some [.literal value]
  | .code, c :: t =>
    if isQuote c then partsFrom (.inside []) t else (partsFrom .code t).map (.code c :: ·)
  | .inside value, c :: t =>
    if isQuote c then partsFrom (.afterQuote value) t else partsFrom (.inside (value ++ [c])) t
  | .afterQuote value, c :: t =>
    -- the second of two quotes is the one that stands in the value
    if isQuote c then partsFrom (.inside (value ++ [c])) t
    else (partsFrom .code t).map fun parts => .literal value :: .code c :: parts

/-- The parts of a script, unless a literal stays open. -/
def parts? (script : Text) : Option (List Part) :=
  partsFrom .code script

/-- Whether a part ends a statement or joins it to the next. -/
def Part.endsStatement : Part → Bool
  | code c => ";|&\n".toList.contains c
  | literal _ => false

/-- The statements that parts make up. There is always at least one. -/
def statements : List Part → List (List Part)
  | [] => [[]]
  | part :: parts =>
    if part.endsStatement then [] :: statements parts
    else match statements parts with
      | [] => [[part]]
      | s :: ss => (part :: s) :: ss

/-- A written literal is read up to the quote at its end. -/
theorem partsFrom_literalBody {value : Text} (h : ∀ c ∈ value, isTypographicQuote c = false)
    (done rest : Text) :
    partsFrom (.inside done) (literalBody value ++ '\'' :: rest) =
      partsFrom (.afterQuote (done ++ value)) rest := by
  have quote : isQuote '\'' = true := by decide
  induction value generalizing done with
  | nil => simp [literalBody, partsFrom, quote]
  | cons c value ih =>
    have hvalue := ih (fun d hd => h d (List.mem_cons_of_mem _ hd)) (done ++ [c])
    have hc := h c List.mem_cons_self
    by_cases hq : c = '\''
    · subst hq
      simpa [literalBody, partsFrom, quote] using hvalue
    · simpa [literalBody, partsFrom, isQuote, hq, hc] using hvalue

/-- A text without typographic quotes is read back from its literal. -/
theorem parts?_literal {value : Text} (h : ∀ c ∈ value, isTypographicQuote c = false) :
    parts? (literal value) = some [.literal value] := by
  have quote : isQuote '\'' = true := by decide
  simp [parts?, literal, partsFrom, quote, partsFrom_literalBody h]

end SetupCatalog.PowerShell
