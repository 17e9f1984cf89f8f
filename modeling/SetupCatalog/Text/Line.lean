import SetupCatalog.Text.Basic

/-!
# Lines

Two notions of a line meet in this library. `lines` cuts a text at every line break that Unicode
knows, where a carriage return and the line feed after it are one break. `unifyBreaks` is what
reading a file does: it knows only carriage returns and line feeds, and leaves line feeds alone.
-/

namespace SetupCatalog.Text

/-- Whether a character is a line break: line feed, vertical tab, form feed, carriage return, the
file, group and record separators, next line, line separator or paragraph separator. -/
def isLineBreak (c : Char) : Bool :=
  (10 ≤ c.toNat && c.toNat ≤ 13) || (28 ≤ c.toNat && c.toNat ≤ 30) || c.toNat == 0x85 ||
    c.toNat == 0x2028 || c.toNat == 0x2029

/-- The lines of a text without their line breaks. A break at the end of the text starts no further
line. -/
def lines : Text → List Text
  | [] => []
  | '\r' :: '\n' :: t => [] :: lines t
  | c :: t =>
    if isLineBreak c then [] :: lines t
    else match lines t with
      | [] => [[c]]
      | l :: ls => (c :: l) :: ls

/-- Whether a character ends a line in the narrow sense: a carriage return or a line feed. -/
def isLineEnd (c : Char) : Bool :=
  c == '\r' || c == '\n'

/-- The text with each carriage return, alone or before a line feed, replaced by a line feed. -/
def unifyBreaks : Text → Text
  | [] => []
  | '\r' :: '\n' :: t => '\n' :: unifyBreaks t
  | c :: t => (if c = '\r' then '\n' else c) :: unifyBreaks t

/-- No line of a text contains a line break. -/
theorem isLineBreak_eq_false_of_mem_lines {t l : Text} {c : Char} (hl : l ∈ lines t) (hc : c ∈ l) :
    isLineBreak c = false := by
  fun_induction lines t generalizing l with
  | case1 => simp at hl
  | case2 t ih =>
    rcases List.mem_cons.1 hl with rfl | hl
    · simp at hc
    · exact ih hl hc
  | case3 d t _ _ ih =>
    rcases List.mem_cons.1 hl with rfl | hl
    · simp at hc
    · exact ih hl hc
  | case4 d t _ hd _ ih =>
    rw [List.mem_singleton.1 hl, List.mem_singleton] at hc
    simpa [hc] using hd
  | case5 d t _ hd m ms hm ih =>
    rcases List.mem_cons.1 hl with rfl | hl
    · rcases List.mem_cons.1 hc with rfl | hc
      · simpa using hd
      · exact ih (hm ▸ List.mem_cons_self) hc
    · exact ih (hm ▸ List.mem_cons_of_mem m hl) hc

end SetupCatalog.Text
