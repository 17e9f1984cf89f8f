import Mathlib.Data.List.Forall2
import Mathlib.Data.List.Pairwise
import SetupCatalog.Proofs.Pattern.Reading
import SetupCatalog.Proofs.Pattern.Sweep
import SetupCatalog.Proofs.Script.Brace
import SetupCatalog.Proofs.Text.Legible

/-!
# How containers nest

Every container is found by a search of its own for the closing brace, and the searches know nothing
of each other. What keeps them apart is the form of an opener: it starts with the only dollar sign
in it and ends with the only brace in it. So openers do not overlap, and an opener that starts in
the body of a container lies in this body as a whole.

The rest is counting. The body around is balanced, so the brace that the opener ends with is closed
again inside of it (`Block.StandsAt.exists_inner`): the container is found, and it lies in the body.

`blocks_exact` is the main statement.
-/

namespace SetupCatalog.Script

open Text Pattern

/-! ## Openers -/

/-- What a container opens with: a dollar sign and the name of a variable, an equals sign with
blanks before and after it, and `@{`. A name is a letter of ASCII or an underscore and after it any
word characters. -/
def Opener (name opener : Text) : Prop :=
  ∃ c others blanks blanks', name = c :: others ∧ startsVariable c = true ∧
    (∀ d ∈ others, isWord d = true) ∧ (∀ b ∈ blanks, isBlank b = true) ∧
    (∀ b ∈ blanks', isBlank b = true) ∧
    opener = '$' :: (name ++ (blanks ++ '=' :: (blanks' ++ ['@', '{'])))

/-- What starts a variable's name is a word character. -/
theorem isWord_of_startsVariable {c : Char} (h : startsVariable c = true) : isWord c = true := by
  rw [startsVariable, Bool.or_eq_true] at h
  rcases h with h | h
  · exact isWord_of_isAsciiAlnum (by simp [isAsciiAlnum, Char.isAlphanum, h])
  · rw [beq_iff_eq] at h
    subst h
    decide

/-- The word before blanks and an equals sign ends there. -/
theorem span_isWord {name blanks : Text} (hname : ∀ d ∈ name, isWord d = true)
    (hblanks : ∀ b ∈ blanks, isBlank b = true) (rest : Text) :
    (name ++ (blanks ++ '=' :: rest)).takeWhile isWord = name ∧
      (name ++ (blanks ++ '=' :: rest)).dropWhile isWord = blanks ++ '=' :: rest := by
  have hnext : (blanks ++ '=' :: rest).takeWhile isWord = [] ∧
      (blanks ++ '=' :: rest).dropWhile isWord = blanks ++ '=' :: rest := by
    cases blanks with
    | nil =>
      have hsign : ¬ isWord '=' = true := by decide
      exact ⟨List.takeWhile_cons_of_neg hsign, List.dropWhile_cons_of_neg hsign⟩
    | cons b blanks =>
      have hb : ¬ isWord b = true := by
        rw [isWord_eq_false_of_isBlank (hblanks b List.mem_cons_self)]
        exact Bool.false_ne_true
      exact ⟨List.takeWhile_cons_of_neg hb, List.dropWhile_cons_of_neg hb⟩
  rw [List.takeWhile_append_of_pos hname, List.dropWhile_append_of_pos hname, hnext.1, hnext.2,
    List.append_nil]
  exact ⟨rfl, rfl⟩

/-- The start of a container is read exactly where an opener stands. -/
theorem blockStart_eq_some_iff {prev : Option Char} {t name after : Text} :
    blockStart prev t = some (name, after) ↔
      ∃ opener, Opener name opener ∧ t = opener ++ after := by
  simp only [blockStart, bind, Option.bind_eq_some_iff, Option.guard_eq_some', exists_const, pure,
    Option.some.injEq, Prod.mk.injEq,
    symbol_trimStart_eq_some_iff (show isBlank '=' = false by decide),
    symbol_trimStart_eq_some_iff (show isBlank '@' = false by decide), symbol_eq_some_iff]
  constructor
  · rintro ⟨t, rfl, hhead, t', ⟨blanks, hblanks, hname⟩, _, ⟨blanks', hblanks', rfl⟩, _, rfl, rfl,
      rfl⟩
    have hsplit := List.takeWhile_append_dropWhile (p := isWord) (l := t)
    -- the name is the longest run of word characters, so the blanks are what follows it
    cases t with
    | nil => cases hhead
    | cons c others =>
      rw [List.head?_cons, Option.any_some] at hhead
      rw [List.takeWhile_cons_of_pos (isWord_of_startsVariable hhead)] at hsplit ⊢
      refine ⟨_, ⟨c, _, blanks, blanks', rfl, hhead, ?_, hblanks, hblanks', rfl⟩, ?_⟩
      · exact fun d hd => List.mem_takeWhile_imp hd
      · conv_lhs => rw [← hsplit, hname]
        simp
  · rintro ⟨_, ⟨c, others, blanks, blanks', rfl, hc, hothers, hblanks, hblanks', rfl⟩, rfl⟩
    have hname : ∀ d ∈ c :: others, isWord d = true := by
      intro d hd
      rcases List.mem_cons.mp hd with rfl | hd
      · exact isWord_of_startsVariable hc
      · exact hothers d hd
    obtain ⟨htake, hdrop⟩ := span_isWord hname hblanks (blanks' ++ ['@', '{'] ++ after)
    refine ⟨(c :: others) ++ (blanks ++ '=' :: (blanks' ++ ['@', '{'] ++ after)), by simp, ?_,
      blanks' ++ ['@', '{'] ++ after, ⟨blanks, hblanks, hdrop⟩, '{' :: after,
      ⟨blanks', hblanks', by simp⟩, after, rfl, htake, rfl⟩
    rw [List.cons_append, List.head?_cons, Option.any_some, hc]

/-- An opener starts with the only dollar sign in it and ends with the only brace in it. -/
theorem Opener.form {name opener : Text} (h : Opener name opener) :
    ∃ front, opener = '$' :: (front ++ ['{']) ∧ '$' ∉ front ∧ '{' ∉ front ∧ '}' ∉ front := by
  obtain ⟨c, others, blanks, blanks', rfl, hc, hothers, hblanks, hblanks', rfl⟩ := h
  -- a character between them is one of the name, a blank, or one of the two signs
  have hfront : ∀ d, d ∈ (c :: others) ++ (blanks ++ '=' :: (blanks' ++ ['@'])) →
      isWord d = true ∨ isBlank d = true ∨ d = '=' ∨ d = '@' := by
    intro d hd
    simp only [List.mem_append, List.mem_cons, List.not_mem_nil, or_false] at hd
    rcases hd with (rfl | hd) | hd | rfl | hd | rfl
    · exact Or.inl (isWord_of_startsVariable hc)
    · exact Or.inl (hothers d hd)
    · exact Or.inr (Or.inl (hblanks d hd))
    · exact Or.inr (Or.inr (Or.inl rfl))
    · exact Or.inr (Or.inl (hblanks' d hd))
    · exact Or.inr (Or.inr (Or.inr rfl))
  refine ⟨(c :: others) ++ (blanks ++ '=' :: (blanks' ++ ['@'])), by simp, fun hd => ?_,
    fun hd => ?_, fun hd => ?_⟩
  all_goals exact absurd (hfront _ hd) (by decide)

/-- An opener holds no other opener. -/
theorem separate_blockStart : blockStart.Separate := by
  intro prev t name after h
  obtain ⟨opener, hopener, rfl⟩ := blockStart_eq_some_iff.mp h
  obtain ⟨front, rfl, hdollar, -, -⟩ := hopener.form
  refine ⟨'$', front ++ ['{'], rfl, fun u d v huv prev' => ?_⟩
  rw [Option.eq_none_iff_forall_not_mem]
  rintro ⟨name', after'⟩ hmem
  obtain ⟨opener', hopener', heq⟩ := blockStart_eq_some_iff.mp hmem
  obtain ⟨front', rfl, -⟩ := hopener'.form
  obtain rfl : d = '$' := (List.cons.inj heq).1
  have hd : '$' ∈ front ++ ['{'] := huv ▸ by simp
  rcases List.mem_append.mp hd with hd | hd
  · exact hdollar hd
  · exact absurd hd (by decide)

/-! ## Where containers stand -/

/-- An opener stands in a text: it takes up the offsets from `start` up to `bodyStart`. -/
def OpensAt (text : Text) (start : Nat) (name : Text) (bodyStart : Nat) : Prop :=
  ∃ before opener after, text = before ++ (opener ++ after) ∧ Opener name opener ∧
    before.length = start ∧ before.length + opener.length = bodyStart

/-- A container stands in a text, opening at `start`: behind the opener come its body, which is
balanced, and the closing brace. -/
def Block.StandsAt (b : Block) (text : Text) (start : Nat) : Prop :=
  ∃ before opener after, text = before ++ (opener ++ (b.body ++ '}' :: after)) ∧
    Opener b.variableName opener ∧ before.length = start ∧ Balanced b.body ∧
    b.endOffset = before.length + opener.length + b.body.length + 1

/-- The offset of the closing brace. -/
def Block.bodyEnd (b : Block) : Nat :=
  b.endOffset - 1

/-- The offset of the body. -/
def Block.bodyStart (b : Block) : Nat :=
  b.bodyEnd - b.body.length

/-- How many braces are open after a text that starts behind an opening brace. -/
def depthAfter (t : Text) : Int :=
  1 + t.count '{' - t.count '}'

/-- A block's opener stands where the block does. -/
theorem Block.StandsAt.opensAt {b : Block} {text : Text} {start : Nat} (h : b.StandsAt text start) :
    OpensAt text start b.variableName b.bodyStart := by
  obtain ⟨before, opener, after, htext, hopener, hstart, -, hend⟩ := h
  refine ⟨before, opener, _, htext, hopener, hstart, ?_⟩
  rw [bodyStart, bodyEnd]
  omega

/-- A block's body is balanced. -/
theorem Block.StandsAt.balanced {b : Block} {text : Text} {start : Nat}
    (h : b.StandsAt text start) : Balanced b.body := by
  obtain ⟨-, -, -, -, -, -, hbalanced, -⟩ := h
  exact hbalanced

/-- From the body of a container on, a text is the body, the closing brace and what follows. -/
theorem Block.StandsAt.exists_drop {b : Block} {text : Text} {start : Nat}
    (h : b.StandsAt text start) : ∃ after, text.drop b.bodyStart = b.body ++ '}' :: after := by
  obtain ⟨before, opener, after, rfl, -, -, -, hend⟩ := h
  refine ⟨after, ?_⟩
  have hlength : b.bodyStart = (before ++ opener).length := by
    rw [bodyStart, bodyEnd, List.length_append]
    omega
  rw [hlength, ← List.append_assoc, List.drop_left]

/-- The depth first returns to zero at the closing brace. -/
theorem Block.StandsAt.depth {b : Block} {text : Text} {start : Nat} (h : b.StandsAt text start) :
    text[b.endOffset - 1]? = some '}' ∧
      (∀ n ≤ b.body.length, 0 < depthAfter ((text.drop b.bodyStart).take n)) ∧
      depthAfter ((text.drop b.bodyStart).take (b.body.length + 1)) = 0 := by
  obtain ⟨after, hdrop⟩ := h.exists_drop
  obtain ⟨before, opener, after', htext, -, -, hbalanced, hend⟩ := h
  rw [hdrop]
  refine ⟨?_, fun n hn => ?_, ?_⟩
  · have hindex : b.endOffset - 1 = (before ++ opener ++ b.body).length := by
      simp only [List.length_append]
      omega
    have htext' : text = before ++ opener ++ b.body ++ '}' :: after' := by
      rw [htext, List.append_assoc, List.append_assoc]
    rw [hindex, htext', List.getElem?_append_right (Nat.le_refl _), Nat.sub_self]
    rfl
  · -- the depth counts the opener too, so it stays above zero as long as the body is balanced
    have := hbalanced.within _ (List.take_prefix n b.body)
    rw [List.take_append_of_le_length hn, depthAfter]
    omega
  · have := hbalanced.total
    rw [depthAfter, List.take_length_add_append, List.take_succ_cons, List.take_zero]
    simp only [List.count_append, List.count_singleton, beq_iff_eq, Char.reduceEq, if_true,
      if_false]
    omega

/-! ## Openers in a text -/

/-- Two texts that begin the same text: the longer one goes on where the shorter one ends. -/
theorem exists_append_of_length_le {t u v w : Text} (h : t ++ u = v ++ w)
    (hlength : t.length ≤ v.length) : ∃ between, v = t ++ between ∧ u = between ++ w := by
  rcases List.append_eq_append_iff.mp h with ⟨between, hv, hu⟩ | ⟨between, ht, hw⟩
  · exact ⟨between, hv, hu⟩
  · have hnil : between = [] := by
      rw [ht, List.length_append] at hlength
      exact List.length_eq_zero_iff.mp (by omega)
    subst hnil
    exact ⟨[], by simp [ht], by simp [hw]⟩

/-- An opener that starts behind the start of another starts behind its end. -/
theorem OpensAt.le_of_lt {text name name' : Text} {i j s s' : Nat} (h : OpensAt text i name s)
    (h' : OpensAt text j name' s') (hij : i < j) : s ≤ j := by
  obtain ⟨before, opener, after, rfl, hopener, rfl, rfl⟩ := h
  obtain ⟨before', opener', after', heq, hopener', rfl, -⟩ := h'
  obtain ⟨between, rfl, hbetween⟩ := exists_append_of_length_le heq (Nat.le_of_lt hij)
  obtain ⟨front, rfl, hdollar, -, -⟩ := hopener.form
  obtain ⟨front', rfl, -⟩ := hopener'.form
  by_contra hlt
  rw [List.length_append] at hij hlt
  obtain ⟨inside, hinside, hafter⟩ := exists_append_of_length_le hbetween.symm (by omega)
  -- the dollar sign of the second opener would stand in the first one
  cases inside with
  | nil => simp [hinside] at hlt
  | cons d inside =>
    obtain rfl : '$' = d := (List.cons.inj hafter).1
    cases between with
    | nil => simp at hij
    | cons e between =>
      rw [List.cons_append, List.cons.injEq] at hinside
      have hd : '$' ∈ front ++ ['{'] := hinside.2 ▸ by simp
      rcases List.mem_append.mp hd with hd | hd
      · exact hdollar hd
      · exact absurd hd (by decide)

/-- Where an opener starts in the body of a container, it opens a container that ends in this body.
-/
theorem Block.StandsAt.exists_inner {text name : Text} {i j s : Nat} {outer : Block}
    (h : outer.StandsAt text i) (hopens : OpensAt text j name s) (hstart : outer.bodyStart ≤ j)
    (hend : j < outer.bodyEnd) :
    ∃ inner : Block, inner.StandsAt text j ∧ inner.variableName = name ∧
      inner.endOffset ≤ outer.bodyEnd := by
  obtain ⟨before, opener, after, rfl, -, -, hbalanced, hendOffset⟩ := h
  obtain ⟨before', opener', after', heq, hopener', rfl, -⟩ := hopens
  have hlength : outer.bodyStart = (before ++ opener).length := by
    rw [bodyStart, bodyEnd, List.length_append]
    omega
  rw [bodyEnd] at hend ⊢
  rw [← List.append_assoc] at heq
  obtain ⟨u, rfl, hbody⟩ := exists_append_of_length_le heq (hlength ▸ hstart)
  obtain ⟨front, rfl, -, hopen, hclose⟩ := hopener'.form
  -- the opener holds no closing brace, so it ends before the one that closes the body
  have hfits : (u ++ '$' :: (front ++ ['{'])).length ≤ outer.body.length := by
    by_contra hlt
    rw [← List.append_assoc] at hbody
    obtain ⟨w, hw, hafter⟩ := exists_append_of_length_le hbody (by omega)
    cases w with
    | nil => simp [hw] at hlt
    | cons d w =>
      obtain rfl : '}' = d := (List.cons.inj hafter).1
      obtain ⟨x, -, hx⟩ := exists_append_of_length_le hw (by simp at hend; omega)
      have hmem : '}' ∈ '$' :: (front ++ ['{']) := hx ▸ by simp
      simp [hclose] at hmem
  rw [← List.append_assoc] at hbody
  obtain ⟨v, hv, hafter'⟩ := exists_append_of_length_le hbody.symm hfits
  have hv' : outer.body = (u ++ '$' :: front) ++ '{' :: v := by simp [hv]
  obtain ⟨body, rest, hinner, rfl⟩ := Balanced.exists_body (hv' ▸ hbalanced)
  refine ⟨⟨name, body, (before ++ opener ++ u).length + ('$' :: (front ++ ['{'])).length +
    body.length + 1⟩, ⟨before ++ opener ++ u, '$' :: (front ++ ['{']), rest ++ '}' :: after, ?_,
    hopener', rfl, hinner, rfl⟩, rfl, ?_⟩
  · rw [← List.append_assoc, heq, hafter', List.append_assoc body]
    rfl
  · rw [hendOffset, hv']
    simp only [List.length_append, List.length_cons, List.length_nil]
    omega

/-! ## The containers that are found -/

/-- The containers of a script, each with the offset at which it opens. -/
def placedBlocks (text : Text) : List (Nat × Block) :=
  (blockStart.all text).filterMap fun start =>
    (bodyOf 0 start.after).map fun (body, rest) =>
      (start.offset, ⟨start.found, body, text.length - rest.length⟩)

/-- Without their places, the placed blocks are the blocks. -/
theorem map_snd_placedBlocks (text : Text) : (placedBlocks text).map Prod.snd = blocks text := by
  rw [placedBlocks, blocks, List.map_filterMap]
  simp only [Option.map_map]
  rfl

/-- The sweep for openers stops at each of them. -/
theorem mem_all_blockStart_iff {text : Text} {hit : Hit Text} :
    hit ∈ blockStart.all text ↔ ∃ opener, Opener hit.found opener ∧
      text = hit.before.reverse ++ (opener ++ hit.after) := by
  rw [mem_all_iff separate_blockStart]
  constructor
  · rintro ⟨rest, htext, hmatch⟩
    obtain ⟨opener, hopener, rfl⟩ := blockStart_eq_some_iff.mp hmatch
    exact ⟨opener, hopener, htext⟩
  · rintro ⟨opener, hopener, htext⟩
    exact ⟨_, htext, blockStart_eq_some_iff.mpr ⟨opener, hopener, rfl⟩⟩

/-- What is found are the containers that stand in the text. -/
theorem mem_placedBlocks_iff {text : Text} {start : Nat} {b : Block} :
    (start, b) ∈ placedBlocks text ↔ b.StandsAt text start := by
  simp only [placedBlocks, List.mem_filterMap, Option.map_eq_some_iff, Prod.mk.injEq, Prod.exists,
    bodyOf_eq_some_iff, mem_all_blockStart_iff]
  -- both sides split the text at the opener and at the closing brace; the offsets are the lengths
  -- of the parts
  constructor
  · rintro ⟨hit, ⟨opener, hopener, htext⟩, body, rest, ⟨hbalanced, hafter⟩, hstart, rfl⟩
    refine ⟨hit.before.reverse, opener, rest, hafter ▸ htext, hopener, ?_, hbalanced, ?_⟩
    · rw [List.length_reverse]
      exact hstart
    · have := congrArg List.length htext
      rw [hafter] at this
      simp only [List.length_append, List.length_cons] at this
      dsimp only
      omega
  · rintro ⟨before, opener, rest, htext, hopener, hstart, hbalanced, hend⟩
    refine ⟨⟨before.reverse, b.variableName, b.body ++ '}' :: rest⟩,
      ⟨opener, hopener, by rw [List.reverse_reverse]; exact htext⟩, b.body, rest,
      ⟨hbalanced, rfl⟩, ?_, ?_⟩
    · rw [Hit.offset, List.length_reverse]
      exact hstart
    · have hlength : text.length - rest.length = b.endOffset := by
        rw [htext, hend]
        simp only [List.length_append, List.length_cons]
        omega
      rw [hlength]

/-- Containers are found in the order of the offsets at which they open. -/
theorem pairwise_placedBlocks (text : Text) :
    (placedBlocks text).Pairwise fun first later => first.1 < later.1 := by
  rw [placedBlocks, List.pairwise_filterMap]
  refine (pairwise_offset_all blockStart text).imp ?_
  intro first later hlt x hx y hy
  obtain ⟨_, -, rfl⟩ := Option.map_eq_some_iff.mp hx
  obtain ⟨_, -, rfl⟩ := Option.map_eq_some_iff.mp hy
  exact hlt

/-- At most one container opens at an offset. -/
theorem Block.StandsAt.unique {text : Text} {start : Nat} {b b' : Block}
    (h : b.StandsAt text start) (h' : b'.StandsAt text start) : b = b' := by
  by_contra hne
  have hdiffer : (placedBlocks text).Pairwise fun x y => x.1 ≠ y.1 :=
    (pairwise_placedBlocks text).imp fun hlt => Nat.ne_of_lt hlt
  have : Std.Symm fun x y : Nat × Block => x.1 ≠ y.1 := ⟨fun _ _ hxy => hxy.symm⟩
  exact hdiffer.forall (mem_placedBlocks_iff.mpr h) (mem_placedBlocks_iff.mpr h')
    (fun heq => hne (Prod.mk.inj heq).2) rfl

/-- A container opens at each opener behind which some beginning of the text closes one brace more
than it opens, and nowhere else. -/
theorem exists_standsAt_iff {text : Text} {start : Nat} :
    (∃ b : Block, b.StandsAt text start) ↔ ∃ name s, OpensAt text start name s ∧
      ∃ u, u <+: text.drop s ∧ u.count '}' = u.count '{' + 1 := by
  constructor
  · rintro ⟨b, h⟩
    obtain ⟨after, hafter⟩ := h.exists_drop
    have hbody : bodyOf 0 (text.drop b.bodyStart) = some (b.body, after) :=
      bodyOf_eq_some_iff.mpr ⟨h.balanced, hafter⟩
    exact ⟨_, _, h.opensAt, isSome_bodyOf_iff.mp (by rw [hbody, Option.isSome_some])⟩
  · rintro ⟨name, s, ⟨before, opener, after, rfl, hopener, rfl, rfl⟩, hclosed⟩
    rw [← List.append_assoc, ← List.length_append, List.drop_left] at hclosed
    obtain ⟨⟨body, rest⟩, hbody⟩ := Option.isSome_iff_exists.mp (isSome_bodyOf_iff.mpr hclosed)
    obtain ⟨hbalanced, rfl⟩ := bodyOf_eq_some_iff.mp hbody
    exact ⟨⟨name, body, before.length + opener.length + body.length + 1⟩, before, opener, rest, rfl,
      hopener, rfl, hbalanced, rfl⟩

/-- Of two containers the later one stands behind the other, or in the body of it. -/
theorem Block.StandsAt.apart_or_nested {text : Text} {i j : Nat} {b b' : Block}
    (h : b.StandsAt text i) (h' : b'.StandsAt text j) (hij : i < j) :
    b.endOffset ≤ b'.bodyStart ∨ b.bodyStart < b'.bodyStart ∧ b'.bodyEnd < b.bodyEnd := by
  have hstart : b.bodyStart ≤ j := h.opensAt.le_of_lt h'.opensAt hij
  have hopener : j < b'.bodyStart := by
    obtain ⟨before, opener, after, -, hopener, rfl, hlength⟩ := h'.opensAt
    obtain ⟨front, rfl, -⟩ := hopener.form
    rw [← hlength, List.length_cons]
    omega
  by_cases hend : j < b.bodyEnd
  · obtain ⟨inner, hinner, -, hinside⟩ := h.exists_inner h'.opensAt hstart hend
    obtain rfl := h'.unique hinner
    obtain ⟨before, opener, after, -, -, -, -, hendOffset⟩ := h'
    have : b'.bodyEnd = b'.endOffset - 1 := rfl
    exact Or.inr ⟨by omega, by omega⟩
  · have : b.bodyEnd = b.endOffset - 1 := rfl
    exact Or.inl (by omega)

/-- **Containers are found exactly, and they nest.** The containers of a script are those at the
openers behind which some beginning of the text closes one brace more than it opens, one for each,
in the order of their offsets. The body of a container is balanced, and the depth first returns to
zero at the brace right behind it. Of two containers, the bodies are disjoint or one lies strictly
inside the other. An opener in the body of a container opens a container too. -/
theorem blocks_exact (text : Text) :
    ∃ starts : List Nat, starts.Pairwise (· < ·) ∧
      (∀ i, i ∈ starts ↔ ∃ name s, OpensAt text i name s ∧
        ∃ u, u <+: text.drop s ∧ u.count '}' = u.count '{' + 1) ∧
      List.Forall₂ (fun i b => b.StandsAt text i) starts (blocks text) ∧
      (∀ b ∈ blocks text, Balanced b.body ∧ text[b.endOffset - 1]? = some '}' ∧
        (∀ n ≤ b.body.length, 0 < depthAfter ((text.drop b.bodyStart).take n)) ∧
        depthAfter ((text.drop b.bodyStart).take (b.body.length + 1)) = 0) ∧
      ((blocks text).Pairwise fun b b' =>
        b.endOffset ≤ b'.bodyStart ∨ b.bodyStart < b'.bodyStart ∧ b'.bodyEnd < b.bodyEnd) ∧
      ∀ b ∈ blocks text, ∀ i name s, OpensAt text i name s →
        b.bodyStart ≤ i → i < b.bodyEnd → i ∈ starts := by
  have hmem : ∀ {i}, i ∈ (placedBlocks text).map Prod.fst ↔ ∃ b : Block, b.StandsAt text i := by
    intro i
    simp only [List.mem_map, Prod.exists, exists_and_right, exists_eq_right, mem_placedBlocks_iff]
  have hfound : ∀ b ∈ blocks text, ∃ i, b.StandsAt text i := by
    intro b hb
    rw [← map_snd_placedBlocks] at hb
    obtain ⟨⟨i, b⟩, hplaced, rfl⟩ := List.mem_map.mp hb
    exact ⟨i, mem_placedBlocks_iff.mp hplaced⟩
  -- the starts are those of the placed blocks, and everything else is read off where a block stands
  refine ⟨(placedBlocks text).map Prod.fst, ?_, fun i => ?_, ?_, fun b hb => ?_, ?_, ?_⟩
  · exact List.pairwise_map.mpr (pairwise_placedBlocks text)
  · rw [hmem, exists_standsAt_iff]
  · rw [← map_snd_placedBlocks, List.forall₂_map_left_iff, List.forall₂_map_right_iff,
      List.forall₂_same]
    exact fun _ hplaced => mem_placedBlocks_iff.mp hplaced
  · obtain ⟨i, hstands⟩ := hfound b hb
    exact ⟨hstands.balanced, hstands.depth⟩
  · rw [← map_snd_placedBlocks, List.pairwise_map]
    refine (pairwise_placedBlocks text).imp_of_mem fun hfirst hlater hlt => ?_
    exact (mem_placedBlocks_iff.mp hfirst).apart_or_nested (mem_placedBlocks_iff.mp hlater) hlt
  · intro b hb i name s hopens hstart hend
    obtain ⟨j, hstands⟩ := hfound b hb
    obtain ⟨inner, hinner, -⟩ := hstands.exists_inner hopens hstart hend
    exact hmem.mpr ⟨inner, hinner⟩

end SetupCatalog.Script
