/-!
# Packed content

Packed content is a sequence of blocks. A block holds bytes as they are, or symbols in a prefix code
that is fixed or described by the block itself. A symbol stands for a byte, for the end of the block
or for a copy of bytes that came before.

A code is given by the length of the code word of each symbol. Among words of one length the symbols
are in their order, and shorter words come first, so the lengths alone determine the code:
`readSymbol` reads a word bit by bit and keeps only how far it lies beyond the words passed so far.

Bits may run out anywhere; what has been unpacked until then still counts.
-/

namespace SetupCatalog.Archive

/-- What is wrong with packed content. -/
inductive InflateFault where
  | blockType
  | storedLengths
  | symbolCounts
  | lengthCode
  | lengthRepeat
  | noBlockEnd
  | literalCode
  | distanceCode
  | literalWord
  | distanceWord
  | distanceTooFar
  deriving DecidableEq, Repr

/-- The wording of a fault. -/
def InflateFault.wording : InflateFault → List Char
  | blockType => "invalid block type".toList
  | storedLengths => "invalid stored block lengths".toList
  | symbolCounts => "too many length or distance symbols".toList
  | lengthCode => "invalid code lengths set".toList
  | lengthRepeat => "invalid bit length repeat".toList
  | noBlockEnd => "invalid code -- missing end-of-block".toList
  | literalCode => "invalid literal/lengths set".toList
  | distanceCode => "invalid distances set".toList
  | literalWord => "invalid literal/length code".toList
  | distanceWord => "invalid distance code".toList
  | distanceTooFar => "invalid distance too far back".toList

/-- Why unpacking stops before the end of the content. -/
inductive Stop where
  /-- There are no more bits. -/
  | cutShort
  | fault (e : InflateFault)
  deriving DecidableEq, Repr

/-! ## Bits -/

/-- The bits of bytes, the lowest bit of each byte first. -/
def bitsOf (bytes : List UInt8) : List Bool :=
  bytes.flatMap fun b => (List.range 8).map fun i => b.toNat / Nat.pow 2 i % 2 == 1

/-- Reads a number with the given number of bits, the lowest first. -/
def readBits : Nat → List Bool → Except Stop (Nat × List Bool)
  | 0, bits => .ok (0, bits)
  | _ + 1, [] => .error .cutShort
  | n + 1, b :: bits => do
    let (rest, bits) ← readBits n bits
    return (b.toNat + 2 * rest, bits)

/-! ## Prefix codes -/

/-- The most bits of a code word. -/
def maxWord : Nat := 15

/-- The symbols whose words have a given length, in their order. -/
def symbolsOfLength (lengths : List Nat) (n : Nat) : List Nat :=
  (List.range lengths.length).filter fun s => lengths[s]? == some n

/-- The length of the longest word. -/
def longest (lengths : List Nat) : Nat :=
  lengths.foldl max 0

/-- The symbols of a code by the lengths of their words, from one bit on up to the longest word. A
code without symbols has words of one bit that stand for nothing. -/
def codeOf (lengths : List Nat) : List (List Nat) :=
  (List.range (max 1 (longest lengths))).map fun n => symbolsOfLength lengths (n + 1)

/-- How many words of the greatest length are left once every symbol has its word, if there are
enough words at all. -/
def spareWords? (lengths : List Nat) : Option Nat :=
  (List.range maxWord).foldlM (fun spare n =>
    let used := lengths.count (n + 1)
    if used ≤ 2 * spare then some (2 * spare - used) else none) 1

/-- Whether every sequence of bits starts with exactly one word. -/
def isComplete (lengths : List Nat) : Bool :=
  spareWords? lengths == some 0

/-- Whether no sequence of bits starts with two words. Some may start with none if the code has no
more than one symbol, with a word of one bit. -/
def isUsable (lengths : List Nat) : Bool :=
  isComplete lengths || ((spareWords? lengths).isSome && longest lengths ≤ 1)

/-- Reads a code word and finds its symbol, if it has one. `beyond` counts the words of the length
so far that come before the one being read and belong to no shorter word. -/
def readSymbol (beyond : Nat) :
    List (List Nat) → List Bool → Except Stop (Option Nat × List Bool)
  | [], bits => .ok (none, bits)
  | _ :: _, [] => .error .cutShort
  | symbols :: code, b :: bits =>
    let beyond := 2 * beyond + b.toNat
    match symbols[beyond]? with
    | some s => .ok (some s, bits)
    -- the words of this length are passed, so the next ones are counted from there
    | none => readSymbol (beyond - symbols.length) code bits

/-! ## Blocks of symbols -/

/-- The least length of a copy and the number of further bits of its length, for the symbols from
257 on. -/
def lengthSteps : List (Nat × Nat) :=
  [(3, 0), (4, 0), (5, 0), (6, 0), (7, 0), (8, 0), (9, 0), (10, 0), (11, 1), (13, 1), (15, 1),
    (17, 1), (19, 2), (23, 2), (27, 2), (31, 2), (35, 3), (43, 3), (51, 3), (59, 3), (67, 4),
    (83, 4), (99, 4), (115, 4), (131, 5), (163, 5), (195, 5), (227, 5), (258, 0)]

/-- The least distance of a copy and the number of further bits of it, for every symbol. -/
def distanceSteps : List (Nat × Nat) :=
  [(1, 0), (2, 0), (3, 0), (4, 0), (5, 1), (7, 1), (9, 2), (13, 2), (17, 3), (25, 3), (33, 4),
    (49, 4), (65, 5), (97, 5), (129, 6), (193, 6), (257, 7), (385, 7), (513, 8), (769, 8),
    (1025, 9), (1537, 9), (2049, 10), (3073, 10), (4097, 11), (6145, 11), (8193, 12), (12289, 12),
    (16385, 13), (24577, 13)]

/-- Reads the number that a symbol stands for, given the steps and the fault of a symbol that has
none. -/
def readStep (steps : List (Nat × Nat)) (e : InflateFault) (symbol : Option Nat)
    (bits : List Bool) : Except Stop (Nat × List Bool) :=
  match symbol.bind fun s => steps[s]? with
  | some (least, further) => do
    let (more, bits) ← readBits further bits
    return (least + more, bits)
  | none => .error (.fault e)

/-- Bytes with a copy of bytes at their end that lie the given distance back; the copy may overlap
itself. -/
def copyBack (distance : Nat) : (count : Nat) → Array UInt8 → Array UInt8
  | 0, out => out
  | count + 1, out => copyBack distance count (out.push ((out[out.size - distance]?).getD 0))

/-- Reads the distance of a copy that is appended to bytes. -/
def readCopy (distances : List (List Nat)) (count : Nat) (bits : List Bool) (out : Array UInt8) :
    Except Stop (Array UInt8 × List Bool) := do
  let (symbol, bits) ← readSymbol 0 distances bits
  let (distance, bits) ← readStep distanceSteps .distanceWord symbol bits
  -- a copy may overlap itself, but it may not start before the content
  if distance > out.size then throw (.fault .distanceTooFar)
  return (copyBack distance count out, bits)

/-- Appends to bytes what the symbols of a block stand for, up to the end of the block. Finds the
bits after it, or why they end before. The fuel bounds the number of symbols. -/
def inflateSymbols (literals distances : List (List Nat)) :
    (fuel : Nat) → List Bool → Array UInt8 → Array UInt8 × Except Stop (List Bool)
  | 0, _, out => (out, .error .cutShort)
  | fuel + 1, bits, out =>
    match readSymbol 0 literals bits with
    | .error e => (out, .error e)
    | .ok (none, _) => (out, .error (.fault .literalWord))
    | .ok (some symbol, bits) =>
      if symbol < 256 then
        inflateSymbols literals distances fuel bits (out.push (UInt8.ofNat symbol))
      else if symbol = 256 then (out, .ok bits)
      else
        match readStep lengthSteps .literalWord (some (symbol - 257)) bits with
        | .error e => (out, .error e)
        | .ok (count, bits) =>
          match readCopy distances count bits out with
          | .error e => (out, .error e)
          | .ok (out, bits) => inflateSymbols literals distances fuel bits out

/-- The lengths of the words of the fixed code for bytes, ends and lengths. -/
def fixedLiterals : List Nat :=
  List.replicate 144 8 ++ List.replicate 112 9 ++ List.replicate 24 7 ++ List.replicate 8 8

/-- The lengths of the words of the fixed code for distances. -/
def fixedDistances : List Nat :=
  List.replicate 32 5

/-! ## Codes that a block describes -/

/-- The order in which the lengths for the code of lengths are listed. -/
def lengthOrder : List Nat :=
  [16, 17, 18, 0, 8, 7, 9, 6, 10, 5, 11, 4, 12, 3, 13, 2, 14, 1, 15]

/-- Reads the given number of numbers with three bits each. -/
def readTriples : Nat → List Bool → Except Stop (List Nat × List Bool)
  | 0, bits => .ok ([], bits)
  | n + 1, bits => do
    let (length, bits) ← readBits 3 bits
    let (lengths, bits) ← readTriples n bits
    return (length :: lengths, bits)

/-- Reads how often a length is repeated and finds the lengths so far with that, no more than
`total` in all. -/
def readRepeat (total least further length : Nat) (lengths : List Nat) (bits : List Bool) :
    Except Stop (List Nat × List Bool) := do
  let (more, bits) ← readBits further bits
  let lengths := lengths ++ List.replicate (least + more) length
  if lengths.length > total then throw (.fault .lengthRepeat)
  return (lengths, bits)

/-- Reads lengths that are written in a code of their own until there are `total`. The fuel bounds
the number of words. -/
def readLengths (code : List (List Nat)) (total : Nat) :
    (fuel : Nat) → (lengths : List Nat) → List Bool → Except Stop (List Nat × List Bool)
  | 0, lengths, bits => .ok (lengths, bits)
  | fuel + 1, lengths, bits =>
    if total ≤ lengths.length then .ok (lengths, bits)
    else do
      let (symbol, bits) ← readSymbol 0 code bits
      let symbol := symbol.getD 0
      if symbol < 16 then readLengths code total fuel (lengths ++ [symbol]) bits
      else
        let (lengths, bits) ←
          if symbol = 16 then
            match lengths.getLast? with
            | some length => readRepeat total 3 2 length lengths bits
            -- there is no length to repeat, but the bits of the count are asked for first
            | none => do
              let _ ← readBits 2 bits
              throw (.fault .lengthRepeat)
          else if symbol = 17 then readRepeat total 3 3 0 lengths bits
          else readRepeat total 11 7 0 lengths bits
        readLengths code total fuel lengths bits

/-- Reads the two codes that a block describes. -/
def readCodes (bits : List Bool) : Except Stop (List (List Nat) × List (List Nat) × List Bool) := do
  let (literalCount, bits) ← readBits 5 bits
  let (distanceCount, bits) ← readBits 5 bits
  let (lengthCount, bits) ← readBits 4 bits
  let literalCount := literalCount + 257
  let distanceCount := distanceCount + 1
  if literalCount > 286 || distanceCount > 30 then throw (.fault .symbolCounts)
  let (listed, bits) ← readTriples (lengthCount + 4) bits
  let ordered := lengthOrder.zip listed
  -- lengths that are not listed are zero
  let lengths := (List.range 19).map fun s => (ordered.lookup s).getD 0
  if !(isComplete lengths || longest lengths = 0) then throw (.fault .lengthCode)
  let total := literalCount + distanceCount
  let (lengths, bits) ← readLengths (codeOf lengths) total total [] bits
  -- one run of lengths for both codes, so a repeat may go over from the first into the second
  let literals := lengths.take literalCount
  let distances := lengths.drop literalCount
  if literals[256]?.getD 0 = 0 then throw (.fault .noBlockEnd)
  if !isUsable literals then throw (.fault .literalCode)
  if !isUsable distances then throw (.fault .distanceCode)
  return (codeOf literals, codeOf distances, bits)

/-! ## The whole content -/

/-- Appends to bytes the given number of further bytes, as far as there are bits for them. -/
def inflateStored :
    Nat → List Bool → Array UInt8 → Array UInt8 × Except Stop (List Bool)
  | 0, bits, out => (out, .ok bits)
  | n + 1, bits, out =>
    match readBits 8 bits with
    | .error e => (out, .error e)
    | .ok (b, bits) => inflateStored n bits (out.push (UInt8.ofNat b))

/-- Reads the length of a block of bytes as they are. It starts with a whole byte, and is there a
second time with every bit flipped. -/
def readStoredLength (bits : List Bool) : Except Stop (Nat × List Bool) := do
  let (length, bits) ← readBits 16 (bits.drop (bits.length % 8))
  let (flipped, bits) ← readBits 16 bits
  if length + flipped ≠ 0xFFFF then throw (.fault .storedLengths)
  return (length, bits)

/-- Appends to bytes what a block of the given type stands for. -/
def inflateBlock (type : Nat) (bits : List Bool) (out : Array UInt8) :
    Array UInt8 × Except Stop (List Bool) :=
  match type with
  | 0 =>
    match readStoredLength bits with
    | .error e => (out, .error e)
    | .ok (length, bits) => inflateStored length bits out
  | 1 => inflateSymbols (codeOf fixedLiterals) (codeOf fixedDistances) (bits.length + 1) bits out
  | 2 =>
    match readCodes bits with
    | .error e => (out, .error e)
    | .ok (literals, distances, bits) =>
      inflateSymbols literals distances (bits.length + 1) bits out
  | _ => (out, .error (.fault .blockType))

/-- Reads whether a block is the last one, and its type. -/
def readBlockStart (bits : List Bool) : Except Stop (Bool × Nat × List Bool) := do
  let (last, bits) ← readBits 1 bits
  let (type, bits) ← readBits 2 bits
  return (last == 1, type, bits)

/-- Appends to bytes what the blocks stand for, up to the end of the last block. The fuel bounds the
number of blocks. -/
def inflateBlocks :
    (fuel : Nat) → List Bool → Array UInt8 → Array UInt8 × Except Stop (List Bool)
  | 0, _, out => (out, .error .cutShort)
  | fuel + 1, bits, out =>
    match readBlockStart bits with
    | .error e => (out, .error e)
    | .ok (last, type, bits) =>
      match inflateBlock type bits out with
      | (out, .ok bits) => if last then (out, .ok bits) else inflateBlocks fuel bits out
      | stopped => stopped

/-- What packed content stands for, as far as it can be unpacked, and why unpacking stops if that is
before the end. -/
def inflate (bytes : List UInt8) : List UInt8 × Option Stop :=
  let bits := bitsOf bytes
  match inflateBlocks (bits.length + 1) bits #[] with
  | (out, .ok _) => (out.toList, none)
  | (out, .error stop) => (out.toList, some stop)

end SetupCatalog.Archive
