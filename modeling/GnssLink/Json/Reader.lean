import GnssLink.Json.Tree
/-!
# GnssLink.Json.Reader

**Reading JSON.** `read?` answers the document that a text is, and nothing for any other text: there
are no comments, no commas too many, no control characters inside texts, no leading zeros.

Sequences and objects are read with a bound on the nesting of calls. Two calls take at least one
character, so twice the length of the text is enough.
-/

namespace GnssLink.Json

/-- The blanks of a document. -/
def isBlank (c : Char) : Bool := c == ' ' || c == '\n' || c == '\t' || c == '\r'

/-- Without blanks at the start. -/
def skip (text : List Char) : List Char := text.dropWhile isBlank

/-! ### Texts -/

/-- The character of an escape by letter. -/
def escape? : Char → Option Char
  | '\x22' => some '\x22'
  | '\\' => some '\\'
  | '/' => some '/'
  | 'b' => some '\x08'
  | 'f' => some '\x0c'
  | 'n' => some '\n'
  | 'r' => some '\r'
  | 't' => some '\t'
  | _ => none

/-- The number of an escape by number. -/
def unit? (a b c d : Char) : Option Nat := do
  let a ← Text.Hex.digit? a
  let b ← Text.Hex.digit? b
  let c ← Text.Hex.digit? c
  let d ← Text.Hex.digit? d
  return ((a * 16 + b) * 16 + c) * 16 + d

/-- The parts of a text up to the closing quote, and what follows it. Every escape by number is a
`half` at first. -/
def readUnits? : List Char → Option (List Piece × List Char)
  | [] => none
  | '\x22' :: rest => some ([], rest)
  | '\\' :: 'u' :: a :: b :: c :: d :: rest => do
    let n ← unit? a b c d
    let (pieces, rest) ← readUnits? rest
    return (.half n :: pieces, rest)
  | '\\' :: e :: rest => do
    let c ← escape? e
    let (pieces, rest) ← readUnits? rest
    return (.char c :: pieces, rest)
  | c :: rest =>
    if c.toNat < 0x20 ∨ c = '\\' then none
    else do
      let (pieces, rest) ← readUnits? rest
      return (.char c :: pieces, rest)

/-- Whether a unit is the first half of a pair. -/
def isFirstHalf (n : Nat) : Bool := 0xd800 ≤ n && n < 0xdc00

/-- Whether a unit is the second half of a pair. -/
def isSecondHalf (n : Nat) : Bool := 0xdc00 ≤ n && n < 0xe000

/-- The character of a pair. -/
def pair (first second : Nat) : Char :=
  Char.ofNat (0x10000 + (first - 0xd800) * 0x400 + (second - 0xdc00))

/-- Joins pairs of halves, and makes characters of the units that are none. -/
def joinPairs : List Piece → List Piece
  | .half n :: .half m :: rest =>
    if isFirstHalf n && isSecondHalf m then .char (pair n m) :: joinPairs rest
    else if isFirstHalf n || isSecondHalf n then .half n :: joinPairs (.half m :: rest)
    else .char (Char.ofNat n) :: joinPairs (.half m :: rest)
  | .half n :: rest =>
    (if isFirstHalf n || isSecondHalf n then .half n else .char (Char.ofNat n)) :: joinPairs rest
  | .char c :: rest => .char c :: joinPairs rest
  | [] => []

/-- Reads a text after the opening quote. -/
def readText? (text : List Char) : Option (List Piece × List Char) :=
  (readUnits? text).map fun (pieces, rest) => (joinPairs pieces, rest)

/-! ### Numbers -/

/-- The digits at the start, of which there must be one. -/
def readDigits? (text : List Char) : Option (List Char × List Char) :=
  let digits := text.takeWhile Char.isDigit
  if digits.isEmpty then none else some (digits, text.drop digits.length)

/-- The digits of a whole number; a zero stands alone. -/
def readWhole? : List Char → Option (List Char × List Char)
  | '0' :: rest => if (rest.head?.any Char.isDigit) then none else some (['0'], rest)
  | text => readDigits? text

/-- The decimal places, which may be missing. -/
def readFraction? : List Char → Option (List Char × List Char)
  | '.' :: rest => (readDigits? rest).map fun (digits, rest) => ('.' :: digits, rest)
  | text => some ([], text)

/-- The exponent, which may be missing. -/
def readExponent? : List Char → Option (List Char × List Char)
  | [] => some ([], [])
  | e :: rest =>
    if e ≠ 'e' ∧ e ≠ 'E' then some ([], e :: rest)
    else
      match rest with
      | [] => none
      | sign :: more =>
        if sign = '+' ∨ sign = '-' then
          (readDigits? more).map fun (digits, rest) => (e :: sign :: digits, rest)
        else (readDigits? rest).map fun (digits, rest) => (e :: digits, rest)

/-- Reads a number without its sign. -/
def readUnsigned? (text : List Char) : Option (List Char × List Char) := do
  let (whole, rest) ← readWhole? text
  let (fraction, rest) ← readFraction? rest
  let (exponent, rest) ← readExponent? rest
  return (whole ++ fraction ++ exponent, rest)

/-- Reads a number. -/
def readNumber? (text : List Char) : Option (Tree × List Char) :=
  match text with
  | '-' :: rest =>
    (readUnsigned? rest).map fun (literal, rest) => (.number (String.ofList ('-' :: literal)), rest)
  | text => (readUnsigned? text).map fun (literal, rest) => (.number (String.ofList literal), rest)

/-! ### Documents -/

/-- Reads a word with a fixed meaning, or a number. -/
def readScalar? (text : List Char) : Option (Tree × List Char) :=
  match "null".toList.isPrefixOf? text, "true".toList.isPrefixOf? text,
    "false".toList.isPrefixOf? text with
  | some rest, _, _ => some (.null, rest)
  | _, some rest, _ => some (.bool true, rest)
  | _, _, some rest => some (.bool false, rest)
  | _, _, _ => readNumber? text

mutual

/-- Reads a document, and answers what follows it. -/
def readTree? : Nat → List Char → Option (Tree × List Char)
  | 0, _ => none
  | n + 1, text =>
    match skip text with
    | '\x22' :: rest => (readText? rest).map fun (pieces, rest) => (.text pieces, rest)
    | '[' :: rest =>
      match skip rest with
      | ']' :: rest => some (.array [], rest)
      | rest => (readItems? n rest).map fun (items, rest) => (.array items, rest)
    | '\x7b' :: rest =>
      match skip rest with
      | '\x7d' :: rest => some (.object [], rest)
      | rest => (readMembers? n rest).map fun (members, rest) => (.object members, rest)
    | text => readScalar? text

/-- Reads the items of a sequence and its end. -/
def readItems? : Nat → List Char → Option (List Tree × List Char)
  | 0, _ => none
  | n + 1, text => do
    let (item, rest) ← readTree? n text
    match skip rest with
    | ']' :: rest => return ([item], rest)
    | ',' :: rest =>
      let (items, rest) ← readItems? n rest
      return (item :: items, rest)
    | _ => none

/-- Reads the members of an object and its end. -/
def readMembers? : Nat → List Char → Option (List (List Piece × Tree) × List Char)
  | 0, _ => none
  | n + 1, text =>
    match skip text with
    | '\x22' :: rest => do
      let (name, rest) ← readText? rest
      match skip rest with
      | ':' :: rest =>
        let (item, rest) ← readTree? n rest
        match skip rest with
        | '\x7d' :: rest => return ([(name, item)], rest)
        | ',' :: rest =>
          let (members, rest) ← readMembers? n rest
          return ((name, item) :: members, rest)
        | _ => none
      | _ => none
    | _ => none

end

/-- The document that a text is. -/
def read? (text : String) : Option Tree :=
  match readTree? (2 * text.length + 2) text.toList with
  | some (tree, rest) => if (skip rest).isEmpty then some tree else none
  | none => none

end GnssLink.Json
