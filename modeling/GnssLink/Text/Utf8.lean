/-!
# GnssLink.Text.Utf8

**Text from bytes that should be UTF-8.** A sequence that cannot be completed to a character is
replaced by one U+FFFD: the longest start of a character counts as one sequence, and a byte that
starts no character is one by itself.

The decoder takes one byte at a time. Between the bytes of a character it holds how many bytes
are owed, the range of the next one and the bits so far (`Pending`).
-/

namespace GnssLink.Text.Utf8

/-- A character of which some bytes are still owed. -/
structure Pending where
  /-- How many bytes are owed beyond the next one. -/
  owed : Nat
  /-- The least value of the next byte. -/
  least : UInt8
  /-- The greatest value of the next byte. -/
  greatest : UInt8
  /-- The bits of the bytes taken. -/
  bits : Nat
  deriving DecidableEq, Repr

/-- What stands for a sequence that is no character. -/
def replacement : Char := '\ufffd'

/-- Takes the first byte of a character: the text it gives at once and the character it begins.
Overlong forms, surrogates and numbers beyond U+10FFFF are kept out by the range of the second
byte. -/
def lead (b : UInt8) : List Char × Option Pending :=
  if b ≤ 0x7f then ([Char.ofNat b.toNat], none)
  else if b < 0xc2 then ([replacement], none)
  else if b ≤ 0xdf then ([], some ⟨0, 0x80, 0xbf, b.toNat - 0xc0⟩)
  else if b = 0xe0 then ([], some ⟨1, 0xa0, 0xbf, 0⟩)
  else if b = 0xed then ([], some ⟨1, 0x80, 0x9f, 0xd⟩)
  else if b ≤ 0xef then ([], some ⟨1, 0x80, 0xbf, b.toNat - 0xe0⟩)
  else if b = 0xf0 then ([], some ⟨2, 0x90, 0xbf, 0⟩)
  else if b ≤ 0xf3 then ([], some ⟨2, 0x80, 0xbf, b.toNat - 0xf0⟩)
  else if b = 0xf4 then ([], some ⟨2, 0x80, 0x8f, 4⟩)
  else ([replacement], none)

/-- Takes one byte. A byte that does not continue the pending character is the first of another. -/
def step (pending : Option Pending) (b : UInt8) : List Char × Option Pending :=
  match pending with
  | none => lead b
  | some p =>
    if p.least ≤ b ∧ b ≤ p.greatest then
      let bits := p.bits * 64 + b.toNat % 64
      match p.owed with
      | 0 => ([Char.ofNat bits], none)
      | owed + 1 => ([], some ⟨owed, 0x80, 0xbf, bits⟩)
    else (replacement :: (lead b).1, (lead b).2)

/-- The characters of the bytes, `pending` being the start of a character already taken. -/
def decodeFrom (pending : Option Pending) : List UInt8 → List Char
  | [] => if pending.isSome then [replacement] else []
  | b :: rest => (step pending b).1 ++ decodeFrom (step pending b).2 rest

/-- The characters of the bytes. -/
def decodeLossy (bytes : List UInt8) : List Char := decodeFrom none bytes

example : decodeLossy [0x41, 0xc3, 0xa9, 0xe2, 0x82, 0x42, 0xf0, 0x9f, 0x98, 0x80]
    = ['A', 'é', replacement, 'B', '😀'] := by decide

end GnssLink.Text.Utf8
