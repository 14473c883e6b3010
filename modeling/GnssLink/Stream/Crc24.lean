/-!
# GnssLink.Stream.Crc24

**The 24-bit cyclic redundancy check** with the polynomial `0x864cfb`, a register that starts at
zero, and the most significant bit first. One byte is taken in by adding it to the top of the
register and shifting eight times.
-/

namespace GnssLink.Stream.Crc24

/-- The remainder so far. -/
abbrev Register := BitVec 24

/-- The polynomial without its leading term. -/
def polynomial : Register := 0x864cfb#24

/-- Multiplies the remainder by one power of the unknown. -/
def shift (r : Register) : Register :=
  if r.msb then (r <<< 1) ^^^ polynomial else r <<< 1

/-- Multiplies the remainder by several powers of the unknown. -/
def shifts : Nat → Register → Register
  | 0, r => r
  | n + 1, r => shifts n (shift r)

/-- Takes in one byte. -/
def add (r : Register) (b : UInt8) : Register :=
  shifts 8 (r ^^^ (b.toBitVec.setWidth 24 <<< 16))

/-- The remainder of a sequence of bytes. -/
def ofBytes (bytes : List UInt8) : Register := bytes.foldl add 0

/-- The check as it closes a frame, most significant byte first. -/
def toBytes (r : Register) : List UInt8 :=
  [⟨r.extractLsb' 16 8⟩, ⟨r.extractLsb' 8 8⟩, ⟨r.extractLsb' 0 8⟩]

@[simp] theorem length_toBytes (r : Register) : (toBytes r).length = 3 := rfl

example : ofBytes [0x31, 0x32, 0x33, 0x34, 0x35, 0x36, 0x37, 0x38, 0x39] = 0xcde703#24 := by
  decide +kernel

end GnssLink.Stream.Crc24
