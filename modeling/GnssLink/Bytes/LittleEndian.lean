/-!
# GnssLink.Bytes.LittleEndian

**Words on the wire.** Every multi-byte field of a frame, of a configuration item and of a
payload is little-endian: the least significant byte comes first. One encoder and one decoder
serve all widths, with their round trips `decode_encode` and `encode_decode`.

* `range` is how many numbers a width can hold.
* `unsigned?` and `signed?` read a field of a payload at an offset; they answer `none` when the
  field reaches past the end.
-/

namespace GnssLink.LittleEndian

/-- How many numbers can be written with `width` bytes. -/
def range : Nat → Nat
  | 0 => 1
  | width + 1 => 256 * range width

/-- The `width` bytes of `n`, least significant first; higher bits are dropped. -/
def encode : Nat → Nat → List UInt8
  | 0, _ => []
  | width + 1, n => UInt8.ofNat n :: encode width (n / 256)

/-- The number with the given bytes, least significant first. -/
def decode : List UInt8 → Nat
  | [] => 0
  | b :: rest => b.toNat + 256 * decode rest

@[simp] theorem range_zero : range 0 = 1 := rfl

@[simp] theorem range_succ (width : Nat) : range (width + 1) = 256 * range width := rfl

theorem range_pos (width : Nat) : 0 < range width := by
  induction width with
  | zero => decide
  | succ width ih => rw [range_succ]; omega

@[simp] theorem encode_zero (n : Nat) : encode 0 n = [] := rfl

@[simp] theorem encode_succ (width n : Nat) :
    encode (width + 1) n = UInt8.ofNat n :: encode width (n / 256) := rfl

@[simp] theorem decode_nil : decode [] = 0 := rfl

@[simp] theorem decode_cons (b : UInt8) (rest : List UInt8) :
    decode (b :: rest) = b.toNat + 256 * decode rest := rfl

@[simp] theorem length_encode (width n : Nat) : (encode width n).length = width := by
  induction width generalizing n with
  | zero => rfl
  | succ width ih => simp [ih]

/-- Reading back gives the number modulo the range of the width. -/
theorem decode_encode (width n : Nat) : decode (encode width n) = n % range width := by
  induction width generalizing n with
  | zero => simp [Nat.mod_one]
  | succ width ih =>
    rw [encode_succ, decode_cons, ih, range_succ, Nat.mod_mul]
    simp [UInt8.toNat_ofNat']

theorem decode_encode_of_lt {width n : Nat} (h : n < range width) :
    decode (encode width n) = n := by
  rw [decode_encode, Nat.mod_eq_of_lt h]

theorem decode_lt (bytes : List UInt8) : decode bytes < range bytes.length := by
  induction bytes with
  | nil => simp
  | cons b rest ih =>
    have hb := b.toNat_lt
    rw [decode_cons, List.length_cons, range_succ]
    omega

/-- Bytes are determined by their number and the width. -/
theorem encode_decode (bytes : List UInt8) : encode bytes.length (decode bytes) = bytes := by
  induction bytes with
  | nil => rfl
  | cons b rest ih =>
    have hb := b.toNat_lt
    have hlow : UInt8.ofNat (b.toNat + 256 * decode rest) = b := by
      apply UInt8.toNat_inj.mp
      rw [UInt8.toNat_ofNat']
      omega
    have hhigh : (b.toNat + 256 * decode rest) / 256 = decode rest := by omega
    rw [List.length_cons, decode_cons, encode_succ, hlow, hhigh, ih]

/-! ### Fields of a payload -/

/-- The unsigned field of `width` bytes at `offset`. -/
def unsigned? (bytes : List UInt8) (offset width : Nat) : Option Nat :=
  let field := (bytes.drop offset).take width
  if field.length = width then some (decode field) else none

/-- The field of `width` bytes at `offset` as a two's complement number. -/
def signed? (bytes : List UInt8) (offset width : Nat) : Option Int :=
  (unsigned? bytes offset width).map fun n => Int.bmod (Int.ofNat n) (range width)

end GnssLink.LittleEndian
