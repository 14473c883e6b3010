/-!
# GnssLink.Number.Binary64

**The exact value of a double.** The bits of a double precision number are a sign, eleven bits of
exponent and fifty-two of fraction; `Binary64.ofFloat` turns them into a sign, a whole
significand and a power of two. All finite doubles are such numbers, so texts can be computed
without a further rounding.
-/

namespace GnssLink.Number

/-- What a double stands for. -/
inductive Binary64 where
  /-- The number `significand * 2 ^ exponent`, negated if `negative`; zero has a sign too. -/
  | finite (negative : Bool) (significand : Nat) (exponent : Int)
  | infinite (negative : Bool)
  | nan
  deriving DecidableEq, Repr

namespace Binary64

/-- How many fractions there are: 2 to the power of 52. -/
def fractions : Nat := 0x10000000000000

/-- How many exponents there are: 2 to the power of 11. -/
def exponents : Nat := 0x800

/-- The value with the given bit pattern. The last exponent is that of infinities and NaN, and the
first that of the numbers without the leading bit. -/
def ofBits (bits : UInt64) : Binary64 :=
  let negative := bits.toNat / (fractions * exponents) == 1
  let exponent := bits.toNat / fractions % exponents
  let fraction := bits.toNat % fractions
  if exponent = exponents - 1 then
    if fraction = 0 then infinite negative else nan
  else if exponent = 0 then finite negative fraction (-1074)
  else finite negative (fractions + fraction) (Int.ofNat exponent - 1075)

/-- The value of a double. -/
def ofFloat (x : Float) : Binary64 := ofBits x.toBits

end Binary64
end GnssLink.Number
