import Mathlib.Algebra.Group.Int.Defs
import GnssLink.Report.Time
/-!
# GnssLink.Proofs.Report.Rounding

**Rounding to milliseconds is exact** (`roundToMillis_exact`): the result is the nearest
millisecond, a half counting upwards, as long as its seconds are a number of 32 bits; otherwise they
stop at the end of the range that they would pass. A later time is not rounded to an earlier one.

The rounding is said without limits on its numbers. `roundToMillis?` does it in words of 64 and 32
bits and has no result if a number does not fit in its word, which never happens.
-/

namespace GnssLink.Report

/-! ### Words -/

/-- A word of `bits` bits can hold the number, with its sign. -/
def IsWord (bits : Nat) (n : Int) : Prop := -2 ^ (bits - 1) ≤ n ∧ n < 2 ^ (bits - 1)

instance (bits : Nat) (n : Int) : Decidable (IsWord bits n) := by
  unfold IsWord
  infer_instance

theorem isWord_32_iff {n : Int} : IsWord 32 n ↔ -2147483648 ≤ n ∧ n ≤ 2147483647 := by
  unfold IsWord
  omega

theorem isWord_64_iff {n : Int} :
    IsWord 64 n ↔ -9223372036854775808 ≤ n ∧ n ≤ 9223372036854775807 := by
  unfold IsWord
  omega

theorem isWord_toInt (n : Int32) : IsWord 32 n.toInt := ⟨n.le_toInt, n.toInt_lt⟩

/-- A number in a word of `bits` bits, if it can hold it. -/
def word? (bits : Nat) (n : Int) : Option Int := if IsWord bits n then some n else none

theorem word?_eq_some {bits : Nat} {n : Int} (h : IsWord bits n) : word? bits n = some n :=
  if_pos h

theorem saturate_of_isWord {n : Int} (h : IsWord 32 n) : saturate n = n := by
  rw [isWord_32_iff] at h
  unfold saturate
  omega

theorem isWord_saturate (n : Int) : IsWord 32 (saturate n) := by
  rw [isWord_32_iff]
  unfold saturate
  omega

/-! ### The carry -/

/-- The whole seconds that the nanoseconds come to when they are rounded. -/
def carry (nano : Int) : Int := (nano + 500000) / 1000000 / 1000

theorem carry_bounds {nano : Int} (h : IsWord 32 nano) : -3 ≤ carry nano ∧ carry nano ≤ 2 := by
  rw [isWord_32_iff] at h
  unfold carry
  omega

/-! ### Rounding in words -/

/-- Rounding in words: the nanoseconds and what is computed from them have 64 bits, the seconds, the
carry and the milliseconds 32. Only the sum of the seconds and the carry may not fit; it
saturates. -/
def roundToMillis? (sec nano : Int) : Option (Int × Int) := do
  let shifted ← word? 64 (nano + 500000)
  let millis ← word? 64 (shifted / 1000000)
  let carried ← word? 32 (← word? 64 (millis / 1000))
  let rest ← word? 32 (← word? 64 (millis % 1000))
  return (← word? 32 (saturate (sec + carried)), rest)

/-- No number outgrows its word. -/
theorem roundToMillis?_eq (sec : Int) {nano : Int} (h : IsWord 32 nano) :
    roundToMillis? sec nano = some (roundToMillis sec nano) := by
  have hcarry := carry_bounds h
  have hrest := roundToMillis_snd_bounds sec nano
  rw [isWord_32_iff] at h
  have hshifted64 : IsWord 64 (nano + 500000) := isWord_64_iff.mpr (by omega)
  have hmillis64 : IsWord 64 ((nano + 500000) / 1000000) := isWord_64_iff.mpr (by omega)
  have hcarry64 : IsWord 64 (carry nano) := isWord_64_iff.mpr (by omega)
  have hcarry32 : IsWord 32 (carry nano) := isWord_32_iff.mpr (by omega)
  have hrest64 : IsWord 64 (roundToMillis sec nano).2 := isWord_64_iff.mpr (by omega)
  have hrest32 : IsWord 32 (roundToMillis sec nano).2 := isWord_32_iff.mpr (by omega)
  unfold carry at hcarry64 hcarry32
  unfold roundToMillis at hrest64 hrest32
  simp only [roundToMillis?, word?_eq_some hshifted64, word?_eq_some hmillis64,
    word?_eq_some hcarry64, word?_eq_some hcarry32, word?_eq_some hrest64, word?_eq_some hrest32,
    word?_eq_some (isWord_saturate _), Option.bind_eq_bind, Option.bind_some]
  rfl

/-! ### Times -/

/-- A time in nanoseconds. -/
def inNanos (sec nano : Int) : Int := 1000000000 * sec + nano

/-- The time in milliseconds that seconds and milliseconds make. -/
def totalMillis (time : Int × Int) : Int := 1000 * time.1 + time.2

/-- `time` is the given time to the millisecond: exact if the seconds are a number of 32 bits, else
at the end of the range. -/
structure IsRounded (sec nano : Int) (time : Int × Int) : Prop where
  proper : 0 ≤ time.2 ∧ time.2 < 1000
  exact : IsWord 32 (sec + carry nano) →
    totalMillis time = 1000 * sec + (nano + 500000) / 1000000
  /-- Half a millisecond counts upwards. -/
  near : IsWord 32 (sec + carry nano) →
    -500000 < 1000000 * totalMillis time - inNanos sec nano
      ∧ 1000000 * totalMillis time - inNanos sec nano ≤ 500000
  most : 2147483647 < sec + carry nano → time.1 = 2147483647
  least : sec + carry nano < -2147483648 → time.1 = -2147483648

/-- Without saturation nothing but the rounding is lost. -/
theorem totalMillis_roundToMillis {sec nano : Int} (h : IsWord 32 (sec + carry nano)) :
    totalMillis (roundToMillis sec nano) = 1000 * sec + (nano + 500000) / 1000000 := by
  have hsec : (roundToMillis sec nano).1 = sec + carry nano := saturate_of_isWord h
  have hmillis : (roundToMillis sec nano).2 = (nano + 500000) / 1000000 % 1000 := rfl
  rw [totalMillis, hsec, hmillis, carry]
  omega

theorem isRounded_roundToMillis (sec nano : Int) :
    IsRounded sec nano (roundToMillis sec nano) where
  proper := roundToMillis_snd_bounds sec nano
  exact := totalMillis_roundToMillis
  near := by
    intro h
    rw [totalMillis_roundToMillis h, inNanos]
    omega
  most := by
    intro h
    show saturate (sec + carry nano) = _
    unfold saturate
    omega
  least := by
    intro h
    show saturate (sec + carry nano) = _
    unfold saturate
    omega

/-- A later time is not rounded to an earlier one. -/
theorem totalMillis_mono {sec nano sec' nano' : Int} (h : IsWord 32 (sec + carry nano))
    (h' : IsWord 32 (sec' + carry nano')) (hle : inNanos sec nano ≤ inNanos sec' nano') :
    totalMillis (roundToMillis sec nano) ≤ totalMillis (roundToMillis sec' nano') := by
  unfold inNanos at hle
  rw [totalMillis_roundToMillis h, totalMillis_roundToMillis h']
  omega

/-- **Rounding to milliseconds is exact**, for all seconds and nanoseconds of 32 bits: every number
on the way fits in its word, the result is the nearest millisecond unless the seconds saturate, and
a later time is not rounded to an earlier one. -/
theorem roundToMillis_exact (sec nano : Int32) :
    roundToMillis? sec.toInt nano.toInt = some (roundToMillis sec.toInt nano.toInt)
      ∧ IsRounded sec.toInt nano.toInt (roundToMillis sec.toInt nano.toInt)
      ∧ ∀ sec' nano' : Int32, IsWord 32 (sec.toInt + carry nano.toInt) →
          IsWord 32 (sec'.toInt + carry nano'.toInt) →
          inNanos sec.toInt nano.toInt ≤ inNanos sec'.toInt nano'.toInt →
          totalMillis (roundToMillis sec.toInt nano.toInt)
            ≤ totalMillis (roundToMillis sec'.toInt nano'.toInt) :=
  ⟨roundToMillis?_eq sec.toInt (isWord_toInt nano), isRounded_roundToMillis _ _,
    fun _ _ => totalMillis_mono⟩

/-- A time just before a full second, and one that saturates. -/
theorem roundToMillis_exact_atBorders :
    IsWord 32 (Int32.toInt 10 + carry (Int32.toInt (-600000)))
      ∧ totalMillis (roundToMillis 10 (-600000)) = 9999
      ∧ totalMillis (roundToMillis 10 (-600000)) ≤ totalMillis (roundToMillis 10 0)
      ∧ (roundToMillis 2147483647 2147483647).1 = 2147483647 := by
  have hword : IsWord 32 (Int32.toInt 10 + carry (Int32.toInt (-600000))) := by decide
  have hword' : IsWord 32 (Int32.toInt 10 + carry (Int32.toInt 0)) := by decide
  obtain ⟨-, hrounded, hmono⟩ := roundToMillis_exact 10 (-600000)
  obtain ⟨-, hsaturated, -⟩ := roundToMillis_exact 2147483647 2147483647
  exact ⟨hword, hrounded.exact hword, hmono 10 0 hword hword' (by decide),
    hsaturated.most (by decide)⟩

end GnssLink.Report
