import GnssLink.Text.Pad
/-!
# GnssLink.Report.Time

**Rounding a time of day to milliseconds.** A receiver gives whole seconds and a signed number of
nanoseconds, which it may round past either end of the second; what is carried is added to the
seconds.
-/

namespace GnssLink.Report

/-- The nearest signed 32-bit number. -/
def saturate (n : Int) : Int := max (-0x80000000) (min n 0x7fffffff)

/-- Seconds and milliseconds nearest to `sec` seconds and `nano` nanoseconds. The milliseconds are
below a thousand, the seconds stop at the ends of the 32-bit range. -/
def roundToMillis (sec nano : Int) : Int × Int :=
  let millis := (nano + 500000) / 1000000
  (saturate (sec + millis / 1000), millis % 1000)

/-- The milliseconds are a proper fraction of a second. -/
theorem roundToMillis_snd_bounds (sec nano : Int) :
    0 ≤ (roundToMillis sec nano).2 ∧ (roundToMillis sec nano).2 < 1000 := by
  unfold roundToMillis
  simp only
  omega

end GnssLink.Report
