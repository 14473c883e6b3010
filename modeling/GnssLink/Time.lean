/-!
# GnssLink.Time

**Time on a link.** Points in time and spans of time are counted in nanoseconds, points in time from
any fixed start.
-/

namespace GnssLink

/-- A span of milliseconds. -/
def millis (n : Nat) : Nat := n * 1000000

/-- A span of seconds. -/
def seconds (n : Nat) : Nat := n * 1000000000

/-- The whole milliseconds of a span of time. -/
def inMillis (span : Nat) : Nat := span / 1000000

/-- The whole milliseconds between two times; there are fewer than none if a clock was set back. -/
def signedMillis (span : Int) : Int := span.sign * inMillis span.natAbs

end GnssLink
