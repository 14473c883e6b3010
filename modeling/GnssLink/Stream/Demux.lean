import GnssLink.Stream.Message
import GnssLink.Stream.Nmea
import GnssLink.Stream.Tally
import GnssLink.Stream.Ubx
/-!
# GnssLink.Stream.Demux

**Cutting a byte stream into messages.** Bytes go in with `Demux.add`, messages come out with
`Demux.next?`. Whatever stands between frames is a message too (garbage), so no byte is lost.

Design points:

* A verdict is made at each position in turn (`recognize`). Positions where no frame starts are
  garbage up to the first frame, the first possible frame or `maxGarbage` bytes (`cut`).
* Where a frame may still become complete the stream waits; only `flush` gives such bytes up.
* `clear` forgets the bytes that wait, but neither the numbering nor the tally.
-/

namespace GnssLink.Stream

/-- What stands at the start of a buffer. -/
def recognize : List UInt8 → Verdict
  | [] => .noMatch
  | first :: rest =>
    if first = Frame.sync1 then Ubx.recognize (first :: rest)
    else if first = Nmea.dollar then Nmea.recognize (first :: rest)
    else if first = Rtcm3.sync then Rtcm3.recognize (first :: rest)
    else .noMatch

/-- The longest run of garbage in one message. -/
def maxGarbage : Nat := 1024

/-- A garbage message of the given length, if that is not zero. -/
def garbage? (length : Nat) : Option (Protocol × Nat) :=
  if length = 0 then none else some (.garbage, length)

/-- The protocol and length of the next message, where no frame starts in the `passed` bytes before
the ones given. -/
def cut (passed : Nat) : List UInt8 → Option (Protocol × Nat)
  | [] => garbage? passed
  | first :: rest =>
    if maxGarbage ≤ passed then garbage? passed
    else
      match recognize (first :: rest) with
      | .frame protocol length => if passed = 0 then some (protocol, length) else garbage? passed
      | .needMore => garbage? passed
      | .noMatch => cut (passed + 1) rest

/-- A stream that is being cut. -/
structure Demux where
  /-- The bytes that belong to no message yet. -/
  buffer : List UInt8 := []
  /-- The number of the last message. -/
  seq : UInt32 := 0
  /-- The messages so far. -/
  tally : Tally := {}
  deriving DecidableEq, Repr

namespace Demux

/-- Takes in bytes. -/
def add (d : Demux) (data : List UInt8) : Demux := { d with buffer := d.buffer ++ data }

/-- Forgets the bytes that wait. -/
def clear (d : Demux) : Demux := { d with buffer := [] }

/-- Cuts off a message. -/
def emit (d : Demux) (protocol : Protocol) (length : Nat) : Message × Demux :=
  ({ protocol, data := d.buffer.take length, seq := d.seq + 1 },
    { buffer := d.buffer.drop length
      seq := d.seq + 1
      tally := d.tally.add protocol (d.buffer.take length).length })

/-- The next message, if one is complete. -/
def next? (d : Demux) : Option (Message × Demux) :=
  (cut 0 d.buffer).map fun (protocol, length) => d.emit protocol length

/-- Gives up waiting: what is buffered is garbage, up to the longest run. -/
def flush (d : Demux) : Option (Message × Demux) :=
  (garbage? (min d.buffer.length maxGarbage)).map fun (protocol, length) =>
    d.emit protocol length

/-! ### Progress -/

theorem garbage?_eq_some {passed length : Nat} {p : Protocol}
    (h : garbage? passed = some (p, length)) : p = .garbage ∧ length = passed ∧ 0 < length := by
  unfold garbage? at h
  split at h
  · cases h
  · cases h
    exact ⟨rfl, rfl, by omega⟩

theorem pos_of_recognize_ubx {l : List UInt8} {p : Protocol} {n : Nat}
    (h : Ubx.recognize l = .frame p n) : 0 < n := by
  unfold Ubx.recognize at h
  simp only [Frame.overhead] at h
  repeat' split at h
  all_goals first | (cases h; omega) | cases h

theorem pos_of_recognize_nmea {l : List UInt8} {p : Protocol} {n : Nat}
    (h : Nmea.recognize l = .frame p n) : 0 < n := by
  unfold Nmea.recognize Nmea.recognizeTail at h
  simp only at h
  repeat' split at h
  all_goals first | (cases h; omega) | cases h

theorem pos_of_recognize_rtcm3 {l : List UInt8} {p : Protocol} {n : Nat}
    (h : Rtcm3.recognize l = .frame p n) : 0 < n := by
  unfold Rtcm3.recognize at h
  simp only [Rtcm3.overhead] at h
  repeat' split at h
  all_goals first | (cases h; omega) | cases h

/-- A frame is never empty. -/
theorem pos_of_recognize {l : List UInt8} {p : Protocol} {n : Nat}
    (h : recognize l = .frame p n) : 0 < n := by
  unfold recognize at h
  repeat' split at h
  · cases h
  · exact pos_of_recognize_ubx h
  · exact pos_of_recognize_nmea h
  · exact pos_of_recognize_rtcm3 h
  · cases h

/-- A message is never empty. -/
theorem pos_of_cut {passed : Nat} {l : List UInt8} {p : Protocol} {n : Nat}
    (h : cut passed l = some (p, n)) : 0 < n := by
  induction l generalizing passed with
  | nil => exact (garbage?_eq_some h).2.2
  | cons b rest ih =>
    unfold cut at h
    split at h
    · exact (garbage?_eq_some h).2.2
    · split at h
      · next hr =>
        split at h
        · cases h
          exact pos_of_recognize hr
        · exact (garbage?_eq_some h).2.2
      · exact (garbage?_eq_some h).2.2
      · exact ih h

theorem buffer_ne_nil_of_next? {d d' : Demux} {m : Message} (h : d.next? = some (m, d')) :
    d.buffer ≠ [] := by
  intro hb
  simp [next?, hb, cut, garbage?] at h

/-- Every message takes bytes from the buffer. -/
theorem length_lt_of_next? {d d' : Demux} {m : Message} (h : d.next? = some (m, d')) :
    d'.buffer.length < d.buffer.length := by
  have hne := List.length_pos_iff.mpr (buffer_ne_nil_of_next? h)
  obtain ⟨⟨p, n⟩, hc, he⟩ := Option.map_eq_some_iff.mp h
  have hpos := pos_of_cut hc
  cases he
  simp only [List.length_drop]
  omega

/-- All complete messages, and the stream without them. -/
def drain (d : Demux) : List Message × Demux :=
  match h : d.next? with
  | none => ([], d)
  | some (m, rest) =>
    have : rest.buffer.length < d.buffer.length := length_lt_of_next? h
    (m :: (drain rest).1, (drain rest).2)
termination_by d.buffer.length

end Demux
end GnssLink.Stream
