import GnssLink.Proofs.Stream.Sentences
import GnssLink.Proofs.Stream.WithinMessage
/-!
# GnssLink.Proofs.Stream.SizeLimits

**Messages keep to the sizes of their protocols, except for sentences that are one byte too long**
(`limits_of_messages`).

The recogniser of sentences limits the line, and a line that is one byte short of its limit still
has room for two bytes behind it. So a sentence of 83 bytes is taken, though 82 is the most
(`exists_message_beyond_limits`). All other frames are as long as their length fields allow, and a
run of garbage is neither empty nor longer than it may grow.
-/

namespace GnssLink.Stream

/-- The least and the most bytes that a message may have. A sentence counts from the dollar sign to
the line feed. -/
def Protocol.limits : Protocol → Nat × Nat
  | ubx => (8, 4104)
  | nmea => (11, 82)
  | rtcm3 => (6, 1029)
  | garbage => (1, 1024)

/-- The message has a size that its protocol allows. -/
def Message.KeepsLimits (m : Message) : Prop :=
  m.protocol.limits.1 ≤ m.data.length ∧ m.data.length ≤ m.protocol.limits.2

/-! ### Sentences -/

theorem nmea_of_recognize {l : List UInt8} {n : Nat} (h : recognize l = .frame .nmea n) :
    ∃ tail, l = Nmea.dollar :: tail ∧ Nmea.recognize l = .frame .nmea n := by
  obtain ⟨_, tail, rfl, ⟨hp, -⟩ | ⟨-, rfl, h⟩ | ⟨hp, -⟩⟩ := recognize_cases h
  · cases hp
  · exact ⟨tail, rfl, h⟩
  · cases hp

/-- A sentence opens with a dollar sign, so no other recogniser gets to see it. -/
theorem recognize_of_isSentence {s : List UInt8} (h : Nmea.IsSentence s) :
    recognize s = Nmea.recognize s := by
  cases h
  rfl

namespace Demux

variable {d d' : Demux} {m : Message}

theorem isSentence_of_next? (h : d.next? = some (m, d')) (hnmea : m.protocol = .nmea) :
    Nmea.IsSentence m.data ∧ 11 ≤ m.data.length ∧ m.data.length ≤ 83 := by
  obtain ⟨hrecognize, hdata⟩ := recognize_of_next? h hnmea (by decide)
  obtain ⟨tail, hbuffer, hframe⟩ := nmea_of_recognize hrecognize
  have hmost := Nmea.le_of_recognize hframe
  rw [hbuffer] at hframe hdata
  obtain ⟨hleast, -, hsentence⟩ := Nmea.isSentence_of_recognize hframe
  rw [hdata] at hsentence
  exact ⟨hsentence, hleast, hmost⟩

/-- Every message that is cut off keeps the limits, but for the sentence of 83 bytes. -/
theorem keepsLimits_iff_of_next? (h : d.next? = some (m, d')) :
    m.KeepsLimits ↔ ¬(m.protocol = .nmea ∧ m.data.length = 83) := by
  have hshort := (cutsOff_next? h).short
  have hsome := List.length_pos_iff.mpr (cutsOff_next? h).nonempty
  have hlong := isLongEnough_of_next? h
  have hsentence := isSentence_of_next? h
  unfold Message.IsLongEnough at hlong
  unfold Message.KeepsLimits
  cases hprotocol : m.protocol with
  | ubx =>
    simp only [hprotocol, Protocol.maxSize, Ubx.maxPayload, Frame.overhead] at hshort hlong
    simp [Protocol.limits]
    omega
  | nmea =>
    obtain ⟨-, hleast, hmost⟩ := hsentence hprotocol
    simp [Protocol.limits]
    omega
  | rtcm3 =>
    simp only [hprotocol, Protocol.maxSize, Rtcm3.overhead] at hshort hlong
    simp [Protocol.limits]
    omega
  | garbage =>
    simp only [hprotocol, Protocol.maxSize, maxGarbage] at hshort
    simp [Protocol.limits]
    omega

theorem keepsLimits_of_flush (h : d.flush = some (m, d')) : m.KeepsLimits := by
  have hprotocol := protocol_of_flush h
  have hshort := (cutsOff_flush h).short
  have hsome := List.length_pos_iff.mpr (cutsOff_flush h).nonempty
  simp only [hprotocol, Protocol.maxSize, maxGarbage] at hshort
  simp [Message.KeepsLimits, hprotocol, Protocol.limits]
  omega

/-- A sentence of 83 bytes is taken for one message. -/
theorem applyAll_of_isSentence {s : List UInt8} (h : Nmea.IsSentence s) (hlength : s.length = 83) :
    (applyAll [.add s, .next] {}).1 = [.message ⟨.nmea, s, 1⟩] := by
  have hsentence := Nmea.recognize_of_isSentence h (by omega) (by omega) []
  rw [List.append_nil, ← recognize_of_isSentence h] at hsentence
  exact applyAll_of_recognize hsentence

end Demux

/-- **Messages keep to the sizes of their protocols, except for sentences that are one byte too
long**: whatever is done with a new stream, a message has a size that its protocol allows unless it
is a sentence of 83 bytes. By `Demux.applyAll_of_isSentence`, every such sentence is taken. -/
theorem limits_of_messages (ops : List Operation) {m : Message}
    (hm : m ∈ messages (Demux.applyAll ops {}).1) :
    (m.KeepsLimits ↔ ¬(m.protocol = .nmea ∧ m.data.length = 83))
      ∧ (m.protocol = .nmea → Nmea.IsSentence m.data) := by
  obtain ⟨d, d', hnext | hflush⟩ := Demux.exists_of_mem_messages hm
  · refine ⟨Demux.keepsLimits_iff_of_next? hnext, ?_⟩
    intro hnmea
    exact (Demux.isSentence_of_next? hnext hnmea).1
  · have hgarbage := Demux.protocol_of_flush hflush
    simp [Demux.keepsLimits_of_flush hflush, hgarbage]

/-- A sentence of 83 bytes. -/
def longSentence : List UInt8 :=
  Nmea.dollar :: ([0x47, 0x4e, 0x54, 0x58, 0x54, 0x2c] ++ List.replicate 71 0x41
    ++ [Nmea.star, 0x33, 0x43, Nmea.cr, Nmea.lf])

theorem isSentence_longSentence : Nmea.IsSentence longSentence :=
  .intro (by decide +kernel) (.decimal (k := 3) (by decide)) (.upper (k := 2) (by decide))
    (by decide +kernel)

theorem mem_messages_longSentence :
    (⟨.nmea, longSentence, 1⟩ : Message)
      ∈ messages (Demux.applyAll [.add longSentence, .next] {}).1 := by
  rw [Demux.applyAll_of_isSentence isSentence_longSentence (by decide)]
  exact List.mem_singleton_self _

theorem limits_of_messages_longSentence :
    (⟨.nmea, longSentence, 1⟩ : Message)
        ∈ messages (Demux.applyAll [.add longSentence, .next] {}).1
      ∧ longSentence.length = 83
      ∧ ¬(⟨.nmea, longSentence, 1⟩ : Message).KeepsLimits := by
  have hlength : longSentence.length = 83 := by decide
  refine ⟨mem_messages_longSentence, hlength, ?_⟩
  rw [(limits_of_messages _ mem_messages_longSentence).1]
  simp [hlength]

/-- There is a message that has more bytes than its protocol allows. -/
theorem exists_message_beyond_limits :
    ∃ ops, ∃ m ∈ messages (Demux.applyAll ops {}).1, ¬m.KeepsLimits := by
  have hlength : longSentence.length = 83 := by decide
  refine ⟨[.add longSentence, .next], ⟨.nmea, longSentence, 1⟩, mem_messages_longSentence, ?_⟩
  simp [Message.KeepsLimits, Protocol.limits, hlength]

end GnssLink.Stream
