import GnssLink.Proofs.Report.WithinPayload
import GnssLink.Proofs.Stream.UbxFrames
import GnssLink.Proofs.Stream.WithinBuffer
/-!
# GnssLink.Proofs.Stream.WithinMessage

**Nothing that is received makes an access miss** (`receiving_never_misses`): neither cutting a
stream into messages, nor taking the parts of a message, nor a report on one.

A message of a stream is long enough for its protocol (`Demux.length_of_next?`), so what its
accessors look for is there.
-/

namespace GnssLink.Stream

/-! ### The parts of a message -/

namespace Message

/-- The class and number of a UBX message. -/
def readId? (m : Message) : Option (Option MessageId) :=
  if m.protocol = .ubx then do
    let cls ← m.data[2]?
    let num ← m.data[3]?
    return some ⟨cls, num⟩
  else some none

/-- The payload of a UBX message. -/
def readPayload? (m : Message) : Option (List UInt8) :=
  if m.protocol = .ubx then do slice? m.data 6 (← sub? m.data.length 2)
  else some m.data

/-- The name of an RTCM3 frame. -/
def readCorrectionName? (data : List UInt8) : Option String := do
  let high : UInt8 ← data[Rtcm3.headSize]?
  let low : UInt8 ← data[Rtcm3.headSize + 1]?
  return "RTCM3-" ++ toString ((256 * high.toNat + low.toNat) / 16)

/-- The name of the message. -/
def readName? (m : Message) : Option String :=
  match m.protocol with
  | .ubx => do return ((← m.readId?).map MessageId.name).getD "UBX-?"
  | .nmea => sentenceName? m.data
  | .rtcm3 => readCorrectionName? m.data
  | .garbage => some Protocol.garbage.name

/-- What there is to say about the message. -/
def readInfo? (m : Message) : Option (Option String) := do
  match ← m.readId? with
  | some id => Report.describe? id (← m.readPayload?)
  | none => return none

/-- The least bytes that a message of a protocol has. -/
def IsLongEnough (m : Message) : Prop :=
  match m.protocol with
  | .ubx => Frame.overhead ≤ m.data.length
  | .rtcm3 => Rtcm3.overhead ≤ m.data.length
  | .nmea | .garbage => True

/-- The address of a sentence is cut between two characters. -/
theorem isSome_sentenceName? (data : List UInt8) : (sentenceName? data).isSome := by
  obtain ⟨address, haddress⟩ : ∃ address, address =
      (data.tail.takeWhile fun b => b != 0x2c && b != 0x2a).map fun b => Char.ofNat b.toNat :=
    ⟨_, rfl⟩
  have hcut := Text.Split.at?_size (address.take 2) (address.drop 2)
  rw [List.take_append_drop] at hcut
  rw [sentenceName?, ← haddress]
  dsimp only
  split
  · rfl
  · rw [hcut]
    rfl

variable {m : Message}

theorem readId?_eq (h : m.IsLongEnough) : m.readId? = some m.id? := by
  obtain ⟨protocol, data, seq⟩ := m
  cases protocol with
  | ubx =>
    match data, h with
    | _ :: _ :: cls :: num :: _, _ => rfl
  | _ => rfl

/-- The payload is what is left between the head and the checksum, which do not overlap. -/
theorem readPayload?_eq (h : m.IsLongEnough) : m.readPayload? = some m.payload := by
  obtain ⟨protocol, data, seq⟩ := m
  cases protocol with
  | ubx =>
    have hlength : 8 ≤ data.length := h
    simp only [readPayload?, payload, if_true]
    rw [sub?_eq_some (by omega)]
    exact slice?_eq_some (by omega) (Nat.sub_le _ _)
  | _ => rfl

theorem readName?_eq (h : m.IsLongEnough) : m.readName? = some m.name := by
  have hid := readId?_eq h
  obtain ⟨protocol, data, seq⟩ := m
  cases protocol with
  | ubx =>
    simp only [readName?, hid, Option.bind_eq_bind, Option.bind_some]
    rfl
  | nmea =>
    obtain ⟨text, htext⟩ := Option.isSome_iff_exists.mp (isSome_sentenceName? data)
    simp only [readName?, name, htext, Option.getD_some]
  | rtcm3 =>
    match data, h with
    | _ :: _ :: _ :: high :: low :: _, _ => rfl
  | garbage => rfl

theorem readInfo?_eq (h : m.IsLongEnough) : m.readInfo? = some m.info := by
  rw [readInfo?, readId?_eq h, readPayload?_eq h, info]
  cases m.id? with
  | none => rfl
  | some id =>
    obtain ⟨line, hline⟩ := Option.isSome_iff_exists.mp (Report.isSome_describe? id m.payload)
    simp only [Option.bind_eq_bind, Option.bind_some, Report.describe, hline]
    rfl

end Message

/-! ### Messages of a stream -/

/-- A correction has at least its head and its check. -/
theorem Rtcm3.overhead_le_of_recognize {l : List UInt8} {p : Protocol} {n : Nat}
    (h : recognize l = .frame p n) : overhead ≤ n := by
  unfold recognize at h
  split at h
  · split at h
    · cases h
    · simp only at h
      split at h
      · split at h
        · cases h
          exact Nat.le_add_left _ _
        · cases h
      · cases h
  · cases h

theorem rtcm3_of_recognize {l : List UInt8} {n : Nat} (h : recognize l = .frame .rtcm3 n) :
    ∃ rest, l = Rtcm3.sync :: rest ∧ Rtcm3.recognize l = .frame .rtcm3 n := by
  obtain ⟨_, rest, rfl, ⟨hp, -⟩ | ⟨hp, -⟩ | ⟨-, rfl, h⟩⟩ := recognize_cases h
  · cases hp
  · cases hp
  · exact ⟨rest, rfl, h⟩

/-- A message of a stream is as long as its protocol demands. -/
theorem Demux.isLongEnough_of_next? {d d' : Demux} {m : Message} (h : d.next? = some (m, d')) :
    m.IsLongEnough := by
  cases hprotocol : m.protocol with
  | ubx =>
    obtain ⟨f, hdecode, -, -⟩ := decode_of_next? h hprotocol
    rw [Message.IsLongEnough, hprotocol]
    dsimp only
    rw [(Frame.eq_encode_of_decode hdecode).2, Frame.length_encode]
    exact Nat.le_add_left _ _
  | rtcm3 =>
    obtain ⟨hrecognize, -⟩ := recognize_of_next? h hprotocol (by decide)
    rw [Message.IsLongEnough, hprotocol]
    obtain ⟨_, -, hframe⟩ := rtcm3_of_recognize hrecognize
    exact Rtcm3.overhead_le_of_recognize hframe
  | nmea | garbage =>
    rw [Message.IsLongEnough, hprotocol]
    trivial

/-- **Nothing that is received makes an access miss.** Whatever bytes come in, in whatever parts,
every byte, part and difference that cutting them into messages looks for is there, as long as there
are fewer messages than the counters can count; so is what the accessors of a message look for. A
report finds all it looks for in any payload. -/
theorem receiving_never_misses :
    (∀ ops : List Operation, (messages (Demux.applyAll ops {}).1).length < UInt32.size →
      Demux.attemptAll? ops {} = some (Demux.applyAll ops {})
      ∧ ∀ m ∈ messages (Demux.applyAll ops {}).1,
        m.readId? = some m.id? ∧ m.readPayload? = some m.payload ∧ m.readName? = some m.name
          ∧ m.readInfo? = some m.info)
    ∧ (∀ id payload, Report.describe? id payload = some (Report.describe id payload))
    ∧ ∀ payload, Report.version? payload = some (Report.version payload) := by
  refine ⟨?_, ?_, ?_⟩
  · intro ops hfew
    refine ⟨Demux.attemptAll?_eq Demux.booked_new ops hfew, ?_⟩
    intro m hm
    have hlong : m.IsLongEnough := by
      obtain ⟨d, d', hnext | hflush⟩ := Demux.exists_of_mem_messages hm
      · exact Demux.isLongEnough_of_next? hnext
      · rw [Message.IsLongEnough, Demux.protocol_of_flush hflush]
        trivial
    exact ⟨m.readId?_eq hlong, m.readPayload?_eq hlong, m.readName?_eq hlong, m.readInfo?_eq hlong⟩
  · intro id payload
    obtain ⟨line, hline⟩ := Option.isSome_iff_exists.mp (Report.isSome_describe? id payload)
    rw [Report.describe, hline]
    rfl
  · intro payload
    obtain ⟨line, hline⟩ := Option.isSome_iff_exists.mp (Report.isSome_version? payload)
    rw [Report.version, hline]
    rfl

/-- The use of a stream in which a sentence ends too early, a correction comes in two parts, and the
start of a frame is given up. -/
def brokenUse : List Operation :=
  [.add [0x24, 0x0d, 0x0a, 0xd3, 0x00], .next, .add [0x00, 0x47, 0xea, 0x4b, 0xb5, 0x62], .next,
    .next, .flush]

theorem receiving_brokenUse :
    (messages (Demux.applyAll brokenUse {}).1).length < UInt32.size
      ∧ Demux.attemptAll? brokenUse {} = some (Demux.applyAll brokenUse {}) := by
  have hfew : (messages (Demux.applyAll brokenUse {}).1).length < UInt32.size := by decide +kernel
  exact ⟨hfew, (receiving_never_misses.1 brokenUse hfew).1⟩

end GnssLink.Stream
