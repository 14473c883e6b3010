import Mathlib.Data.List.Chain
import GnssLink.Proofs.Frame.RoundTrip
import GnssLink.Proofs.Stream.Layout
/-!
# GnssLink.Proofs.Stream.Segments

**A clean stream is cut where it was joined** (`Demux.drain_of_segments`). A clean stream consists
of whole frames of any protocol and of garbage in which no frame seems to start (`Segment`). Its
messages are the segments, whatever bytes stand inside the frames: each recogniser knows the end of
its own frames (`Segment.recognize_bytes`) and does not look further.

Two runs of garbage side by side are one run, so they are excluded.
-/

namespace GnssLink.Stream

/-- A part of a clean stream. -/
inductive Segment where
  | ubx (frame : Frame) (fits : frame.payload.length ≤ Ubx.maxPayload)
  /-- A sentence. The check digits may be of either case. -/
  | nmea (body : List UInt8) (high low : UInt8) (text : ∀ b ∈ body, Nmea.isText b = true)
      (check : Nmea.digits? high low = some (Nmea.parity body).toNat)
      (size : 11 ≤ body.length + 6 ∧ body.length + 6 ≤ 82)
  | rtcm3 (payload : List UInt8) (fits : payload.length ≤ 1023)
  /-- Bytes of which none opens a frame. -/
  | garbage (data : List UInt8)
      (silent : ∀ b ∈ data, b ≠ Frame.sync1 ∧ b ≠ Nmea.dollar ∧ b ≠ Rtcm3.sync)
      (size : 0 < data.length ∧ data.length ≤ maxGarbage)

namespace Segment

/-- What the segment is taken for. -/
def protocol : Segment → Protocol
  | ubx .. => .ubx
  | nmea .. => .nmea
  | rtcm3 .. => .rtcm3
  | garbage .. => .garbage

/-- The bytes of an RTCM3 frame before its check. -/
def correctionBody (payload : List UInt8) : List UInt8 :=
  Rtcm3.sync :: UInt8.ofNat (payload.length / 256) :: UInt8.ofNat payload.length :: payload

/-- The segment in the stream. -/
def bytes : Segment → List UInt8
  | ubx frame _ => frame.encode
  | nmea body high low .. => Nmea.dollar :: (body ++ [Nmea.star, high, low, Nmea.cr, Nmea.lf])
  | rtcm3 payload _ =>
    correctionBody payload ++ Crc24.toBytes (Crc24.ofBytes (correctionBody payload))
  | garbage data .. => data

end Segment

/-! ### Whole frames are recognised -/

/-- A frame that is not too long is found as a whole: the checksum written behind it is the one
computed. -/
theorem Ubx.recognize_encode {f : Frame} (h : f.payload.length ≤ maxPayload) :
    recognize f.encode = .frame .ubx f.encode.length := by
  have hfits : f.payload.length ≤ Frame.maxPayload :=
    Nat.le_trans h (by decide : maxPayload ≤ Frame.maxPayload)
  obtain ⟨len0, len1, hsize, hencode⟩ := Frame.exists_encode_eq hfits
  rw [Frame.length_encode, hencode]
  simp only [recognize, hsize, List.drop_left', List.take_left', Checksum.toBytes]
  rw [if_neg (by simp), if_neg (Nat.not_lt.mpr h), if_pos trivial]

/-- A frame is one piece. -/
theorem layout_encode {f : Frame} (h : f.payload.length ≤ Ubx.maxPayload) :
    layout f.encode = ([.frame .ubx f.encode], []) := by
  have hrecognize : recognize f.encode = .frame .ubx f.encode.length := Ubx.recognize_encode h
  rw [layout_of_frame hrecognize, List.take_length, List.drop_length, layout_nil]

theorem Nmea.isText_of_digit? {b : UInt8}
    (h : (Text.Hex.digit? (Char.ofNat b.toNat)).isSome = true) : isText b = true := by
  have hall : ∀ n < 256, (Text.Hex.digit? (Char.ofNat n)).isSome = true →
      isText (UInt8.ofNat n) = true := by decide +kernel
  have hb := hall b.toNat b.toNat_lt h
  rwa [UInt8.ofNat_toNat] at hb

theorem Nmea.isText_of_digits? {high low : UInt8} {n : Nat} (h : digits? high low = some n) :
    isText high = true ∧ isText low = true := by
  unfold digits? at h
  obtain ⟨x, hx, hrest⟩ := Option.bind_eq_some_iff.mp h
  obtain ⟨y, hy, -⟩ := Option.bind_eq_some_iff.mp hrest
  exact ⟨isText_of_digit? (by rw [hx]; rfl), isText_of_digit? (by rw [hy]; rfl)⟩

/-- A line ends where the carriage return is, if that comes soon enough. -/
theorem Nmea.recognizeTail_line {line : List UInt8} (htext : ∀ b ∈ line, isText b = true)
    (hmin : minLine ≤ line.length) (hmax : line.length < maxLine)
    (hsealed : isSealed line = true) :
    recognizeTail (line ++ [cr, lf]) = .frame .nmea (line.length + 3) := by
  have hline : ((line ++ [cr, lf]).take maxLine).takeWhile isText = line := by
    obtain ⟨room, hroom⟩ : ∃ room, maxLine - line.length = room + 1 :=
      Nat.exists_eq_add_one.mpr (by omega)
    rw [List.take_append, List.take_of_length_le (by omega), hroom, List.take_succ_cons,
      List.takeWhile_append_of_pos htext]
    exact List.append_nil line
  simp only [recognizeTail, hline, List.drop_left']
  rw [if_neg, if_pos ⟨trivial, hmin, hsealed⟩]
  rintro (hfull | hstop)
  · omega
  · exact hstop rfl

/-- What seals a line stands in its last three bytes. -/
theorem Nmea.isSealed_eq (body : List UInt8) (mark high low : UInt8) :
    isSealed (body ++ [mark, high, low])
      = (mark == star && digits? high low == some (parity body).toNat) := by
  have hlength : (body ++ [mark, high, low]).length - 3 = body.length := by simp
  rw [isSealed, hlength, List.drop_left', List.take_left']
  all_goals rfl

theorem Nmea.isSealed_append {body : List UInt8} {high low : UInt8}
    (h : digits? high low = some (parity body).toNat) :
    isSealed (body ++ [star, high, low]) = true := by
  rw [isSealed_eq, h]
  simp

/-- The length field of a payload that fits. -/
theorem Rtcm3.lengthField_of_le {payload : List UInt8} (h : payload.length ≤ 1023) :
    ¬4 ≤ UInt8.ofNat (payload.length / 256)
      ∧ 256 * (UInt8.ofNat (payload.length / 256)).toNat + (UInt8.ofNat payload.length).toNat
        = payload.length := by
  have hhigh : (UInt8.ofNat (payload.length / 256)).toNat = payload.length / 256 :=
    UInt8.toNat_ofNat_of_lt' (by simp only [UInt8.size]; omega)
  refine ⟨?_, ?_⟩
  · rw [UInt8.le_iff_toNat_le, hhigh]
    show ¬4 ≤ payload.length / 256
    omega
  · rw [hhigh, UInt8.toNat_ofNat']
    omega

/-- Behind a head that fits, only the check decides. -/
theorem Rtcm3.recognize_eq {payload check : List UInt8} (hfits : payload.length ≤ 1023)
    (hcheck : check.length = 3) (after : List UInt8) :
    recognize (Segment.correctionBody payload ++ check ++ after)
      = if Crc24.toBytes (Crc24.ofBytes (Segment.correctionBody payload)) = check then
          .frame .rtcm3 (payload.length + overhead)
        else .noMatch := by
  obtain ⟨hhigh, hsize⟩ := lengthField_of_le hfits
  match check, hcheck with
  | [c0, c1, c2], _ =>
    simp only [recognize, Segment.correctionBody, List.cons_append, List.append_assoc, hsize,
      List.drop_left', List.take_left', List.nil_append]
    rw [if_neg hhigh]
    rfl

theorem Rtcm3.recognize_frame {payload : List UInt8} (h : payload.length ≤ 1023) :
    recognize (Segment.correctionBody payload
        ++ Crc24.toBytes (Crc24.ofBytes (Segment.correctionBody payload)))
      = .frame .rtcm3 (payload.length + overhead) := by
  have hcheck := Crc24.length_toBytes (Crc24.ofBytes (Segment.correctionBody payload))
  simpa using recognize_eq h hcheck []

namespace Segment

/-- **A frame is recognised by itself**, with its own length. -/
theorem recognize_bytes {segment : Segment} (h : segment.protocol ≠ .garbage) :
    recognize segment.bytes = .frame segment.protocol segment.bytes.length := by
  cases segment with
  | ubx frame fits => exact Ubx.recognize_encode fits
  | nmea body high low text check size =>
    obtain ⟨hhigh, hlow⟩ := Nmea.isText_of_digits? check
    have htext : ∀ b ∈ body ++ [Nmea.star, high, low], Nmea.isText b = true := by
      intro b hb
      rcases List.mem_append.mp hb with hb | hb
      · exact text b hb
      · simp only [List.mem_cons, List.not_mem_nil, or_false] at hb
        rcases hb with rfl | rfl | rfl
        · rfl
        · exact hhigh
        · exact hlow
    have hline : body ++ [Nmea.star, high, low, Nmea.cr, Nmea.lf]
        = body ++ [Nmea.star, high, low] ++ [Nmea.cr, Nmea.lf] := by simp
    have hlength : (body ++ [Nmea.star, high, low]).length = body.length + 3 := by simp
    have hmin : Nmea.minLine ≤ (body ++ [Nmea.star, high, low]).length := by
      simp only [hlength, Nmea.minLine]
      omega
    have hmax : (body ++ [Nmea.star, high, low]).length < Nmea.maxLine := by
      simp only [hlength, Nmea.maxLine]
      omega
    have htail := Nmea.recognizeTail_line htext hmin hmax (Nmea.isSealed_append check)
    show Nmea.recognizeTail (body ++ [Nmea.star, high, low, Nmea.cr, Nmea.lf]) = _
    rw [hline, htail, hlength, bytes, List.length_cons, List.length_append]
    rfl
  | rtcm3 payload fits =>
    have hframe := Rtcm3.recognize_frame fits
    have hlength : (rtcm3 payload fits).bytes.length = payload.length + Rtcm3.overhead := by
      rw [bytes, List.length_append, Crc24.length_toBytes]
      rfl
    rw [hlength]
    exact hframe
  | garbage data silent size => exact absurd rfl h

end Segment

/-! ### Garbage ends where the next frame starts -/

/-- The bytes of some segments one after the other. -/
def joined (segments : List Segment) : List UInt8 := segments.flatMap Segment.bytes

/-- Two segments may stand side by side. -/
def Apart (first second : Segment) : Prop :=
  ¬(first.protocol = .garbage ∧ second.protocol = .garbage)

theorem cut_of_frame {l : List UInt8} {p : Protocol} {n : Nat} (h : recognize l = .frame p n) :
    cut 0 l = some (p, n) := by
  cases l with
  | nil => cases h
  | cons first rest =>
    rw [cut, if_neg (by decide), h]
    rfl

/-- A run of garbage goes on to the first frame after it, if that comes soon enough. -/
theorem cut_of_garbage {passed : Nat} {data y : List UInt8}
    (hsilent : ∀ b ∈ data, b ≠ Frame.sync1 ∧ b ≠ Nmea.dollar ∧ b ≠ Rtcm3.sync)
    (hroom : passed + data.length ≤ maxGarbage) (hsome : 0 < passed + data.length)
    (hy : y = [] ∨ ∃ p n, recognize y = .frame p n) :
    cut passed (data ++ y) = some (.garbage, passed + data.length) := by
  -- none of the bytes can open a frame, so each is passed over until the next part begins
  induction data generalizing passed with
  | nil =>
    have hgarbage : garbage? passed = some (.garbage, passed) := if_neg (Nat.ne_of_gt hsome)
    rw [List.nil_append, List.length_nil, Nat.add_zero, ← hgarbage]
    rcases hy with rfl | ⟨p, n, hframe⟩
    · rfl
    · cases y with
      | nil => rfl
      | cons first rest =>
        rw [cut, hframe]
        split
        · rfl
        · exact if_neg (Nat.ne_of_gt hsome)
  | cons b rest ih =>
    obtain ⟨⟨hubx, hnmea, hrtcm3⟩, hrest⟩ := List.forall_mem_cons.mp hsilent
    rw [List.length_cons] at hroom
    have hnothing : recognize (b :: (rest ++ y)) = .noMatch := by
      rw [recognize, if_neg hubx, if_neg hnmea, if_neg hrtcm3]
    rw [List.cons_append, cut, if_neg (by omega), hnothing]
    dsimp only
    rw [ih hrest (by omega) (by omega), List.length_cons, Nat.add_assoc, Nat.add_comm 1]

/-- What is cut off a clean stream is its first segment. -/
theorem cut_joined {segment : Segment} {rest : List Segment}
    (h : (segment :: rest).IsChain Apart) :
    cut 0 (joined (segment :: rest)) = some (segment.protocol, segment.bytes.length) := by
  rw [joined, List.flatMap_cons]
  by_cases hgarbage : segment.protocol = .garbage
  · have hnext : joined rest = [] ∨ ∃ p n, recognize (joined rest) = .frame p n := by
      cases h with
      | singleton => exact .inl rfl
      | @cons_cons _ second more hapart =>
        have hframe := Segment.recognize_bytes fun hsecond => hapart ⟨hgarbage, hsecond⟩
        exact .inr ⟨_, _, recognize_append_of_frame (joined more) hframe⟩
    cases segment with
    | garbage data silent size =>
      rw [← Nat.zero_add data.length] at size
      have hcut := cut_of_garbage silent size.2 size.1 hnext
      rwa [Nat.zero_add] at hcut
    | _ => cases hgarbage
  · exact cut_of_frame (recognize_append_of_frame _ (Segment.recognize_bytes hgarbage))

/-! ### Whole streams -/

namespace Demux

theorem next?_of_joined {d : Demux} {segment : Segment} {rest : List Segment}
    (hbuffer : d.buffer = joined (segment :: rest)) (h : (segment :: rest).IsChain Apart) :
    ∃ seq d', d.next? = some (⟨segment.protocol, segment.bytes, seq⟩, d')
      ∧ d'.buffer = joined rest := by
  have hsplit : d.buffer = segment.bytes ++ joined rest := hbuffer
  have htake : d.buffer.take segment.bytes.length = segment.bytes := by
    rw [hsplit, List.take_left' rfl]
  have hdrop : d.buffer.drop segment.bytes.length = joined rest := by
    rw [hsplit, List.drop_left' rfl]
  refine ⟨d.seq + 1, (d.emit segment.protocol segment.bytes.length).2, ?_, hdrop⟩
  rw [next?, hbuffer, cut_joined h, Option.map_some]
  dsimp only [emit]
  rw [htake]

/-- A clean stream is read out segment by segment. -/
theorem drain_of_joined {d : Demux} {segments : List Segment} (hbuffer : d.buffer = joined segments)
    (h : segments.IsChain Apart) :
    d.drain.1.map (fun m => (m.protocol, m.data)) = segments.map (fun s => (s.protocol, s.bytes))
      ∧ d.drain.2.buffer = [] := by
  induction segments generalizing d with
  | nil =>
    have hnext : d.next? = none := by
      rw [next?, hbuffer]
      rfl
    rw [drain_of_next?_eq_none hnext]
    exact ⟨rfl, hbuffer⟩
  | cons segment rest ih =>
    obtain ⟨seq, d', hnext, hrest⟩ := next?_of_joined hbuffer h
    obtain ⟨hmore, hempty⟩ := ih hrest h.tail
    rw [drain_of_next? hnext, List.map_cons, List.map_cons, hmore]
    exact ⟨rfl, hempty⟩

/-- **A clean stream is cut where it was joined**, and nothing of it is left. -/
theorem drain_of_segments (segments : List Segment) (h : segments.IsChain Apart) :
    let outcome := (({} : Demux).add (joined segments)).drain
    outcome.1.map (fun m => (m.protocol, m.data)) = segments.map (fun s => (s.protocol, s.bytes))
      ∧ outcome.2.buffer = [] :=
  drain_of_joined (List.nil_append _) h

/-- A frame with a whole frame inside, a sentence with a dollar sign inside, two stray bytes, a
correction whose payload starts like a frame, and an empty correction. -/
def mixedSegments : List Segment :=
  [.ubx ⟨.monVer, [0xb5, 0x62, 0x0a, 0x04, 0x00, 0x00, 0x0e, 0x34]⟩ (by decide),
    .nmea [0x47, 0x4e, 0x54, 0x58, 0x54, 0x2c, 0x24, 0x78] 0x32 0x31 (by decide +kernel)
      (by decide) (by decide),
    .garbage [0x0d, 0x0a] (by decide +kernel) (by decide),
    .rtcm3 [0xb5, 0x62, 0x0a] (by decide), .rtcm3 [] (by decide)]

theorem drain_of_mixedSegments :
    mixedSegments.IsChain Apart
      ∧ (({} : Demux).add (joined mixedSegments)).drain.1.map (fun m => (m.protocol, m.data))
        = mixedSegments.map (fun s => (s.protocol, s.bytes)) := by
  have hchain : mixedSegments.IsChain Apart := by
    simp [mixedSegments, Apart, Segment.protocol]
  exact ⟨hchain, (drain_of_segments mixedSegments hchain).1⟩

end Demux
end GnssLink.Stream
