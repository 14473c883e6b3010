import GnssLink.Proofs.Stream.Bookkeeping
import GnssLink.Proofs.Stream.Segments
/-!
# GnssLink.Proofs.Stream.UbxFrames

**A stream and the frame reader agree on UBX** (`ubx_agreement`). The layout of a frame is read in
three places: by the recogniser, which sees a frame while it comes in, by `Frame.decode`, which is
given the whole of it, and by the accessors of a message, which take the frame for granted.

* What the recogniser takes for a frame decodes, and what decodes is recognised if its payload is
  not too long for a stream (`Ubx.recognize_eq_frame_iff`).
* No frame is the start of another (`Frame.eq_of_isPrefix`), so a buffer starts with one frame only.
* A message of a stream holds what was recognised (`Demux.recognize_of_next?`).
-/

namespace GnssLink

/-- **No frame is the start of another**: two frames with which the same bytes start are the same,
because both lengths stand in the same place. -/
theorem Frame.eq_of_isPrefix {f g : Frame} {bytes : List UInt8}
    (hf : f.payload.length ≤ maxPayload) (hg : g.payload.length ≤ maxPayload)
    (hfb : f.encode <+: bytes) (hgb : g.encode <+: bytes) : f = g := by
  have hlength : f.payload.length = g.payload.length := by
    obtain ⟨a0, a1, hfsize, hfencode⟩ := exists_encode_eq hf
    obtain ⟨b0, b1, hgsize, hgencode⟩ := exists_encode_eq hg
    obtain ⟨x, hx⟩ := hfb
    obtain ⟨y, hy⟩ := hgb
    rw [← hy, hfencode, hgencode] at hx
    simp only [List.cons_append, List.cons.injEq] at hx
    obtain ⟨-, -, -, -, rfl, rfl, -⟩ := hx
    rw [← hfsize, ← hgsize]
  have hsame : f.encode = g.encode := by
    apply (List.prefix_of_prefix_length_le hfb hgb _).eq_of_length
    · simp only [length_encode, hlength]
    · simp only [length_encode, hlength, Nat.le_refl]
  have hdecode := decode_encode hf
  rw [hsame, decode_encode hg] at hdecode
  exact (Except.ok.inj hdecode).symm

namespace Stream

/-! ### The recogniser and the reader -/

/-- What is recognised can be read. -/
theorem Ubx.exists_decode_of_recognize {rest : List UInt8} {p : Protocol} {n : Nat}
    (h : recognize (Frame.sync1 :: rest) = .frame p n) :
    ∃ f, Frame.decode ((Frame.sync1 :: rest).take n) = .ok f := by
  unfold recognize at h
  split at h
  · next first second tail heq =>
    obtain ⟨rfl, rfl⟩ := List.cons.inj heq
    split at h
    · cases h
    · next hsync =>
      split at h
      · next cls num len0 len1 rest =>
        simp only at h
        split at h
        · cases h
        · split at h
          · next a b after hdrop =>
            split at h
            · next hsum =>
              cases h
              obtain ⟨size, hsize⟩ : ∃ size, size = LittleEndian.decode [len0, len1] := ⟨_, rfl⟩
              rw [← hsize] at hdrop hsum ⊢
              have hle := le_length_of_drop_eq_cons hdrop
              have htake : (rest.take (size + 2)).take size = rest.take size := by
                rw [List.take_take, Nat.min_eq_left (Nat.le_add_right size 2)]
              have hcheck : (rest.take (size + 2)).drop size = [a, b] := by
                rw [List.drop_take, hdrop, Nat.add_sub_cancel_left]
                rfl
              have hlength : (rest.take (size + 2)).length = size + 2 := by
                rw [List.length_take]
                simp only [List.length_cons] at hle
                omega
              have hcut : (Frame.sync1 :: second :: cls :: num :: len0 :: len1 :: rest).take
                  (size + Frame.overhead)
                  = Frame.sync1 :: second :: cls :: num :: len0 :: len1 :: rest.take (size + 2) :=
                rfl
              refine ⟨⟨⟨cls, num⟩, rest.take size⟩, ?_⟩
              rw [hcut]
              simp only [Frame.decode, ← hsize, htake, hcheck, hlength, hsum]
              rw [if_neg (by omega), if_neg (by simpa using hsync), if_neg (by simp),
                if_neg (by simp [Checksum.toBytes])]
            · cases h
          · cases h
      · cases h
  · cases h

/-- **A frame is recognised where it can be read**, if its payload is not too long for a stream. -/
theorem Ubx.recognize_eq_frame_iff (rest : List UInt8) (n : Nat) :
    recognize (Frame.sync1 :: rest) = .frame .ubx n ↔
      n ≤ (Frame.sync1 :: rest).length ∧ n - Frame.overhead ≤ maxPayload
        ∧ ∃ f, Frame.decode ((Frame.sync1 :: rest).take n) = .ok f := by
  constructor
  · intro h
    exact ⟨(of_recognize_frame h).2, Nat.sub_le_of_le_add (le_of_recognize h),
      exists_decode_of_recognize h⟩
  · rintro ⟨hle, hshort, f, hdecode⟩
    have hencode := (Frame.eq_encode_of_decode hdecode).2
    have hlength : n = f.payload.length + Frame.overhead := by
      rw [← Frame.length_encode, ← hencode, List.length_take, Nat.min_eq_left hle]
    have hfits : f.payload.length ≤ maxPayload := by omega
    -- the frame is recognised by itself, and what follows it in the buffer does not change that
    have hframe := recognize_encode hfits
    rw [← List.take_append_drop n (Frame.sync1 :: rest), hencode,
      recognize_append _ (by rw [hframe]; exact Verdict.noConfusion), hframe, Frame.length_encode,
      hlength]

/-- Nothing but the frame that is recognised can be read from the start of a buffer. -/
theorem Ubx.length_of_decode_isPrefix {rest x : List UInt8} {n : Nat} {f : Frame}
    (h : recognize (Frame.sync1 :: rest) = .frame .ubx n) (hx : x <+: Frame.sync1 :: rest)
    (hdecode : Frame.decode x = .ok f) : x.length = n := by
  obtain ⟨g, hg⟩ := exists_decode_of_recognize h
  obtain ⟨hfits, rfl⟩ := Frame.eq_encode_of_decode hdecode
  obtain ⟨hgfits, hgencode⟩ := Frame.eq_encode_of_decode hg
  have hgprefix : g.encode <+: Frame.sync1 :: rest := hgencode ▸ List.take_prefix n _
  rw [Frame.eq_of_isPrefix hfits hgfits hx hgprefix, ← hgencode, List.length_take,
    Nat.min_eq_left (of_recognize_frame h).2]

/-! ### Messages of a stream -/

/-- A message with the bytes of a frame is that frame. -/
theorem Message.eq_of_data {m : Message} {f : Frame} (hprotocol : m.protocol = .ubx)
    (hdata : m.data = f.encode) : m.id? = some f.id ∧ m.payload = f.payload := by
  have hsplit : f.encode
      = (Frame.sync1 :: Frame.sync2 :: (f.id.toBytes ++ LittleEndian.encode 2 f.payload.length))
        ++ f.payload ++ (Checksum.ofBytes f.body).toBytes := by
    simp [Frame.encode, Frame.body]
  have hlength : f.encode.length - 2 = 6 + f.payload.length := by
    rw [Frame.length_encode, Frame.overhead]
    omega
  constructor
  · rw [id?, hprotocol, hdata]
    rfl
  · rw [payload, hprotocol, hdata]
    show (f.encode.take (f.encode.length - 2)).drop 6 = f.payload
    rw [hlength, hsplit, List.take_left', List.drop_left']
    · simp [MessageId.toBytes]
    · simp only [MessageId.toBytes, List.length_cons, List.length_append, List.length_nil,
        LittleEndian.length_encode]

/-- What is cut off and is no garbage stands at the start of the buffer. -/
theorem recognize_of_cut {passed n : Nat} {l : List UInt8} {p : Protocol}
    (h : cut passed l = some (p, n)) (hp : p ≠ .garbage) : recognize l = .frame p n := by
  cases l with
  | nil => exact absurd (Demux.garbage?_eq_some h).1 hp
  | cons first rest =>
    unfold cut at h
    split at h
    · exact absurd (Demux.garbage?_eq_some h).1 hp
    · split at h
      · next hr =>
        split at h
        · cases h
          exact hr
        · exact absurd (Demux.garbage?_eq_some h).1 hp
      · exact absurd (Demux.garbage?_eq_some h).1 hp
      · -- a byte was passed, so whatever is cut off from here on is garbage
        exact absurd (layout_of_cut_passed [] (Nat.succ_pos passed) h).1 hp

/-- A message that is no garbage is what was recognised. -/
theorem Demux.recognize_of_next? {d d' : Demux} {m : Message} {p : Protocol}
    (h : d.next? = some (m, d')) (hm : m.protocol = p) (hp : p ≠ .garbage) :
    recognize d.buffer = .frame p m.data.length ∧ d.buffer.take m.data.length = m.data := by
  subst hm
  obtain ⟨⟨p, n⟩, hcut, hemit⟩ := Option.map_eq_some_iff.mp h
  cases hemit
  have hrecognize := recognize_of_cut hcut hp
  have hlength : (d.buffer.take n).length = n := by
    rw [List.length_take, Nat.min_eq_left (of_recognize_frame hrecognize).2]
  dsimp only [emit]
  rw [hlength]
  exact ⟨hrecognize, rfl⟩

/-- Bytes that are one frame give one message. -/
theorem Demux.applyAll_of_recognize {bytes : List UInt8} {p : Protocol}
    (h : recognize bytes = .frame p bytes.length) :
    (applyAll [.add bytes, .next] {}).1 = [.message ⟨p, bytes, 1⟩] := by
  have hnext : (({} : Demux).add bytes).next?
      = some (⟨p, bytes, 1⟩, ((({} : Demux).add bytes).emit p bytes.length).2) := by
    simp [next?, add, emit, cut_of_frame h]
  simp only [applyAll, apply, hnext]
  rfl

/-- Only the recogniser of UBX finds UBX frames. -/
theorem ubx_of_recognize {l : List UInt8} {n : Nat} (h : recognize l = .frame .ubx n) :
    ∃ rest, l = Frame.sync1 :: rest ∧ Ubx.recognize l = .frame .ubx n := by
  obtain ⟨_, rest, rfl, ⟨-, rfl, h⟩ | ⟨hp, -⟩ | ⟨hp, -⟩⟩ := recognize_cases h
  · exact ⟨rest, rfl, h⟩
  · cases hp
  · cases hp

/-- A UBX message of a stream is a frame, and its accessors give the parts of that frame. -/
theorem Demux.decode_of_next? {d d' : Demux} {m : Message} (h : d.next? = some (m, d'))
    (hubx : m.protocol = .ubx) :
    ∃ f, Frame.decode m.data = .ok f ∧ m.id? = some f.id ∧ m.payload = f.payload := by
  obtain ⟨hrecognize, hdata⟩ := recognize_of_next? h hubx (by decide)
  obtain ⟨rest, hbuffer, hframe⟩ := ubx_of_recognize hrecognize
  rw [hbuffer] at hframe hdata
  obtain ⟨f, hdecode⟩ := Ubx.exists_decode_of_recognize hframe
  rw [hdata] at hdecode
  obtain ⟨hid, hpayload⟩ := Message.eq_of_data hubx (Frame.eq_encode_of_decode hdecode).2
  exact ⟨f, hdecode, hid, hpayload⟩

/-- **A stream and the frame reader agree on UBX.** A buffer that opens with the first sync byte
starts with a frame of `n` bytes exactly if these bytes are there and decode and the payload is not
too long for a stream; then no other start of the buffer decodes. Every UBX message of a stream
decodes, to the id and the payload that the message itself gives. -/
theorem ubx_agreement :
    (∀ (rest : List UInt8) (n : Nat),
      (Ubx.recognize (Frame.sync1 :: rest) = .frame .ubx n ↔
        n ≤ (Frame.sync1 :: rest).length ∧ n - 8 ≤ 4096
          ∧ ∃ f, Frame.decode ((Frame.sync1 :: rest).take n) = .ok f)
      ∧ (Ubx.recognize (Frame.sync1 :: rest) = .frame .ubx n →
        ∀ x f, x <+: Frame.sync1 :: rest → Frame.decode x = .ok f → x.length = n))
    ∧ ∀ (ops : List Operation), ∀ m ∈ messages (Demux.applyAll ops {}).1, m.protocol = .ubx →
      ∃ f, Frame.decode m.data = .ok f ∧ m.id? = some f.id ∧ m.payload = f.payload := by
  refine ⟨?_, ?_⟩
  · intro rest n
    refine ⟨Ubx.recognize_eq_frame_iff rest n, ?_⟩
    intro h x f hx hdecode
    exact Ubx.length_of_decode_isPrefix h hx hdecode
  · intro ops m hm hubx
    obtain ⟨d, d', hnext | hflush⟩ := Demux.exists_of_mem_messages hm
    · exact Demux.decode_of_next? hnext hubx
    · cases (Demux.protocol_of_flush hflush).symm.trans hubx

/-- An empty frame, and two bytes after it. -/
def frameAndMore : List UInt8 := [0x62, 0x0a, 0x04, 0x00, 0x00, 0x0e, 0x34, 0xb5, 0x62]

theorem ubx_agreement_frameAndMore :
    Ubx.recognize (Frame.sync1 :: frameAndMore) = .frame .ubx 8
      ∧ (∀ x f, x <+: Frame.sync1 :: frameAndMore → Frame.decode x = .ok f → x.length = 8)
      ∧ (⟨.ubx, Frame.sync1 :: frameAndMore.take 7, 1⟩ : Message)
        ∈ messages (Demux.applyAll [.add (Frame.sync1 :: frameAndMore), .next] {}).1
      ∧ ∃ f, Frame.decode (Frame.sync1 :: frameAndMore.take 7) = .ok f
        ∧ Message.id? ⟨.ubx, Frame.sync1 :: frameAndMore.take 7, 1⟩ = some f.id
        ∧ Message.payload ⟨.ubx, Frame.sync1 :: frameAndMore.take 7, 1⟩ = f.payload := by
  have hframe : Ubx.recognize (Frame.sync1 :: frameAndMore) = .frame .ubx 8 := by decide
  have hmem : (⟨.ubx, Frame.sync1 :: frameAndMore.take 7, 1⟩ : Message)
      ∈ messages (Demux.applyAll [.add (Frame.sync1 :: frameAndMore), .next] {}).1 := by decide
  exact ⟨hframe, (ubx_agreement.1 frameAndMore 8).2 hframe, hmem, ubx_agreement.2 _ _ hmem rfl⟩

end Stream
end GnssLink
