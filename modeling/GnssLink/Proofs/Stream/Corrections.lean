import GnssLink.Proofs.Stream.Segments
/-!
# GnssLink.Proofs.Stream.Corrections

**A correction is recognised exactly where it stands.** `Rtcm3.encode` writes the frame of a
payload, and a buffer that opens with the sync byte is taken for a frame exactly if it starts with
such a frame (`Rtcm3.recognize_eq_frame_iff`). So whatever is to be said about recognised
corrections can be said about payloads.
-/

namespace GnssLink.Stream.Rtcm3

/-- The frame of a payload. -/
def encode (payload : List UInt8) : List UInt8 :=
  Segment.correctionBody payload ++ Crc24.toBytes (Crc24.ofBytes (Segment.correctionBody payload))

@[simp] theorem length_correctionBody (payload : List UInt8) :
    (Segment.correctionBody payload).length = payload.length + headSize := rfl

@[simp] theorem length_encode (payload : List UInt8) :
    (encode payload).length = payload.length + overhead := by
  simp [encode, headSize, overhead]

/-- The length field holds the length again. -/
theorem lengthField_eq {high low : UInt8} {size : Nat} (h : size = 256 * high.toNat + low.toNat) :
    UInt8.ofNat (size / 256) = high ∧ UInt8.ofNat size = low := by
  have hhigh := high.toNat_lt
  have hlow := low.toNat_lt
  refine ⟨?_, ?_⟩
  all_goals
    apply UInt8.toNat_inj.mp
    rw [UInt8.toNat_ofNat']
    omega

/-- A frame is recognised, whatever follows it. -/
theorem recognize_encode {payload : List UInt8} (hfits : payload.length ≤ 1023)
    (after : List UInt8) :
    recognize (encode payload ++ after) = .frame .rtcm3 (payload.length + overhead) := by
  rw [encode, recognize_eq hfits (Crc24.length_toBytes _), if_pos rfl]

/-- What is recognised is a frame. -/
theorem exists_encode_of_recognize {rest : List UInt8} {p : Protocol} {n : Nat}
    (h : recognize (sync :: rest) = .frame p n) :
    ∃ payload, payload.length ≤ 1023 ∧ n = payload.length + overhead
      ∧ encode payload <+: sync :: rest := by
  match rest, h with
  | high :: low :: rest, h =>
    simp only [recognize] at h
    split at h
    · cases h
    · next hhigh =>
      split at h
      · next c0 c1 c2 after hdrop =>
        split at h
        · next hcheck =>
          cases h
          obtain ⟨size, hsize⟩ : ∃ size, size = 256 * high.toNat + low.toNat := ⟨_, rfl⟩
          rw [← hsize] at hdrop hcheck ⊢
          have hbound : high.toNat < 4 := by simpa [UInt8.le_iff_toNat_le] using hhigh
          have hlow := low.toNat_lt
          have hle := le_length_of_drop_eq_cons hdrop
          have hlength : (rest.take size).length = size := List.length_take_of_le (by omega)
          have hbody : Segment.correctionBody (rest.take size)
              = sync :: high :: low :: rest.take size := by
            rw [Segment.correctionBody, hlength, (lengthField_eq hsize).1, (lengthField_eq hsize).2]
          refine ⟨rest.take size, by omega, by rw [hlength], after, ?_⟩
          calc encode (rest.take size) ++ after
            _ = sync :: high :: low :: (rest.take size ++ c0 :: c1 :: c2 :: after) := by
              simp [encode, hbody, hcheck]
            _ = sync :: high :: low :: rest := by rw [← hdrop, List.take_append_drop]
        · cases h
      · cases h

/-- **A correction is recognised exactly where it stands.** -/
theorem recognize_eq_frame_iff (rest : List UInt8) (n : Nat) :
    recognize (sync :: rest) = .frame .rtcm3 n ↔
      ∃ payload, payload.length ≤ 1023 ∧ n = payload.length + overhead
        ∧ encode payload <+: sync :: rest := by
  constructor
  · intro h
    exact exists_encode_of_recognize h
  · intro h
    obtain ⟨payload, hfits, rfl, after, hafter⟩ := h
    rw [← hafter]
    exact recognize_encode hfits after

end GnssLink.Stream.Rtcm3
