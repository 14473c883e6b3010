import Mathlib.Tactic.SplitIfs
import GnssLink.Frame.Basic
/-!
# GnssLink.Proofs.Frame.RoundTrip

**A frame is read back** whenever its length field can hold the length of its payload
(`decode_encode`), and nothing else is read: a byte string that decodes is the frame as it is
written (`eq_encode_of_decode`). So each frame has one form on the wire (`decode_eq_ok_iff`).
-/

namespace GnssLink.Frame

/-- The longest payload of a frame. -/
def maxPayload : Nat := LittleEndian.range 2 - 1

/-- A frame byte by byte up to its payload. The length field holds the length of the payload. -/
theorem exists_encode_eq {f : Frame} (h : f.payload.length ≤ maxPayload) :
    ∃ len0 len1, LittleEndian.decode [len0, len1] = f.payload.length
      ∧ f.encode = sync1 :: sync2 :: f.id.cls :: f.id.num :: len0 :: len1 :: (f.payload
        ++ (Checksum.ofBytes (f.id.cls :: f.id.num :: len0 :: len1 :: f.payload)).toBytes) := by
  obtain ⟨len0, len1, hlen⟩ :
      ∃ len0 len1, LittleEndian.encode 2 f.payload.length = [len0, len1] := ⟨_, _, rfl⟩
  refine ⟨len0, len1, ?_, ?_⟩
  · rw [← hlen]
    apply LittleEndian.decode_encode_of_lt
    have := LittleEndian.range_pos 2
    simp only [maxPayload] at h
    omega
  · have hbody : f.body = f.id.cls :: f.id.num :: len0 :: len1 :: f.payload := by
      rw [body, hlen]
      rfl
    rw [encode, hbody]
    rfl

theorem decode_encode {f : Frame} (h : f.payload.length ≤ maxPayload) :
    decode f.encode = .ok f := by
  obtain ⟨len0, len1, hsize, hencode⟩ := exists_encode_eq h
  rw [hencode]
  simp only [decode, hsize, List.take_left', List.drop_left', List.length_append,
    Checksum.length_toBytes]
  rw [if_neg (by omega), if_neg (by simp), if_neg (by simp), if_neg (by simp)]

/-! ### Nothing else is read -/

theorem eq_encode_of_decode {data : List UInt8} {f : Frame} (h : decode data = .ok f) :
    f.payload.length ≤ maxPayload ∧ data = f.encode := by
  unfold decode at h
  split at h
  · next s1 s2 cls num len0 len1 rest =>
    dsimp only at h
    split_ifs at h with hshort hsync hlength hchecksum
    obtain ⟨rfl, rfl⟩ : s1 = sync1 ∧ s2 = sync2 := by simpa using hsync
    obtain ⟨size, hsize⟩ : ∃ size, size = LittleEndian.decode [len0, len1] := ⟨_, rfl⟩
    rw [← hsize] at h hlength hchecksum
    cases h
    have htake : (rest.take size).length = size := by
      rw [List.length_take]
      omega
    -- the two bytes of the length field are the ones that writing the payload's length gives
    have hfield : LittleEndian.encode 2 (rest.take size).length = [len0, len1] := by
      rw [htake, hsize]
      exact LittleEndian.encode_decode [len0, len1]
    have hbody : body ⟨⟨cls, num⟩, rest.take size⟩
        = cls :: num :: len0 :: len1 :: rest.take size := by
      rw [body, hfield]
      rfl
    refine ⟨?_, ?_⟩
    · show (rest.take size).length ≤ maxPayload
      have hlt : size < LittleEndian.range 2 := hsize ▸ LittleEndian.decode_lt [len0, len1]
      rw [htake, maxPayload]
      omega
    · rw [encode, hbody, ← Decidable.not_not.mp hchecksum]
      simp
  · cases h

/-- **Reading accepts exactly what writing produces**, as long as the length field can hold the
length of the payload. -/
theorem decode_eq_ok_iff (data : List UInt8) (id : MessageId) (payload : List UInt8) :
    decode data = .ok ⟨id, payload⟩ ↔ payload.length ≤ 65535 ∧ data = encode ⟨id, payload⟩ := by
  constructor
  · intro h
    exact eq_encode_of_decode h
  · rintro ⟨hfits, rfl⟩
    exact decode_encode hfits

end GnssLink.Frame
