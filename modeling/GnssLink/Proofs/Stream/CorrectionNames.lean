import Mathlib.Algebra.Group.Nat.Defs
import GnssLink.Proofs.Stream.Corrections
import GnssLink.Proofs.Stream.WithinMessage
/-!
# GnssLink.Proofs.Stream.CorrectionNames

**A correction is named by the number in its payload, unless the payload has none**
(`names_of_corrections`).

The number is the first twelve bits behind the head. The name is read from the whole frame, and a
payload of less than two bytes does not reach as far as the number, so the rest of it comes from the
check: such a correction gets a number that nobody gave it (`exists_name_from_check`).
-/

namespace GnssLink.Stream

namespace Rtcm3

/-! ### Bits -/

/-- The bits of a byte, most significant first. -/
def bits (b : UInt8) : List Bool := (List.range 8).map b.toBitVec.getMsbD

/-- The number with the given bits, most significant first. -/
def ofBits (l : List Bool) : Nat := l.foldl (fun n bit => 2 * n + bit.toNat) 0

/-- The message number: the first twelve bits. -/
def number (bytes : List UInt8) : Nat := ofBits ((bytes.flatMap bits).take 12)

@[simp] theorem length_bits (b : UInt8) : (bits b).length = 8 := by simp [bits]

theorem ofBits_concat (l : List Bool) (bit : Bool) :
    ofBits (l ++ [bit]) = 2 * ofBits l + bit.toNat := by simp [ofBits]

theorem ofBits_append (l l' : List Bool) :
    ofBits (l ++ l') = 2 ^ l'.length * ofBits l + ofBits l' := by
  induction l' using List.reverseRecOn with
  | nil => simp [ofBits]
  | append_singleton l' bit ih =>
    rw [← List.append_assoc, ofBits_concat, ofBits_concat, ih, List.length_append,
      List.length_singleton, Nat.pow_succ']
    simp only [Nat.mul_add, Nat.mul_assoc, Nat.add_assoc]

/-- The first bits of a byte are what remains when the others are shifted out. -/
theorem ofBits_take_bits (b : UInt8) {k : Nat} (hk : k ≤ 8) :
    ofBits ((bits b).take k) = b.toNat / 2 ^ (8 - k) := by
  induction k with
  | zero =>
    have hb := b.toNat_lt
    simp [ofBits]
    omega
  | succ k ih =>
    have hplace : k < 8 := by omega
    have hbit : (bits b)[k]? = some (b.toNat.testBit (7 - k)) := by
      simp [bits, hplace, BitVec.getMsbD, BitVec.getLsbD]
    have hbefore : 8 - k = (7 - k) + 1 := by omega
    have hafter : 8 - (k + 1) = 7 - k := by omega
    rw [List.take_add_one, hbit, Option.toList_some, ofBits_concat, ih (by omega),
      Nat.toNat_testBit, hbefore, hafter, Nat.pow_succ, ← Nat.div_div_eq_div_mul]
    omega

theorem number_cons_cons (high low : UInt8) (rest : List UInt8) :
    number (high :: low :: rest) = (256 * high.toNat + low.toNat) / 16 := by
  have htake : ((high :: low :: rest).flatMap bits).take 12 = bits high ++ (bits low).take 4 := by
    simp [List.take_append, List.take_of_length_le]
  have hhigh : ofBits (bits high) = high.toNat := by
    simpa [List.take_of_length_le] using ofBits_take_bits high (Nat.le_refl 8)
  rw [number, htake, ofBits_append, hhigh, ofBits_take_bits low (by omega)]
  simp
  omega

/-! ### Names -/

/-- The name that the payload gives: that of its number, if it has one. -/
def payloadName (payload : List UInt8) : String :=
  if 2 ≤ payload.length then "RTCM3-" ++ toString (number payload) else "RTCM3-?"

/-- Decimal numbers have no question mark. -/
theorem toString_ne_question (n : Nat) : "RTCM3-" ++ toString n ≠ "RTCM3-?" := by
  intro h
  have hdigits : Nat.toDigits 10 n = ['?'] := by
    have hlists := congrArg String.toList h
    simpa [Nat.toString_eq_repr] using hlists
  have hdigit : Char.isDigit '?' := by
    apply Nat.isDigit_of_mem_toDigits (b := 10) (n := n)
    · decide
    · decide
    · simp [hdigits]
  exact absurd hdigit (by decide)

/-- A frame is named by the first twelve bits behind its head. -/
theorem correctionName_eq {data : List UInt8} (h : overhead ≤ data.length) :
    Message.correctionName data = "RTCM3-" ++ toString (number (data.drop headSize)) := by
  match data, h with
  | _ :: _ :: _ :: high :: low :: rest, _ =>
    show "RTCM3-" ++ toString ((256 * high.toNat + low.toNat) / 16) = _
    rw [← number_cons_cons high low rest]
    rfl

@[simp] theorem drop_encode (payload : List UInt8) :
    (encode payload).drop headSize
      = payload ++ Crc24.toBytes (Crc24.ofBytes (Segment.correctionBody payload)) := rfl

/-- A number that the payload has is not changed by what follows it. -/
theorem number_append {payload : List UInt8} (h : 2 ≤ payload.length) (check : List UInt8) :
    number (payload ++ check) = number payload := by
  match payload, h with
  | high :: low :: rest, _ => simp [number_cons_cons]

theorem correctionName_encode_eq_iff (payload : List UInt8) :
    Message.correctionName (encode payload) = payloadName payload ↔ 2 ≤ payload.length := by
  rw [correctionName_eq (by simp), drop_encode, payloadName]
  by_cases hnumbered : 2 ≤ payload.length
  · simp [hnumbered, number_append]
  · simpa [hnumbered] using toString_ne_question _

end Rtcm3

namespace Demux

/-- A correction of a stream is the frame of a payload. -/
theorem exists_encode_of_next? {d d' : Demux} {m : Message} (h : d.next? = some (m, d'))
    (hrtcm3 : m.protocol = .rtcm3) :
    ∃ payload, payload.length ≤ 1023 ∧ m.data = Rtcm3.encode payload := by
  obtain ⟨hrecognize, hdata⟩ := recognize_of_next? h hrtcm3 (by decide)
  obtain ⟨rest, hbuffer, hframe⟩ := rtcm3_of_recognize hrecognize
  rw [hbuffer] at hframe hdata
  obtain ⟨payload, hfits, hlength, hencode⟩ := Rtcm3.exists_encode_of_recognize hframe
  refine ⟨payload, hfits, ?_⟩
  rw [← hdata, hlength, ← Rtcm3.length_encode]
  exact (List.prefix_iff_eq_take.mp hencode).symm

/-- The frame of a payload gives one message. -/
theorem applyAll_encode {payload : List UInt8} (hfits : payload.length ≤ 1023) :
    (applyAll [.add (Rtcm3.encode payload), .next] {}).1
      = [.message ⟨.rtcm3, Rtcm3.encode payload, 1⟩] := by
  have hframe := Rtcm3.recognize_encode hfits []
  rw [List.append_nil, ← Rtcm3.length_encode] at hframe
  exact applyAll_of_recognize hframe

end Demux

/-- **A correction is named by the number in its payload, unless the payload has none.** Whatever is
done with a new stream, a message that is a correction is the frame of a payload, and it is named by
the first twelve bits behind the head. This is the name that the payload gives exactly if the
payload has two bytes. `Demux.applyAll_encode` gives such a message for every payload. -/
theorem names_of_corrections (ops : List Operation) {m : Message}
    (hm : m ∈ messages (Demux.applyAll ops {}).1) (hrtcm3 : m.protocol = .rtcm3) :
    ∃ payload, payload.length ≤ 1023 ∧ m.data = Rtcm3.encode payload
      ∧ m.name = "RTCM3-" ++ toString (Rtcm3.number (m.data.drop 3))
      ∧ (m.name = Rtcm3.payloadName payload ↔ 2 ≤ payload.length) := by
  obtain ⟨d, d', hnext | hflush⟩ := Demux.exists_of_mem_messages hm
  · obtain ⟨payload, hfits, hdata⟩ := Demux.exists_encode_of_next? hnext hrtcm3
    have hname : m.name = Message.correctionName (Rtcm3.encode payload) := by
      rw [Message.name, hrtcm3, hdata]
    refine ⟨payload, hfits, hdata, ?_, ?_⟩
    · rw [hname, hdata]
      exact Rtcm3.correctionName_eq (by simp)
    · rw [hname]
      exact Rtcm3.correctionName_encode_eq_iff payload
  · have hgarbage := Demux.protocol_of_flush hflush
    rw [hrtcm3] at hgarbage
    cases hgarbage

/-- A payload of one byte leaves four bits of the number to the check. -/
theorem names_of_corrections_oneByte :
    (⟨.rtcm3, Rtcm3.encode [0x3e], 1⟩ : Message)
        ∈ messages (Demux.applyAll [.add (Rtcm3.encode [0x3e]), .next] {}).1
      ∧ (⟨.rtcm3, Rtcm3.encode [0x3e], 1⟩ : Message).name = "RTCM3-999" := by
  have hmem : (⟨.rtcm3, Rtcm3.encode [0x3e], 1⟩ : Message)
      ∈ messages (Demux.applyAll [.add (Rtcm3.encode [0x3e]), .next] {}).1 := by
    rw [Demux.applyAll_encode (by decide)]
    exact List.mem_singleton_self _
  have hnumber : Rtcm3.number ((Rtcm3.encode [0x3e]).drop 3) = 999 := by decide +kernel
  obtain ⟨_, -, -, hname, -⟩ := names_of_corrections _ hmem rfl
  refine ⟨hmem, ?_⟩
  rw [hname, hnumber]
  rfl

/-- There is a correction without payload whose name is a number. -/
theorem exists_name_from_check :
    ∃ ops, ∃ m ∈ messages (Demux.applyAll ops {}).1,
      m.protocol = .rtcm3 ∧ m.data = Rtcm3.encode [] ∧ m.name = "RTCM3-1150"
        ∧ m.name ≠ Rtcm3.payloadName [] := by
  have hname : (⟨.rtcm3, Rtcm3.encode [], 1⟩ : Message).name = "RTCM3-1150" := by decide +kernel
  refine ⟨[.add (Rtcm3.encode []), .next], ⟨.rtcm3, Rtcm3.encode [], 1⟩, ?_, rfl, rfl, hname, ?_⟩
  · rw [Demux.applyAll_encode (Nat.zero_le _)]
    exact List.mem_singleton_self _
  · rw [hname]
    decide

end GnssLink.Stream
