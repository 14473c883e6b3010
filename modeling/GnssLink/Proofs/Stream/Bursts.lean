import GnssLink.Proofs.Stream.Corrections
/-!
# GnssLink.Proofs.Stream.Bursts

**A correction with a burst of damage is no frame** (`Rtcm3.noMatch_of_burst`): up to three
neighbouring bytes of its payload and its check, replaced by any others.

A shift of the check register loses nothing (`Crc24.shift_injective`), because the constant term of
the polynomial shows which way it went. So equal bytes do not make up for a difference
(`Crc24.foldl_add_injective`), and three bytes, which fill the register, can be told from what they
leave in it (`Crc24.eq_of_foldl_add`). Bytes followed by their own check leave nothing
(`Crc24.foldl_add_checked`), so it does not matter whether a burst begins in the payload and ends in
the check.
-/

namespace GnssLink.Stream

namespace Crc24

variable {r s : Register}

/-! ### Shifts -/

/-- The lowest bit tells whether the polynomial was added. -/
theorem getLsbD_zero_shift (r : Register) : (shift r).getLsbD 0 = r.msb := by
  unfold shift
  split
  · next hmsb => simp [polynomial, hmsb]
  · next hmsb => simp [hmsb]

theorem shift_injective (h : shift r = shift s) : r = s := by
  have hmsb : r.msb = s.msb := by
    rw [← getLsbD_zero_shift, h, getLsbD_zero_shift]
  have hrest : r <<< 1 = s <<< 1 := by
    simp only [shift, hmsb] at h
    split at h
    · simpa using h
    · exact h
  apply BitVec.eq_of_getLsbD_eq
  intro i hi
  by_cases htop : i = 23
  · subst htop
    simpa [BitVec.msb_eq_getLsbD_last] using hmsb
  · have hbit := congrArg (fun x : Register => x.getLsbD (i + 1)) hrest
    have hplace : i + 1 < 24 := by omega
    simpa [hplace, ← BitVec.getLsbD_eq_getElem] using hbit

theorem shift_xor (r s : Register) : shift (r ^^^ s) = shift r ^^^ shift s := by
  simp only [shift, BitVec.msb_xor, BitVec.shiftLeft_xor_distrib]
  cases r.msb <;> cases s.msb <;> simp
  · ac_rfl
  · ac_rfl
  · -- the polynomial was added twice
    rw [BitVec.xor_assoc, BitVec.xor_comm polynomial, BitVec.xor_assoc, BitVec.xor_self,
      BitVec.xor_zero]

theorem shifts_injective (n : Nat) (h : shifts n r = shifts n s) : r = s := by
  induction n generalizing r s with
  | zero => exact h
  | succ n ih => exact shift_injective (ih h)

theorem shifts_xor (n : Nat) (r s : Register) :
    shifts n (r ^^^ s) = shifts n r ^^^ shifts n s := by
  induction n generalizing r s with
  | zero => rfl
  | succ n ih => simp only [shifts, shift_xor, ih]

theorem shifts_zero_register (n : Nat) : shifts n 0#24 = 0#24 := by
  have hsum := shifts_xor n 0#24 0#24
  simpa using hsum

theorem shifts_shifts (m n : Nat) (r : Register) : shifts n (shifts m r) = shifts (m + n) r := by
  induction m generalizing r with
  | zero => simp [shifts]
  | succ m ih =>
    rw [Nat.succ_add]
    exact ih (shift r)

/-- As long as only zeros leave the register, a shift is a shift. -/
theorem shifts_eq_shiftLeft (n : Nat) (h : ∀ i < n, r.getMsbD i = false) :
    shifts n r = r <<< n := by
  induction n generalizing r with
  | zero => simp [shifts]
  | succ n ih =>
    have hshift : shift r = r <<< 1 := by
      have hmsb : r.msb = false := h 0 (Nat.succ_pos n)
      simp [shift, hmsb]
    rw [shifts, hshift, ih, ← BitVec.shiftLeft_add, Nat.add_comm]
    intro i hi
    have hnext := h (i + 1) (by omega)
    simp [hnext]

/-! ### Bytes -/

/-- Equal bytes do not make up for a difference. -/
theorem foldl_add_injective (l : List UInt8) (h : l.foldl add r = l.foldl add s) : r = s := by
  induction l generalizing r s with
  | nil => exact h
  | cons b l ih =>
    have hstep := shifts_injective 8 (ih h)
    simpa using hstep

/-- The register that three bytes fill. -/
def ofThree (a b c : UInt8) : Register := a.toBitVec ++ b.toBitVec ++ c.toBitVec

theorem toBytes_ofThree (a b c : UInt8) : toBytes (ofThree a b c) = [a, b, c] := by
  simp only [toBytes, ofThree, List.cons.injEq, and_true]
  refine ⟨?_, ?_, ?_⟩
  all_goals
    apply UInt8.eq_of_toBitVec_eq
    ext i hi
    simp
    grind

theorem ofThree_of_toBytes {a b c : UInt8} (h : toBytes r = [a, b, c]) : ofThree a b c = r := by
  simp only [toBytes, List.cons.injEq, and_true] at h
  obtain ⟨rfl, rfl, rfl⟩ := h
  ext i hi
  simp [ofThree]
  grind

/-- Three bytes may be taken in at once. -/
theorem foldl_add_three (r : Register) (a b c : UInt8) :
    [a, b, c].foldl add r = shifts 24 (r ^^^ ofThree a b c) := by
  have hb : shifts 8 (b.toBitVec.setWidth 24 <<< 8) = b.toBitVec.setWidth 24 <<< 16 := by
    rw [shifts_eq_shiftLeft, ← BitVec.shiftLeft_add]
    intro i hi
    simp
    omega
  have hc : shifts 16 (c.toBitVec.setWidth 24) = c.toBitVec.setWidth 24 <<< 16 := by
    rw [shifts_eq_shiftLeft]
    intro i hi
    simp
    omega
  have hthree : ofThree a b c = a.toBitVec.setWidth 24 <<< 16
      ^^^ b.toBitVec.setWidth 24 <<< 8 ^^^ c.toBitVec.setWidth 24 := by
    ext i hi
    simp [ofThree]
    grind
  calc [a, b, c].foldl add r
    _ = shifts 8 (shifts 8 (shifts 8 (r ^^^ a.toBitVec.setWidth 24 <<< 16)
          ^^^ b.toBitVec.setWidth 24 <<< 16) ^^^ c.toBitVec.setWidth 24 <<< 16) := rfl
    _ = shifts 8 (shifts 8 (shifts 8 (r ^^^ a.toBitVec.setWidth 24 <<< 16)
          ^^^ shifts 8 (b.toBitVec.setWidth 24 <<< 8))
          ^^^ shifts 16 (c.toBitVec.setWidth 24)) := by rw [hb, hc]
    _ = shifts 24 (r ^^^ ofThree a b c) := by
      simp only [← shifts_xor, shifts_shifts, Nat.reduceAdd, hthree, BitVec.xor_assoc]

theorem eq_of_foldl_add_three {xs ys : List UInt8} (hx : xs.length = 3) (hy : ys.length = 3)
    (h : xs.foldl add r = ys.foldl add r) : xs = ys := by
  match xs, ys, hx, hy with
  | [a, b, c], [a', b', c'], _, _ =>
    have hthree : ofThree a b c = ofThree a' b' c' := by
      rw [foldl_add_three, foldl_add_three] at h
      simpa using shifts_injective 24 h
    rw [← toBytes_ofThree a b c, hthree, toBytes_ofThree]

/-- **Up to three bytes can be told from what they leave in the register.** -/
theorem eq_of_foldl_add {xs ys : List UInt8} (hlength : xs.length = ys.length)
    (hshort : xs.length ≤ 3) (h : xs.foldl add r = ys.foldl add r) : xs = ys := by
  have hfilled : xs ++ List.replicate (3 - xs.length) 0
      = ys ++ List.replicate (3 - xs.length) 0 := by
    apply eq_of_foldl_add_three
    · simp
      omega
    · simp
      omega
    · rw [List.foldl_append, List.foldl_append, h]
  exact List.append_cancel_right hfilled

/-! ### Checked bytes -/

/-- Bytes followed by their check. -/
def checked (body : List UInt8) : List UInt8 := body ++ toBytes (ofBytes body)

/-- Bytes followed by their check leave nothing in the register. -/
theorem foldl_add_checked (body : List UInt8) : (checked body).foldl add 0#24 = 0#24 := by
  obtain ⟨sum, hsum⟩ : ∃ sum, sum = ofBytes body := ⟨_, rfl⟩
  have hthree := ofThree_of_toBytes (r := sum) rfl
  calc (checked body).foldl add 0#24
    _ = (toBytes sum).foldl add sum := by rw [checked, List.foldl_append, hsum]; rfl
    _ = shifts 24 (sum ^^^ sum) := by rw [toBytes, foldl_add_three, hthree]
    _ = 0#24 := by rw [BitVec.xor_self, shifts_zero_register]

/-- **No two checked byte strings are one burst apart.** -/
theorem eq_of_checked {body body' front back xs ys : List UInt8}
    (h : checked body = front ++ xs ++ back) (h' : checked body' = front ++ ys ++ back)
    (hlength : xs.length = ys.length) (hshort : xs.length ≤ 3) : xs = ys := by
  have hsame : (front ++ xs ++ back).foldl add 0#24 = (front ++ ys ++ back).foldl add 0#24 := by
    rw [← h, ← h', foldl_add_checked, foldl_add_checked]
  simp only [List.foldl_append] at hsame
  exact eq_of_foldl_add hlength hshort (foldl_add_injective back hsame)

end Crc24

/-! ### Frames -/

namespace Rtcm3

/-- Bytes of the right number behind the head of a frame are a payload and three bytes for the
check. -/
theorem exists_eq_correctionBody {payload front back back' : List UInt8}
    (h : encode payload = front ++ back) (hhead : 3 ≤ front.length)
    (hlength : back'.length = back.length) :
    ∃ payload' check, payload'.length = payload.length ∧ check.length = 3
      ∧ front ++ back' = Segment.correctionBody payload' ++ check := by
  have htotal := congrArg List.length h
  match front, h, hhead with
  | first :: high :: low :: front, h, _ =>
    simp only [encode, Segment.correctionBody, List.cons_append, List.cons.injEq] at h
    obtain ⟨rfl, rfl, rfl, -⟩ := h
    simp only [length_encode, overhead, List.length_append, List.length_cons] at htotal
    refine ⟨(front ++ back').take payload.length, (front ++ back').drop payload.length, ?_, ?_, ?_⟩
    · simp
      omega
    · simp
      omega
    · have hfits : ((front ++ back').take payload.length).length = payload.length := by
        simp
        omega
      simp only [Segment.correctionBody, hfits, List.cons_append, List.take_append_drop]

/-- **A correction is recognised exactly where it stands, and with a burst of damage it is no
frame.** A buffer that opens with the sync byte starts with a frame of `n` bytes exactly if the
frame of some payload of up to 1023 bytes stands there. If up to three neighbouring bytes of its
payload and its check are replaced by others, no frame starts there, whatever follows. -/
theorem noMatch_of_burst :
    (∀ (rest : List UInt8) (n : Nat), recognize (sync :: rest) = .frame .rtcm3 n ↔
      ∃ payload, payload.length ≤ 1023 ∧ n = payload.length + 6
        ∧ encode payload <+: sync :: rest)
    ∧ ∀ payload front burst back other after : List UInt8, payload.length ≤ 1023 →
      encode payload = front ++ burst ++ back → 3 ≤ front.length → burst.length ≤ 3 →
      other.length = burst.length → other ≠ burst →
      recognize (front ++ other ++ back ++ after) = .noMatch := by
  refine ⟨recognize_eq_frame_iff, ?_⟩
  intro payload front burst back other after hfits hframe hhead hshort hlength hother
  have htail : (other ++ back).length = (burst ++ back).length := by simp [hlength]
  obtain ⟨payload', check, hsize, hcheck, hdamaged⟩ :=
    exists_eq_correctionBody (by rw [hframe, List.append_assoc]) hhead htail
  rw [← List.append_assoc] at hdamaged
  rw [hdamaged, recognize_eq (by omega) hcheck, if_neg]
  intro hvalid
  have hchecked : Crc24.checked (Segment.correctionBody payload') = front ++ other ++ back := by
    rw [hdamaged, Crc24.checked, hvalid]
  exact hother (Crc24.eq_of_checked hchecked hframe hlength (by omega))

/-- The payload of a correction that consists of its number only. -/
def bareNumber : List UInt8 := [0x3e, 0xd0]

/-- The last byte of the payload and the first two of the check are hit. -/
theorem noMatch_of_burst_bareNumber :
    bareNumber.length ≤ 1023
      ∧ encode bareNumber = [sync, 0x00, 0x02, 0x3e] ++ [0xd0, 0xa4, 0xe0] ++ [0x00]
      ∧ ([0xd1, 0xa4, 0xe1] : List UInt8) ≠ [0xd0, 0xa4, 0xe0]
      ∧ recognize ([sync, 0x00, 0x02, 0x3e] ++ [0xd0, 0xa4, 0xe0] ++ [0x00] ++ [0xb5, 0x62])
        = .frame .rtcm3 8
      ∧ recognize ([sync, 0x00, 0x02, 0x3e] ++ [0xd1, 0xa4, 0xe1] ++ [0x00] ++ [0xb5, 0x62])
        = .noMatch := by
  have hfits : bareNumber.length ≤ 1023 := by decide
  have hframe : encode bareNumber = [sync, 0x00, 0x02, 0x3e] ++ [0xd0, 0xa4, 0xe0] ++ [0x00] := by
    decide +kernel
  have hother : ([0xd1, 0xa4, 0xe1] : List UInt8) ≠ [0xd0, 0xa4, 0xe0] := by decide
  refine ⟨hfits, hframe, hother, ?_, ?_⟩
  · apply (noMatch_of_burst.1 _ 8).mpr
    exact ⟨bareNumber, hfits, rfl, [0xb5, 0x62], by rw [hframe]; rfl⟩
  · exact noMatch_of_burst.2 bareNumber _ _ _ _ _ hfits hframe (by decide) (by decide) rfl hother

end Rtcm3
end GnssLink.Stream
