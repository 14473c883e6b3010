import GnssLink.Proofs.Stream.Finality
/-!
# GnssLink.Proofs.Stream.Sizes

**How long a message can be.** Each recogniser limits the length of its frames by what it reads off
their start, and a run of garbage is cut. So every message of a stream has a limit that depends on
its protocol only (`Protocol.maxSize`).
-/

namespace GnssLink.Stream

/-- The most bytes of a message. -/
def Protocol.maxSize : Protocol → Nat
  | ubx => Ubx.maxPayload + Frame.overhead
  | nmea => Nmea.maxLine + 2
  | rtcm3 => 1023 + Rtcm3.overhead
  | garbage => maxGarbage

/-- No protocol has longer messages than UBX. -/
theorem Protocol.maxSize_le (p : Protocol) : p.maxSize ≤ Protocol.ubx.maxSize := by
  cases p <;> decide

/-! ### Frames -/

/-- A payload that is too long is refused before its bytes are awaited. -/
theorem Ubx.le_of_recognize {l : List UInt8} {p : Protocol} {n : Nat}
    (h : recognize l = .frame p n) : n ≤ maxPayload + Frame.overhead := by
  unfold recognize at h
  split at h
  · split at h
    · cases h
    · split at h
      · next cls num len0 len1 rest =>
        simp only at h
        split at h
        · cases h
        · next hsize =>
          split at h
          · split at h
            · cases h
              exact Nat.add_le_add_right (Nat.le_of_not_lt hsize) Frame.overhead
            · cases h
          · cases h
      · cases h
  · cases h

theorem Nmea.le_of_recognize {l : List UInt8} {p : Protocol} {n : Nat}
    (h : recognize l = .frame p n) : n ≤ maxLine + 2 := by
  have hline : ((l.tail.take maxLine).takeWhile isText).length ≤ maxLine :=
    Nat.le_trans (List.takeWhile_prefix isText).length_le (List.length_take_le maxLine l.tail)
  simp only [recognize, recognizeTail] at h
  split at h
  · cases h
  · split at h
    · cases h
    · next hstop =>
      split at h
      · cases h
      · split at h
        · cases h
          -- a line of the greatest length is no sentence any more
          have hfull : ((l.tail.take maxLine).takeWhile isText).length ≠ maxLine :=
            fun heq => hstop (.inl heq)
          omega
        · cases h

theorem Rtcm3.le_of_recognize {l : List UInt8} {p : Protocol} {n : Nat}
    (h : recognize l = .frame p n) : n ≤ 1023 + overhead := by
  unfold recognize at h
  split at h
  · next first high low rest =>
    split at h
    · cases h
    · next hhigh =>
      have hhigh' : high.toNat < 4 :=
        Nat.lt_of_not_le fun hle => hhigh (UInt8.le_iff_toNat_le.mpr hle)
      have hlow := low.toNat_lt
      simp only at h
      split at h
      · split at h
        · cases h
          omega
        · cases h
      · cases h
  · cases h

theorem le_maxSize_of_recognize {l : List UInt8} {p : Protocol} {n : Nat}
    (h : recognize l = .frame p n) : n ≤ p.maxSize := by
  obtain ⟨_, _, -, ⟨rfl, -, h⟩ | ⟨rfl, -, h⟩ | ⟨rfl, -, h⟩⟩ := recognize_cases h
  · exact Ubx.le_of_recognize h
  · exact Nmea.le_of_recognize h
  · exact Rtcm3.le_of_recognize h

/-! ### Messages -/

/-- The run of garbage ends at its limit, and at a frame before that. -/
theorem le_maxSize_of_cut {passed : Nat} {l : List UInt8} {p : Protocol} {n : Nat}
    (hpassed : passed ≤ maxGarbage) (h : cut passed l = some (p, n)) : n ≤ p.maxSize := by
  have hgarbage {passed : Nat} (hpassed : passed ≤ maxGarbage)
      (h : garbage? passed = some (p, n)) : n ≤ p.maxSize := by
    obtain ⟨rfl, rfl, -⟩ := Demux.garbage?_eq_some h
    exact hpassed
  -- along the bytes passed over, with room left as long as the run has not reached its limit
  induction l generalizing passed with
  | nil => exact hgarbage hpassed h
  | cons first rest ih =>
    unfold cut at h
    split at h
    · exact hgarbage hpassed h
    · next hroom =>
      split at h
      · next hr =>
        split at h
        · cases h
          exact le_maxSize_of_recognize hr
        · exact hgarbage hpassed h
      · exact hgarbage hpassed h
      · exact ih (Nat.lt_of_not_le hroom) h

/-- What is cut off the buffer is a message of the given protocol and length. -/
theorem Demux.length_le_of_next? {d d' : Demux} {m : Message} (h : d.next? = some (m, d')) :
    m.data.length ≤ m.protocol.maxSize := by
  obtain ⟨⟨p, n⟩, hcut, hemit⟩ := Option.map_eq_some_iff.mp h
  cases hemit
  exact Nat.le_trans (List.length_take_le n d.buffer) (le_maxSize_of_cut (Nat.zero_le _) hcut)

theorem Demux.length_le_of_flush {d d' : Demux} {m : Message} (h : d.flush = some (m, d')) :
    m.data.length ≤ m.protocol.maxSize := by
  obtain ⟨⟨p, n⟩, hgarbage, hemit⟩ := Option.map_eq_some_iff.mp h
  obtain ⟨rfl, rfl, -⟩ := Demux.garbage?_eq_some hgarbage
  cases hemit
  exact Nat.le_trans (List.length_take_le _ d.buffer) (Nat.min_le_right _ _)

end GnssLink.Stream
