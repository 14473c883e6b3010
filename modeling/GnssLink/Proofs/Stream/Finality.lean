import GnssLink.Stream.Demux
/-!
# GnssLink.Proofs.Stream.Finality

**A verdict other than "need more" is final.** Whatever follows in the stream, the start of a buffer
stays the frame, or the non-frame, that it was found to be (`recognize_append`). A frame lies within
the buffer in which it was found (`of_recognize_frame`).

Each of the three recognisers looks at a part of the buffer whose end it has found before it
decides, so the proofs first show that this part does not change.
-/

namespace GnssLink.Stream

/-! ### Reading past what is there -/

/-- A list from which something can be dropped off reaches as far as the drop. -/
theorem le_length_of_drop_eq_cons {α : Type} {l rest : List α} {a : α} {n : Nat}
    (h : l.drop n = a :: rest) : n + rest.length + 1 = l.length := by
  have hlength := congrArg List.length h
  rw [List.length_drop, List.length_cons] at hlength
  omega

theorem drop_append_of_drop_eq_cons {α : Type} {l rest : List α} {a : α} {n : Nat} (y : List α)
    (h : l.drop n = a :: rest) : (l ++ y).drop n = a :: (rest ++ y) := by
  have hle := le_length_of_drop_eq_cons h
  rw [List.drop_append_of_le_length (by omega), h, List.cons_append]

/-! ### The three recognisers -/

/-- The length field and the checksum are read once they are there, and what follows is not. -/
theorem Ubx.recognize_append {l : List UInt8} (y : List UInt8) (h : recognize l ≠ .needMore) :
    recognize (l ++ y) = recognize l := by
  match l with
  | [] => exact absurd rfl h
  | [_] => exact absurd rfl h
  | first :: second :: rest =>
    simp only [recognize, List.cons_append] at h ⊢
    by_cases hsync : second ≠ Frame.sync2
    · rw [if_pos hsync, if_pos hsync]
    · rw [if_neg hsync] at h
      rw [if_neg hsync, if_neg hsync]
      match rest with
      | [] => exact absurd rfl h
      | [_] => exact absurd rfl h
      | [_, _] => exact absurd rfl h
      | [_, _, _] => exact absurd rfl h
      | cls :: num :: len0 :: len1 :: rest =>
        simp only [List.cons_append] at h ⊢
        by_cases hsize : maxPayload < LittleEndian.decode [len0, len1]
        · rw [if_pos hsize, if_pos hsize]
        · rw [if_neg hsize] at h
          rw [if_neg hsize, if_neg hsize]
          match hdrop : rest.drop (LittleEndian.decode [len0, len1]) with
          | [] => exact absurd (by rw [hdrop]) h
          | [_] => exact absurd (by rw [hdrop]) h
          | a :: b :: after =>
            have hle := le_length_of_drop_eq_cons hdrop
            rw [drop_append_of_drop_eq_cons y hdrop, List.take_append_of_le_length (by omega)]
            rfl

theorem Nmea.recognizeTail_append {tail : List UInt8} (y : List UInt8)
    (h : recognizeTail tail ≠ .needMore) : recognizeTail (tail ++ y) = recognizeTail tail := by
  simp only [recognizeTail] at h
  match hdrop : tail.drop ((tail.take maxLine).takeWhile isText).length with
  | [] => exact absurd (by rw [hdrop]) h
  | stop :: after =>
    -- the line ends before the buffer does, so more bytes do not lengthen it
    have hline : ((tail ++ y).take maxLine).takeWhile isText
        = (tail.take maxLine).takeWhile isText := by
      have hle := le_length_of_drop_eq_cons hdrop
      rw [List.take_append, List.takeWhile_append]
      by_cases hfull : maxLine ≤ tail.length
      · rw [Nat.sub_eq_zero_of_le hfull, List.take_zero, List.takeWhile_nil, List.append_nil]
        split
        · next heq =>
          exact (List.IsPrefix.eq_of_length (List.takeWhile_prefix isText) heq).symm
        · rfl
      · rw [if_neg]
        rw [List.length_take]
        omega
    simp only [recognizeTail, hline]
    rw [drop_append_of_drop_eq_cons y hdrop, hdrop]
    rw [hdrop] at h
    simp only at h ⊢
    split
    · rfl
    · next hstop =>
      rw [if_neg hstop] at h
      match after with
      | [] => exact absurd rfl h
      | last :: _ => rfl

theorem Nmea.recognize_append {l : List UInt8} (y : List UInt8) (hne : l ≠ [])
    (h : recognize l ≠ .needMore) : recognize (l ++ y) = recognize l := by
  obtain ⟨first, tail, rfl⟩ := List.exists_cons_of_ne_nil hne
  exact recognizeTail_append y h

theorem Rtcm3.recognize_append {l : List UInt8} (y : List UInt8) (h : recognize l ≠ .needMore) :
    recognize (l ++ y) = recognize l := by
  match l with
  | [] => exact absurd rfl h
  | [_] => exact absurd rfl h
  | [_, _] => exact absurd rfl h
  | first :: high :: low :: rest =>
    simp only [recognize, List.cons_append] at h ⊢
    by_cases hhigh : 4 ≤ high
    · rw [if_pos hhigh, if_pos hhigh]
    · rw [if_neg hhigh] at h
      rw [if_neg hhigh, if_neg hhigh]
      match hdrop : rest.drop (256 * high.toNat + low.toNat) with
      | [] => exact absurd (by rw [hdrop]) h
      | [_] => exact absurd (by rw [hdrop]) h
      | [_, _] => exact absurd (by rw [hdrop]) h
      | c0 :: c1 :: c2 :: after =>
        have hle := le_length_of_drop_eq_cons hdrop
        rw [drop_append_of_drop_eq_cons y hdrop, List.take_append_of_le_length (by omega)]
        rfl

/-- **Finality.** More bytes do not change a verdict that did not ask for them. -/
theorem recognize_append {l : List UInt8} (y : List UInt8) (hne : l ≠ [])
    (h : recognize l ≠ .needMore) : recognize (l ++ y) = recognize l := by
  obtain ⟨first, rest, rfl⟩ := List.exists_cons_of_ne_nil hne
  simp only [recognize, List.cons_append] at h ⊢
  split
  · next hfirst =>
    rw [if_pos hfirst] at h
    exact Ubx.recognize_append y h
  · next hubx =>
    rw [if_neg hubx] at h
    split
    · next hfirst =>
      rw [if_pos hfirst] at h
      exact Nmea.recognize_append y hne h
    · next hnmea =>
      rw [if_neg hnmea] at h
      split
      · next hfirst =>
        rw [if_pos hfirst] at h
        exact Rtcm3.recognize_append y h
      · rfl

/-- A frame stays a frame. -/
theorem recognize_append_of_frame {l : List UInt8} {p : Protocol} {n : Nat} (y : List UInt8)
    (h : recognize l = .frame p n) : recognize (l ++ y) = .frame p n := by
  have hne : l ≠ [] := by
    rintro rfl
    cases h
  have hfinal : recognize l ≠ .needMore := by
    rw [h]
    exact Verdict.noConfusion
  rw [recognize_append y hne hfinal, h]

theorem recognize_append_of_noMatch {first : UInt8} {rest : List UInt8} (y : List UInt8)
    (h : recognize (first :: rest) = .noMatch) : recognize (first :: (rest ++ y)) = .noMatch := by
  have hfinal : recognize (first :: rest) ≠ .needMore := by
    rw [h]
    exact Verdict.noConfusion
  rw [← List.cons_append, recognize_append y (List.cons_ne_nil first rest) hfinal, h]

/-! ### What a frame is -/

/-- Each recogniser finds frames of its own protocol only, and only whole ones. -/
theorem Ubx.of_recognize_frame {l : List UInt8} {p : Protocol} {n : Nat}
    (h : recognize l = .frame p n) : p = .ubx ∧ n ≤ l.length := by
  unfold recognize at h
  split at h
  · split at h
    · cases h
    · split at h
      · next cls num len0 len1 rest =>
        simp only at h
        split at h
        · cases h
        · split at h
          · next a b after hdrop =>
            have hle := le_length_of_drop_eq_cons hdrop
            split at h
            · cases h
              refine ⟨rfl, ?_⟩
              simp only [List.length_cons, Frame.overhead] at hle ⊢
              omega
            · cases h
          · cases h
      · cases h
  · cases h

theorem Nmea.of_recognize_frame {l : List UInt8} {p : Protocol} {n : Nat}
    (h : recognize l = .frame p n) : p = .nmea ∧ n ≤ l.length := by
  simp only [recognize, recognizeTail] at h
  split at h
  · cases h
  · next stop after hdrop =>
    have hle := le_length_of_drop_eq_cons hdrop
    rw [List.length_tail] at hle
    split at h
    · cases h
    · split at h
      · cases h
      · split at h
        · cases h
          refine ⟨rfl, ?_⟩
          simp only [List.length_cons] at hle
          omega
        · cases h

theorem Rtcm3.of_recognize_frame {l : List UInt8} {p : Protocol} {n : Nat}
    (h : recognize l = .frame p n) : p = .rtcm3 ∧ n ≤ l.length := by
  unfold recognize at h
  split at h
  · split at h
    · cases h
    · simp only at h
      split at h
      · next c0 c1 c2 after hdrop =>
        have hle := le_length_of_drop_eq_cons hdrop
        split at h
        · cases h
          refine ⟨rfl, ?_⟩
          simp only [List.length_cons, overhead] at hle ⊢
          omega
        · cases h
      · cases h
  · cases h

/-- A frame was found by the recogniser of its protocol, which its first byte names. -/
theorem recognize_cases {l : List UInt8} {p : Protocol} {n : Nat} (h : recognize l = .frame p n) :
    ∃ first rest, l = first :: rest
      ∧ ((p = .ubx ∧ first = Frame.sync1 ∧ Ubx.recognize l = .frame p n)
        ∨ (p = .nmea ∧ first = Nmea.dollar ∧ Nmea.recognize l = .frame p n)
        ∨ (p = .rtcm3 ∧ first = Rtcm3.sync ∧ Rtcm3.recognize l = .frame p n)) := by
  cases l with
  | nil => cases h
  | cons first rest =>
    refine ⟨first, rest, rfl, ?_⟩
    simp only [recognize] at h
    split at h
    · next hubx => exact .inl ⟨(Ubx.of_recognize_frame h).1, hubx, h⟩
    · split at h
      · next hnmea => exact .inr (.inl ⟨(Nmea.of_recognize_frame h).1, hnmea, h⟩)
      · split at h
        · next hrtcm3 => exact .inr (.inr ⟨(Rtcm3.of_recognize_frame h).1, hrtcm3, h⟩)
        · cases h

/-- A frame belongs to one of the protocols and lies within the buffer. -/
theorem of_recognize_frame {l : List UInt8} {p : Protocol} {n : Nat}
    (h : recognize l = .frame p n) : p ≠ .garbage ∧ n ≤ l.length := by
  obtain ⟨_, _, -, ⟨rfl, -, h⟩ | ⟨rfl, -, h⟩ | ⟨rfl, -, h⟩⟩ := recognize_cases h
  · exact ⟨nofun, (Ubx.of_recognize_frame h).2⟩
  · exact ⟨nofun, (Nmea.of_recognize_frame h).2⟩
  · exact ⟨nofun, (Rtcm3.of_recognize_frame h).2⟩

end GnssLink.Stream
