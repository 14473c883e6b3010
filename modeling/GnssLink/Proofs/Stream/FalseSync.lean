import GnssLink.Proofs.Stream.Reads
import GnssLink.Proofs.Stream.Sizes
/-!
# GnssLink.Proofs.Stream.FalseSync

**A false sync delays the stream by a bounded amount** (`Demux.delay_of_falseSync`). Whatever stands
at the start of a buffer can make the stream wait, if it looks like the start of a long frame. But a
verdict is reached before the longest frame would be complete (`length_lt_of_needMore`), so the
bytes that wait after a stream was read out are few, and no frame stays behind them once enough
bytes have come in.

A frame is lost only if it stands inside another one: the layout of a stream passes every place
between its frames (`mem_framesFrom_or_isInside`), and at such a place it finds what stands there.
-/

namespace GnssLink.Stream

/-! ### What waits is short -/

/-- A frame that is waited for is not complete, and its length field limits it. -/
theorem Ubx.length_lt_of_needMore {l : List UInt8} (h : recognize l = .needMore) :
    l.length < maxPayload + Frame.overhead := by
  match l with
  | [] | [_] | [_, _] | [_, _, _] | [_, _, _, _] | [_, _, _, _, _] =>
    simp [maxPayload, Frame.overhead]
  | first :: second :: cls :: num :: len0 :: len1 :: rest =>
    simp only [recognize] at h
    split at h
    · cases h
    · split at h
      · cases h
      · next hsize =>
        split at h
        · split at h
          · cases h
          · cases h
        · next hshort =>
          have hrest : (rest.drop (LittleEndian.decode [len0, len1])).length < 2 := by
            rcases hdrop : rest.drop (LittleEndian.decode [len0, len1]) with _ | ⟨a, _ | ⟨b, after⟩⟩
            · simp
            · simp
            · exact absurd hdrop (hshort a b after)
          rw [List.length_drop] at hrest
          simp only [List.length_cons, Frame.overhead]
          omega

theorem Nmea.length_lt_of_needMore {l : List UInt8} (h : recognize l = .needMore) :
    l.length < maxLine + 2 := by
  have hline : ((l.tail.take maxLine).takeWhile isText).length ≤ maxLine :=
    Nat.le_trans (List.takeWhile_prefix isText).length_le (List.length_take_le maxLine l.tail)
  have htail : l.length ≤ l.tail.length + 1 := by simp; omega
  simp only [recognize, recognizeTail] at h
  split at h
  · next hdrop =>
    rw [List.drop_eq_nil_iff] at hdrop
    omega
  · next stop after hdrop =>
    have hle := le_length_of_drop_eq_cons hdrop
    split at h
    · cases h
    · next hstop =>
      split at h
      · have hfull : ((l.tail.take maxLine).takeWhile isText).length ≠ maxLine :=
          fun heq => hstop (.inl heq)
        simp at hle
        omega
      · split at h
        · cases h
        · cases h

theorem Rtcm3.length_lt_of_needMore {l : List UInt8} (h : recognize l = .needMore) :
    l.length < 1023 + overhead := by
  match l with
  | [] | [_] | [_, _] => simp [overhead]
  | first :: high :: low :: rest =>
    simp only [recognize] at h
    split at h
    · cases h
    · next hhigh =>
      split at h
      · split at h
        · cases h
        · cases h
      · next hshort =>
        have hbound : high.toNat < 4 := by simpa [UInt8.le_iff_toNat_le] using hhigh
        have hlow := low.toNat_lt
        have hrest : (rest.drop (256 * high.toNat + low.toNat)).length < 3 := by
          rcases hdrop : rest.drop (256 * high.toNat + low.toNat) with
            _ | ⟨c0, _ | ⟨c1, _ | ⟨c2, after⟩⟩⟩
          · simp
          · simp
          · simp
          · exact absurd hdrop (hshort c0 c1 c2 after)
        rw [List.length_drop] at hrest
        simp only [List.length_cons, overhead]
        omega

/-- A verdict is reached before the longest frame would be complete. -/
theorem length_lt_of_needMore {l : List UInt8} (h : recognize l = .needMore) :
    l.length < Protocol.ubx.maxSize := by
  unfold recognize at h
  split at h
  · cases h
  · split at h
    · exact Ubx.length_lt_of_needMore h
    · split at h
      · exact Nat.lt_of_lt_of_le (Nmea.length_lt_of_needMore h) (Protocol.maxSize_le .nmea)
      · split at h
        · exact Nat.lt_of_lt_of_le (Rtcm3.length_lt_of_needMore h) (Protocol.maxSize_le .rtcm3)
        · cases h

/-- What a layout leaves is the start of a frame, as far as it goes. -/
theorem needMore_of_layout (s : List UInt8) :
    (layout s).2 = [] ∨ recognize (layout s).2 = .needMore := by
  fun_induction layout s with
  | case1 => exact .inl rfl
  | case2 first rest p n hr _ _ ih => exact ih
  | case3 first rest hr => exact .inr hr
  | case4 first rest hr ih => exact ih

/-- Less than the longest frame is left of any stream. -/
theorem length_layout_lt (s : List UInt8) : (layout s).2.length < Protocol.ubx.maxSize := by
  rcases needMore_of_layout s with hnothing | hwaiting
  · rw [hnothing]
    decide
  · exact length_lt_of_needMore hwaiting

/-! ### Frames that are found -/

/-- A place in a stream lies inside a frame that starts before it. -/
def IsInside (place : Nat) (frame : Nat × Protocol × List UInt8) : Prop :=
  frame.1 < place ∧ place < frame.1 + frame.2.2.length

/-- A frame that does not wait is a part of the layout, or it stands inside one. -/
theorem mem_framesFrom_or_isInside {s pre f post : List UInt8} {p : Protocol} (offset : Nat)
    (hs : s = pre ++ (f ++ post)) (hf : recognize (f ++ post) = .frame p f.length)
    (hpassed : (layout s).2.length < (f ++ post).length) :
    (offset + pre.length, p, f) ∈ Piece.framesFrom offset (layout s).1
      ∨ ∃ x ∈ Piece.framesFrom offset (layout s).1, IsInside (offset + pre.length) x := by
  fun_induction layout s generalizing pre offset with
  | case1 =>
    have hempty : f ++ post = [] := (List.append_eq_nil_iff.mp hs.symm).2
    simp [hempty] at hpassed
  | case2 first rest q n hr _ _ =>
    rename_i ih
    have hpos := Demux.pos_of_recognize hr
    have hlength : ((first :: rest).take n).length = n :=
      List.length_take_of_le (of_recognize_frame hr).2
    simp only [Piece.framesFrom, hlength]
    -- the frame is the one that was found, or it stands inside that one, or it comes later
    by_cases hfirst : pre = []
    · subst hfirst
      rw [List.nil_append] at hs
      rw [← hs, hr, Verdict.frame.injEq] at hf
      obtain ⟨rfl, rfl⟩ := hf
      left
      simp [hs]
    · have hpre := List.length_pos_iff.mpr hfirst
      by_cases hcovered : pre.length < n
      · right
        refine ⟨_, List.mem_cons_self, ?_, ?_⟩
        · simpa using hpre
        · simpa [hlength] using hcovered
      · have hrest : (first :: rest).drop n = pre.drop n ++ (f ++ post) := by
          rw [hs, List.drop_append_of_le_length (by omega)]
        have hplace : offset + n + (pre.drop n).length = offset + pre.length := by
          simp
          omega
        have hfound := ih (offset + n) hrest hpassed
        rw [hplace] at hfound
        rcases hfound with hmem | ⟨x, hx, hinside⟩
        · exact .inl (List.mem_cons_of_mem _ hmem)
        · exact .inr ⟨x, List.mem_cons_of_mem _ hx, hinside⟩
  | case3 first rest hr =>
    have hlength := congrArg List.length hs
    simp at hlength hpassed
    omega
  | case4 first rest hr ih =>
    cases pre with
    | nil =>
      rw [List.nil_append] at hs
      rw [← hs, hr] at hf
      cases hf
    | cons b pre =>
      obtain ⟨rfl, hrest⟩ := List.cons.inj hs
      have hplace : offset + 1 + pre.length = offset + (first :: pre).length := by
        simp
        omega
      rw [← hplace]
      exact ih (offset + 1) hrest hpassed

namespace Demux

/-- **A false sync delays the stream by a bounded amount.** After all messages were taken, at most
4103 bytes wait. So once a frame and what follows it have at least 4104 bytes, it is found, unless
it stands inside another frame of the stream. -/
theorem delay_of_falseSync :
    (∀ d : Demux, d.drain.2.buffer.length ≤ 4103)
    ∧ ∀ (turns : List Turn) (pre f post : List UInt8) (p : Protocol),
      added turns = pre ++ f ++ post → recognize (f ++ post) = .frame p f.length →
      4104 ≤ f.length + post.length →
      (pre.length, p, f) ∈ frames (readOut turns).1
        ∨ ∃ x ∈ frames (readOut turns).1, IsInside pre.length x := by
  refine ⟨?_, ?_⟩
  · intro d
    have hwaiting := length_layout_lt d.buffer
    rw [layout_of_drain] at hwaiting
    exact Nat.le_of_lt_succ hwaiting
  · intro turns pre f post p hadded hf hlong
    rw [List.append_assoc] at hadded
    have hwaiting : (layout (added turns)).2.length < 4104 := length_layout_lt (added turns)
    have hpassed : (layout (added turns)).2.length < (f ++ post).length := by
      rw [List.length_append]
      omega
    have hfound := mem_framesFrom_or_isInside 0 hadded hf hpassed
    rwa [layout_of_readOut, framesFrom_pieces, Nat.zero_add] at hfound

/-- The head of a frame of 4096 payload bytes. -/
def longHead : List UInt8 := [0xb5, 0x62, 0x0a, 0x04, 0x00, 0x10]

/-- A frame without payload. -/
def emptyPoll : List UInt8 := [0xb5, 0x62, 0x0a, 0x04, 0x00, 0x00, 0x0e, 0x34]

/-- A frame behind a head that promises a long one, and as many bytes as that needs. -/
def frameBehindHead : List Turn :=
  [.add longHead, .next, .add emptyPoll, .next, .add (List.replicate 4096 0)]

theorem delay_of_falseSync_frameBehindHead :
    added frameBehindHead = longHead ++ emptyPoll ++ List.replicate 4096 0
      ∧ recognize (emptyPoll ++ List.replicate 4096 0) = .frame .ubx emptyPoll.length
      ∧ 4104 ≤ emptyPoll.length + (List.replicate 4096 (0 : UInt8)).length
      ∧ ((6, .ubx, emptyPoll) ∈ frames (readOut frameBehindHead).1
        ∨ ∃ x ∈ frames (readOut frameBehindHead).1, IsInside 6 x) := by
  have hadded : added frameBehindHead = longHead ++ emptyPoll ++ List.replicate 4096 0 := by
    show longHead ++ (emptyPoll ++ (List.replicate 4096 0 ++ [])) = _
    rw [List.append_nil, List.append_assoc]
  have hframe : recognize (emptyPoll ++ List.replicate 4096 0) = .frame .ubx emptyPoll.length :=
    recognize_append_of_frame _ (by decide)
  have hlong : 4104 ≤ emptyPoll.length + (List.replicate 4096 (0 : UInt8)).length := by
    rw [List.length_replicate]
    decide
  exact ⟨hadded, hframe, hlong, delay_of_falseSync.2 _ longHead _ _ _ hadded hframe hlong⟩

end Demux
end GnssLink.Stream
