import GnssLink.Proofs.Stream.Finality
/-!
# GnssLink.Proofs.Stream.Layout

**What a byte string consists of.** `layout` cuts a byte string into frames and stray bytes, as far
as that can be decided, and answers what has to wait. It knows neither buffers nor runs of garbage,
so it says what a stream holds whichever way the stream is read.

* `layout_append`: the layout of a stream is found in any number of parts.
* `layout_of_next?`: the next message is the next part of the layout, and this stays so when more
  bytes follow.
* `layout_of_next?_eq_none`: there is no next message exactly when the rest of the layout waits.
* `layout_of_drain`: reading all messages gives the layout.
-/

namespace GnssLink.Stream

/-- A part of a byte string. -/
inductive Piece where
  | frame (protocol : Protocol) (data : List UInt8)
  /-- A byte that belongs to no frame. -/
  | stray (byte : UInt8)
  deriving DecidableEq, Repr

/-- The parts of a byte string, and the bytes at its end that may yet become a frame. -/
def layout (s : List UInt8) : List Piece × List UInt8 :=
  match s with
  | [] => ([], [])
  | first :: rest =>
    match h : recognize (first :: rest) with
    | .frame protocol length =>
      have : 0 < length := Demux.pos_of_recognize h
      let after := layout ((first :: rest).drop length)
      (.frame protocol ((first :: rest).take length) :: after.1, after.2)
    | .needMore => ([], first :: rest)
    | .noMatch => (.stray first :: (layout rest).1, (layout rest).2)
termination_by s.length
decreasing_by all_goals simp only [List.length_drop, List.length_cons]; omega

@[simp] theorem layout_nil : layout [] = ([], []) := by
  rw [layout]

theorem layout_of_frame {s : List UInt8} {p : Protocol} {n : Nat}
    (h : recognize s = .frame p n) :
    layout s = (.frame p (s.take n) :: (layout (s.drop n)).1, (layout (s.drop n)).2) := by
  cases s with
  | nil => cases h
  | cons first rest =>
    rw [layout]
    split
    · next heq =>
      rw [h] at heq
      cases heq
      rfl
    · next heq => rw [h] at heq; cases heq
    · next heq => rw [h] at heq; cases heq

theorem layout_of_needMore {s : List UInt8} (h : recognize s = .needMore) :
    layout s = ([], s) := by
  cases s with
  | nil => exact layout_nil
  | cons first rest =>
    rw [layout]
    split
    · next heq => rw [h] at heq; cases heq
    · rfl
    · next heq => rw [h] at heq; cases heq

theorem layout_of_noMatch {first : UInt8} {rest : List UInt8}
    (h : recognize (first :: rest) = .noMatch) :
    layout (first :: rest) = (.stray first :: (layout rest).1, (layout rest).2) := by
  rw [layout]
  split
  · next heq => rw [h] at heq; cases heq
  · next heq => rw [h] at heq; cases heq
  · rfl

/-- **A layout is found in parts**: first that of the beginning, then that of what had to wait
together with what follows. -/
theorem layout_append (x y : List UInt8) :
    layout (x ++ y) = ((layout x).1 ++ (layout ((layout x).2 ++ y)).1,
      (layout ((layout x).2 ++ y)).2) := by
  fun_induction layout x with
  | case1 => rfl
  | case2 first rest p n hr _ _ ih =>
    have hle := (of_recognize_frame hr).2
    rw [layout_of_frame (recognize_append_of_frame y hr), List.take_append_of_le_length hle,
      List.drop_append_of_le_length hle, ih]
    rfl
  | case3 first rest hr => rfl
  | case4 first rest hr ih =>
    rw [List.cons_append, layout_of_noMatch (recognize_append_of_noMatch y hr), ih]
    rfl

/-- Bytes that leave nothing waiting are laid out on their own. -/
theorem layout_append_of_whole {x : List UInt8} (y : List UInt8) (h : (layout x).2 = []) :
    layout (x ++ y) = ((layout x).1 ++ (layout y).1, (layout y).2) := by
  rw [layout_append, h, List.nil_append]

/-! ### Messages -/

/-- The parts of a byte string that a message takes up. -/
def Message.pieces (m : Message) : List Piece :=
  if m.protocol = .garbage then m.data.map .stray else [.frame m.protocol m.data]

theorem layout_of_garbage? {passed n : Nat} {p : Protocol} (l y : List UInt8)
    (h : garbage? passed = some (p, n)) :
    p = .garbage ∧ ∃ k, n = passed + k ∧ k ≤ l.length ∧
      layout (l ++ y) = ((l.take k).map .stray ++ (layout (l.drop k ++ y)).1,
        (layout (l.drop k ++ y)).2) := by
  obtain ⟨rfl, rfl, -⟩ := Demux.garbage?_eq_some h
  exact ⟨rfl, 0, rfl, Nat.zero_le _, rfl⟩

/-- The search for the end of a run of garbage passes stray bytes only. -/
theorem layout_of_cut_passed {passed n : Nat} {l : List UInt8} {p : Protocol} (y : List UInt8)
    (hpassed : 0 < passed) (h : cut passed l = some (p, n)) :
    p = .garbage ∧ ∃ k, n = passed + k ∧ k ≤ l.length ∧
      layout (l ++ y) = ((l.take k).map .stray ++ (layout (l.drop k ++ y)).1,
        (layout (l.drop k ++ y)).2) := by
  induction l generalizing passed with
  | nil => exact layout_of_garbage? [] y h
  | cons first rest ih =>
    unfold cut at h
    split at h
    · exact layout_of_garbage? _ y h
    · split at h
      · rw [if_neg (by omega)] at h
        exact layout_of_garbage? _ y h
      · exact layout_of_garbage? _ y h
      · next hr =>
        obtain ⟨rfl, k, hn, hk, hlayout⟩ := ih (by omega) h
        refine ⟨rfl, k + 1, by omega, by simpa using hk, ?_⟩
        rw [List.cons_append, layout_of_noMatch (recognize_append_of_noMatch y hr), hlayout]
        rfl

/-- What is cut off the start of a buffer is the start of the layout, and more bytes do not change
that. -/
theorem layout_of_cut {l : List UInt8} {p : Protocol} {n : Nat} (seq : UInt32) (y : List UInt8)
    (h : cut 0 l = some (p, n)) :
    n ≤ l.length ∧
      layout (l ++ y) = (Message.pieces ⟨p, l.take n, seq⟩ ++ (layout (l.drop n ++ y)).1,
        (layout (l.drop n ++ y)).2) := by
  cases l with
  | nil => cases h
  | cons first rest =>
    unfold cut at h
    rw [if_neg (by decide)] at h
    split at h
    · next q k hr =>
      rw [if_pos rfl] at h
      cases h
      obtain ⟨hp, hle⟩ := of_recognize_frame hr
      refine ⟨hle, ?_⟩
      rw [layout_of_frame (recognize_append_of_frame y hr), List.take_append_of_le_length hle,
        List.drop_append_of_le_length hle, Message.pieces, if_neg hp]
      rfl
    · cases h
    · next hr =>
      obtain ⟨rfl, k, hn, hk, hlayout⟩ := layout_of_cut_passed y (by omega) h
      obtain rfl : n = k + 1 := by omega
      refine ⟨by simpa using hk, ?_⟩
      rw [List.cons_append, layout_of_noMatch (recognize_append_of_noMatch y hr), hlayout]
      rfl

theorem garbage?_ne_none {passed : Nat} (hpassed : 0 < passed) : garbage? passed ≠ none := by
  rw [garbage?, if_neg (by omega)]
  exact Option.some_ne_none _

/-- A run of garbage that has begun ends somewhere. -/
theorem cut_ne_none_of_passed {passed : Nat} (l : List UInt8) (hpassed : 0 < passed) :
    cut passed l ≠ none := by
  induction l generalizing passed with
  | nil => exact garbage?_ne_none hpassed
  | cons first rest ih =>
    unfold cut
    split
    · exact garbage?_ne_none hpassed
    · split
      · rw [if_neg (by omega)]
        exact garbage?_ne_none hpassed
      · exact garbage?_ne_none hpassed
      · exact ih (Nat.succ_pos passed)

/-- Where nothing can be cut off, everything waits. -/
theorem layout_of_cut_eq_none {l : List UInt8} (h : cut 0 l = none) : layout l = ([], l) := by
  cases l with
  | nil => exact layout_nil
  | cons first rest =>
    unfold cut at h
    rw [if_neg (by decide)] at h
    split at h
    · cases h
    · next hr => exact layout_of_needMore hr
    · exact absurd h (cut_ne_none_of_passed rest (by omega))

namespace Demux

/-- The next message is the start of the layout, and more bytes do not change that. -/
theorem layout_of_next? {d d' : Demux} {m : Message} (y : List UInt8)
    (h : d.next? = some (m, d')) :
    layout (d.buffer ++ y) = (m.pieces ++ (layout (d'.buffer ++ y)).1,
      (layout (d'.buffer ++ y)).2) := by
  obtain ⟨⟨p, n⟩, hcut, hemit⟩ := Option.map_eq_some_iff.mp h
  cases hemit
  exact (layout_of_cut _ y hcut).2

theorem layout_of_next?_eq_none {d : Demux} (h : d.next? = none) :
    layout d.buffer = ([], d.buffer) :=
  layout_of_cut_eq_none (Option.map_eq_none_iff.mp h)

/-- Cutting off a message leaves the rest of the bytes. -/
theorem data_append_of_next? {d d' : Demux} {m : Message} (h : d.next? = some (m, d')) :
    m.data ++ d'.buffer = d.buffer := by
  obtain ⟨⟨p, n⟩, -, hemit⟩ := Option.map_eq_some_iff.mp h
  cases hemit
  exact List.take_append_drop n d.buffer

theorem drain_of_next? {d d' : Demux} {m : Message} (h : d.next? = some (m, d')) :
    d.drain = (m :: d'.drain.1, d'.drain.2) := by
  rw [drain]
  split
  · next hnone => rw [h] at hnone; cases hnone
  · next hsome =>
    rw [h] at hsome
    cases hsome
    rfl

theorem drain_of_next?_eq_none {d : Demux} (h : d.next? = none) : d.drain = ([], d) := by
  rw [drain]
  split
  · rfl
  · next hsome => rw [h] at hsome; cases hsome

/-- **Reading all messages gives the layout** of what was buffered. -/
theorem layout_of_drain (d : Demux) :
    layout d.buffer = (d.drain.1.flatMap Message.pieces, d.drain.2.buffer) := by
  fun_induction drain d with
  | case1 d hnext => exact layout_of_next?_eq_none hnext
  | case2 d m d' hnext _ ih =>
    have hstart := layout_of_next? [] hnext
    rw [List.append_nil, List.append_nil, ih] at hstart
    rw [hstart]
    rfl

/-- Reading all messages loses no byte. -/
theorem flatMap_data_append_drain (d : Demux) :
    d.drain.1.flatMap Message.data ++ d.drain.2.buffer = d.buffer := by
  fun_induction drain d with
  | case1 d hnext => rfl
  | case2 d m d' hnext _ ih =>
    rw [List.flatMap_cons, List.append_assoc, ih]
    exact data_append_of_next? hnext

end Demux
end GnssLink.Stream
