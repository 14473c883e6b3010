import GnssLink.Proofs.Frame.RoundTrip
/-!
# GnssLink.Proofs.Frame.Damage

**A frame with one byte replaced, or with two neighbours exchanged, is no frame**
(`exists_error_of_damage`), wherever in the frame that happens.

What decodes is written as a frame, so it is enough that no two frames are so close to each other.
Behind the sync bytes they are byte strings followed by their checksums (`Checksum.checked`), and of
these no two are one damage apart (`Checksum.not_damaged_checked`): a byte that differs makes the
checksums differ from there on, and the bytes after it, being the same, do not make up for it
(`Checksum.foldl_add_injective`). The length field needs no argument of its own.
-/

namespace GnssLink

/-- The second byte string is the first with one byte replaced by another one, or with two different
neighbours exchanged. -/
inductive Damaged : List UInt8 → List UInt8 → Prop where
  | replaced {x y : UInt8} (other : x ≠ y) (back : List UInt8) : Damaged (x :: back) (y :: back)
  | exchanged {x y : UInt8} (other : x ≠ y) (back : List UInt8) :
      Damaged (x :: y :: back) (y :: x :: back)
  | later (b : UInt8) {l l' : List UInt8} (h : Damaged l l') : Damaged (b :: l) (b :: l')

namespace Damaged

variable {l l' : List UInt8}

theorem length_eq (h : Damaged l l') : l.length = l'.length := by
  induction h with
  | replaced _ back => rfl
  | exchanged _ back => rfl
  | later b _ ih => rw [List.length_cons, List.length_cons, ih]

theorem append (front : List UInt8) (h : Damaged l l') : Damaged (front ++ l) (front ++ l') := by
  induction front with
  | nil => exact h
  | cons b front ih => exact .later b ih

theorem ne (h : Damaged l l') : l ≠ l' := by
  induction h with
  | replaced other back => exact fun heq => other (List.cons.inj heq).1
  | exchanged other back => exact fun heq => other (List.cons.inj heq).1
  | later b _ ih => exact fun heq => ih (List.cons.inj heq).2

/-- Byte strings are damaged where they begin, or later. -/
theorem cons_cases {b b' : UInt8} (h : Damaged (b :: l) (b' :: l')) :
    (b ≠ b' ∧ (l = l' ∨ ∃ back, l = b' :: back ∧ l' = b :: back)) ∨ (b = b' ∧ Damaged l l') := by
  cases h with
  | replaced other _ => exact .inl ⟨other, .inl rfl⟩
  | exchanged other back => exact .inl ⟨other, .inr ⟨back, rfl, rfl⟩⟩
  | later _ h => exact .inr ⟨rfl, h⟩

theorem of_cons {b : UInt8} (h : Damaged (b :: l) (b :: l')) : Damaged l l' := by
  rcases h.cons_cases with ⟨hother, -⟩ | ⟨-, h⟩
  · exact absurd rfl hother
  · exact h

end Damaged

/-! ### Checksums -/

namespace Checksum

variable {c c' : Checksum} {x y : UInt8}

/-- The same byte keeps two checksums apart. -/
theorem add_injective (h : c.add x = c'.add x) : c = c' := by
  obtain ⟨a, b⟩ := c
  obtain ⟨a', b'⟩ := c'
  simp only [add, mk.injEq] at h
  obtain ⟨ha, hb⟩ := h
  obtain rfl : a = a' := by simpa using ha
  obtain rfl : b = b' := by simpa using hb
  rfl

/-- Different bytes drive the same checksum apart. -/
theorem add_left_injective (h : c.add x = c.add y) : x = y := by
  have ha : c.a + x = c.a + y := congrArg Checksum.a h
  simpa using ha

/-- Equal bytes do not make up for a difference. -/
theorem foldl_add_injective (l : List UInt8) (h : l.foldl add c = l.foldl add c') : c = c' := by
  induction l generalizing c c' with
  | nil => exact h
  | cons b l ih => exact add_injective (ih h)

/-- The second sum depends on the order of two bytes, unless they are the same. -/
theorem eq_of_add_add (h : (c.add x).add y = (c.add y).add x) : x = y := by
  have hb : c.b + (c.a + x) + (c.a + x + y) = c.b + (c.a + y) + (c.a + y + x) :=
    congrArg Checksum.b h
  have hsum : c.a + x + y = c.a + y + x := by
    rw [UInt8.add_assoc, UInt8.add_comm x y, ← UInt8.add_assoc]
  rw [hsum] at hb
  simpa using hb

theorem toBytes_injective (h : c.toBytes = c'.toBytes) : c = c' := by
  obtain ⟨a, b⟩ := c
  obtain ⟨a', b'⟩ := c'
  simpa [toBytes] using h

/-- Bytes followed by the checksum after them. The checksum goes on from a given one. -/
def checked (c : Checksum) (body : List UInt8) : List UInt8 := body ++ (body.foldl add c).toBytes

variable {body body' : List UInt8}

theorem checked_cons (c : Checksum) (b : UInt8) (body : List UInt8) :
    c.checked (b :: body) = b :: (c.add b).checked body := rfl

@[simp] theorem length_checked (c : Checksum) (body : List UInt8) :
    (c.checked body).length = body.length + 2 := by
  rw [checked, List.length_append, length_toBytes]

/-- Checked bytes tell what they are and where their checksum came from. -/
theorem checked_injective (h : c.checked body = c'.checked body') : c = c' ∧ body = body' := by
  obtain ⟨rfl, hsum⟩ := List.append_inj' h rfl
  exact ⟨foldl_add_injective body (toBytes_injective hsum), rfl⟩

/-- Two neighbours at the start of checked bytes, the second of which may belong to the checksum. -/
theorem eq_of_exchanged {back : List UInt8} (h : (c.add x).checked body = y :: back)
    (h' : (c.add y).checked body' = x :: back) : x = y := by
  have hlength : body.length = body'.length := by
    have hback := (congrArg List.length h).trans (congrArg List.length h').symm
    simpa using hback
  cases body with
  | nil =>
    obtain rfl := List.length_eq_zero_iff.mp hlength.symm
    -- the second sum is the byte after the two, and it has taken in one of them
    have hsum : [(c.add x).b] = [(c.add y).b] := (List.cons.inj h).2.trans (List.cons.inj h').2.symm
    simpa [add] using hsum
  | cons z more =>
    cases body' with
    | nil => cases hlength
    | cons z' more' =>
      rw [checked_cons] at h h'
      obtain ⟨rfl, hmore⟩ := List.cons.inj h
      obtain ⟨rfl, hmore'⟩ := List.cons.inj h'
      exact eq_of_add_add (checked_injective (hmore.trans hmore'.symm)).1

/-- **No two checked byte strings are one damage apart.** -/
theorem not_damaged_checked (c : Checksum) (body body' : List UInt8) :
    ¬Damaged (c.checked body) (c.checked body') := by
  intro h
  have hlength : body.length = body'.length := by simpa using h.length_eq
  -- byte by byte, with the checksum of what is behind us: damage is here or further on
  induction body generalizing c body' with
  | nil =>
    obtain rfl := List.length_eq_zero_iff.mp hlength.symm
    exact h.ne rfl
  | cons x more ih =>
    cases body' with
    | nil => cases hlength
    | cons y more' =>
      rw [checked_cons, checked_cons] at h
      rcases h.cons_cases with ⟨hother, hsame | ⟨back, hback, hback'⟩⟩ | ⟨rfl, hlater⟩
      · exact hother (add_left_injective (checked_injective hsame).1)
      · exact hother (eq_of_exchanged hback hback')
      · exact ih (c.add x) more' hlater (Nat.succ.inj hlength)

end Checksum

/-! ### Frames -/

namespace Frame

theorem encode_eq_checked (f : Frame) :
    f.encode = sync1 :: sync2 :: ({} : Checksum).checked f.body := rfl

/-- What decodes is a frame, and no frame is one damage away from another. -/
theorem exists_error_of_damaged {f : Frame} {data : List UInt8} (h : Damaged f.encode data) :
    ∃ e, decode data = .error e := by
  cases hdecode : decode data with
  | error e => exact ⟨e, rfl⟩
  | ok g =>
    obtain ⟨-, rfl⟩ := eq_encode_of_decode hdecode
    rw [encode_eq_checked, encode_eq_checked] at h
    exact absurd h.of_cons.of_cons (Checksum.not_damaged_checked {} f.body g.body)

/-- **Damage is detected**, wherever it is and however long the frame: one byte replaced by any
other one, or two neighbours exchanged that differ. -/
theorem exists_error_of_damage (f : Frame) (front back : List UInt8) (x y : UInt8)
    (hother : x ≠ y) :
    (f.encode = front ++ x :: back → ∃ e, decode (front ++ y :: back) = .error e)
      ∧ (f.encode = front ++ x :: y :: back →
        ∃ e, decode (front ++ y :: x :: back) = .error e) := by
  have hdamaged {l l' : List UInt8} (hframe : f.encode = front ++ l) (h : Damaged l l') :
      ∃ e, decode (front ++ l') = .error e := by
    have hwhole := h.append front
    rw [← hframe] at hwhole
    exact exists_error_of_damaged hwhole
  refine ⟨?_, ?_⟩
  · intro hframe
    exact hdamaged hframe (.replaced hother back)
  · intro hframe
    exact hdamaged hframe (.exchanged hother back)

/-- An acknowledgement of which the bytes before the last add up to 128. If the last one and the
first check byte are exchanged, the first sum is right all the same. -/
def evenAck : Frame := ⟨⟨0x05, 0x01⟩, [0x78, 0x01]⟩

theorem exists_error_of_damage_evenAck :
    evenAck.encode = [0xb5, 0x62, 0x05, 0x01, 0x02, 0x00, 0x78] ++ 0x01 :: 0x81 :: [0x1c]
      ∧ (0x01 : UInt8) ≠ 0x81
      ∧ (∃ e, decode ([0xb5, 0x62, 0x05, 0x01, 0x02, 0x00, 0x78] ++ 0x81 :: 0x81 :: [0x1c])
        = .error e)
      ∧ ∃ e, decode ([0xb5, 0x62, 0x05, 0x01, 0x02, 0x00, 0x78] ++ 0x81 :: 0x01 :: [0x1c])
        = .error e := by
  have hframe : evenAck.encode
      = [0xb5, 0x62, 0x05, 0x01, 0x02, 0x00, 0x78] ++ 0x01 :: 0x81 :: [0x1c] := by decide
  have hother : (0x01 : UInt8) ≠ 0x81 := by decide
  refine ⟨hframe, hother, ?_, ?_⟩
  · exact (exists_error_of_damage evenAck _ _ _ _ hother).1 hframe
  · exact (exists_error_of_damage evenAck _ _ _ _ hother).2 hframe

end Frame
end GnssLink
