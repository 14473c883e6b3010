import GnssLink.Bytes.Access
import GnssLink.Proofs.Stream.Bookkeeping
import GnssLink.Proofs.Stream.Segments
/-!
# GnssLink.Proofs.Stream.WithinBuffer

**Cutting a stream into messages looks at bytes of the buffer only.** The recognisers take a buffer
apart by its shape. Here each is given once more as one goes through a buffer by positions, where
every byte, every part and every difference of positions may be missing, and so is what is built on
them.

* No recogniser misses anything, whatever the buffer holds, and the verdict is the same
  (`recognize?_eq`). The sentence is the delicate one: the bytes before its end are there because
  what is too short was sorted out before they are looked at (`Nmea.close?_eq`).
* So the next message is found (`cutFrom?_eq`) and cut off (`Demux.emit?_eq`) within the buffer. The
  counters can count it if there are not too many messages.
* This goes for any use of a stream (`Demux.attemptAll?_eq`).
-/

namespace GnssLink.Stream

/-- What is left after a drop stands where the drop ended. -/
theorem getElem?_of_drop {α : Type} {l rest : List α} {n : Nat} (h : l.drop n = rest) (i : Nat) :
    l[n + i]? = rest[i]? := by
  rw [← h, List.getElem?_drop]

/-! ### UBX -/

/-- What stands at the start of a buffer whose first byte is the first sync byte. -/
def Ubx.recognize? (buffer : List UInt8) : Option Verdict :=
  if buffer.length < 2 then some .needMore
  else do
    let second : UInt8 ← buffer[1]?
    if second ≠ Frame.sync2 then return .noMatch
    if buffer.length < 6 then return .needMore
    let len0 : UInt8 ← buffer[4]?
    let len1 : UInt8 ← buffer[5]?
    let size := LittleEndian.decode [len0, len1]
    if maxPayload < size then return .noMatch
    if buffer.length < size + Frame.overhead then return .needMore
    let covered ← slice? buffer 2 (size + 6)
    let a : UInt8 ← buffer[size + 6]?
    let b : UInt8 ← buffer[size + 7]?
    if Checksum.ofBytes covered = ⟨a, b⟩ then return .frame .ubx (size + Frame.overhead)
    return .noMatch

theorem Ubx.recognize?_eq (buffer : List UInt8) : recognize? buffer = some (recognize buffer) := by
  rcases buffer with _ | ⟨first, _ | ⟨second, rest⟩⟩
  · rfl
  · rfl
  · have htwo : ¬(first :: second :: rest).length < 2 := by simp
    simp only [recognize?, if_neg htwo, List.getElem?_cons_succ, List.getElem?_cons_zero,
      Option.bind_eq_bind, Option.bind_some, recognize]
    by_cases hsync : second ≠ Frame.sync2
    · rw [if_pos hsync, if_pos hsync]
      rfl
    · rw [if_neg hsync, if_neg hsync]
      rcases rest with _ | ⟨cls, _ | ⟨num, _ | ⟨len0, _ | ⟨len1, rest⟩⟩⟩⟩
      -- a buffer that is too short for its size
      iterate 4 rfl
      have hsix : ¬(first :: second :: cls :: num :: len0 :: len1 :: rest).length < 6 := by simp
      simp only [if_neg hsix, List.getElem?_cons_succ, List.getElem?_cons_zero, Option.bind_some]
      obtain ⟨size, hsize⟩ : ∃ size, size = LittleEndian.decode [len0, len1] := ⟨_, rfl⟩
      rw [← hsize]
      by_cases hlong : maxPayload < size
      · rw [if_pos hlong, if_pos hlong]
        rfl
      · rw [if_neg hlong, if_neg hlong]
        have hshort (hfew : (rest.drop size).length < 2) :
            (first :: second :: cls :: num :: len0 :: len1 :: rest).length
              < size + Frame.overhead := by
          simp only [List.length_drop] at hfew
          simp only [List.length_cons, Frame.overhead]
          omega
        rcases hdrop : rest.drop size with _ | ⟨a, _ | ⟨b, after⟩⟩
        · rw [if_pos (hshort (by simp [hdrop]))]
          rfl
        · rw [if_pos (hshort (by simp [hdrop]))]
          rfl
        · have hle := le_length_of_drop_eq_cons hdrop
          simp only [List.length_cons] at hle
          have hslice : slice? (first :: second :: cls :: num :: len0 :: len1 :: rest) 2 (size + 6)
              = some (cls :: num :: len0 :: len1 :: rest.take size) := by
            rw [slice?_eq_some (by omega) (by simp only [List.length_cons]; omega)]
            rfl
          have ha := getElem?_of_drop hdrop 0
          have hb := getElem?_of_drop hdrop 1
          rw [Nat.add_zero] at ha
          rw [if_neg, hslice, ha, hb]
          · simp only [Option.bind_some, List.getElem?_cons_zero, List.getElem?_cons_succ]
            split <;> rfl
          · simp only [List.length_cons, Frame.overhead]
            omega

/-! ### RTCM3 -/

/-- What stands at the start of a buffer whose first byte is the sync byte. -/
def Rtcm3.recognize? (buffer : List UInt8) : Option Verdict :=
  if buffer.length < headSize then some .needMore
  else do
    let high : UInt8 ← buffer[1]?
    let low : UInt8 ← buffer[2]?
    if 4 ≤ high then return .noMatch
    let bodySize := 256 * high.toNat + low.toNat + headSize
    if buffer.length < bodySize + 3 then return .needMore
    let body ← slice? buffer 0 bodySize
    let c0 : UInt8 ← buffer[bodySize]?
    let c1 : UInt8 ← buffer[bodySize + 1]?
    let c2 : UInt8 ← buffer[bodySize + 2]?
    if Crc24.toBytes (Crc24.ofBytes body) = [c0, c1, c2] then return .frame .rtcm3 (bodySize + 3)
    return .noMatch

theorem Rtcm3.recognize?_eq (buffer : List UInt8) :
    recognize? buffer = some (recognize buffer) := by
  rcases buffer with _ | ⟨first, _ | ⟨high, _ | ⟨low, rest⟩⟩⟩
  · rfl
  · rfl
  · rfl
  · have hthree : ¬(first :: high :: low :: rest).length < headSize := by simp [headSize]
    simp only [recognize?, if_neg hthree, List.getElem?_cons_succ, List.getElem?_cons_zero,
      Option.bind_eq_bind, Option.bind_some, recognize]
    by_cases hhigh : 4 ≤ high
    · rw [if_pos hhigh, if_pos hhigh]
      rfl
    · rw [if_neg hhigh, if_neg hhigh]
      obtain ⟨size, hsize⟩ : ∃ size, size = 256 * high.toNat + low.toNat := ⟨_, rfl⟩
      rw [← hsize]
      have hshort (hfew : (rest.drop size).length < 3) :
          (first :: high :: low :: rest).length < size + headSize + 3 := by
        simp only [List.length_drop] at hfew
        simp only [List.length_cons, headSize]
        omega
      rcases hdrop : rest.drop size with _ | ⟨c0, _ | ⟨c1, _ | ⟨c2, after⟩⟩⟩
      · rw [if_pos (hshort (by simp [hdrop]))]
        rfl
      · rw [if_pos (hshort (by simp [hdrop]))]
        rfl
      · rw [if_pos (hshort (by simp [hdrop]))]
        rfl
      · have hle := le_length_of_drop_eq_cons hdrop
        simp only [List.length_cons] at hle
        have hslice : slice? (first :: high :: low :: rest) 0 (size + headSize)
            = some (first :: high :: low :: rest.take size) := by
          rw [slice?_zero (by simp only [List.length_cons, headSize]; omega)]
          rfl
        have h0 : (first :: high :: low :: rest)[size + headSize]? = some c0 :=
          getElem?_of_drop hdrop 0
        have h1 : (high :: low :: rest)[size + headSize]? = some c1 := getElem?_of_drop hdrop 1
        have h2 : (low :: rest)[size + headSize]? = some c2 := getElem?_of_drop hdrop 2
        rw [if_neg, hslice, h0, h1, h2]
        · simp only [Option.bind_some]
          split <;> rfl
        · simp only [List.length_cons, headSize]
          omega

/-! ### NMEA -/

/-- What stands at the start of a buffer in which the byte at a position is the first carriage
return. The star and the check digits stand before it. -/
def Nmea.close? (buffer : List UInt8) (position : Nat) : Option Verdict :=
  if buffer.length < position + 2 then some .needMore
  else do
    let last : UInt8 ← buffer[position + 1]?
    if last ≠ lf then return .noMatch
    if position + 2 < minLine + 3 then return .noMatch
    let mark : UInt8 ← buffer[← sub? position 3]?
    if mark ≠ star then return .noMatch
    let high : UInt8 ← buffer[← sub? position 2]?
    let low : UInt8 ← buffer[← sub? position 1]?
    match digits? high low with
    | none => return .noMatch
    | some check =>
      let body ← slice? buffer 1 (← sub? position 3)
      if (parity body).toNat = check then return .frame .nmea (position + 2)
      return .noMatch

/-- Goes through a buffer from a position on; the bytes from there on are given. -/
def Nmea.scan? (buffer : List UInt8) : Nat → List UInt8 → Option Verdict
  | _, [] => some .needMore
  | position, b :: rest =>
    if maxLine < position then some .noMatch
    else if b = cr then close? buffer position
    else if isText b then scan? buffer (position + 1) rest
    else some .noMatch

/-- What stands at the start of a buffer whose first byte is a dollar sign. -/
def Nmea.recognize? (buffer : List UInt8) : Option Verdict := scan? buffer 1 buffer.tail

theorem exists_eq_append_three {α : Type} {l : List α} (h : 3 ≤ l.length) :
    ∃ front a b c, l = front ++ [a, b, c] := by
  have hthree : (l.drop (l.length - 3)).length = 3 := by
    rw [List.length_drop]
    omega
  obtain ⟨a, b, c, hlast⟩ := List.length_eq_three.mp hthree
  exact ⟨l.take (l.length - 3), a, b, c, by rw [← hlast, List.take_append_drop]⟩

/-- The end of a line that may be a sentence. -/
theorem Nmea.close?_eq (first : UInt8) (line after : List UInt8) :
    close? (first :: (line ++ cr :: after)) (line.length + 1)
      = some (match after with
        | [] => .needMore
        | last :: _ =>
          if last = lf ∧ minLine ≤ line.length ∧ isSealed line then .frame .nmea (line.length + 3)
          else .noMatch) := by
  unfold close?
  match after with
  | [] =>
    rw [if_pos]
    simp
  | last :: more =>
    have hlong : ¬(first :: (line ++ cr :: last :: more)).length < line.length + 1 + 2 := by
      simp
    have hlast : (first :: (line ++ cr :: last :: more))[line.length + 1 + 1]? = some last := by
      simp
    rw [if_neg hlong, hlast]
    simp only [Option.bind_eq_bind, Option.bind_some]
    by_cases hlf : last = lf
    · rw [if_neg (not_not_intro hlf)]
      by_cases hmin : minLine ≤ line.length
      · rw [if_neg (by omega)]
        -- the last three bytes of the line are there, because the line is long enough
        obtain ⟨body, mark, high, low, rfl⟩ :=
          exists_eq_append_three (Nat.le_trans (by decide) hmin)
        have hposition : (body ++ [mark, high, low]).length + 1 = body.length + 4 := by simp
        have hmark : (first :: (body ++ [mark, high, low] ++ cr :: last :: more))[body.length + 1]?
            = some mark := by simp
        have hhigh : (first :: (body ++ [mark, high, low] ++ cr :: last :: more))[body.length + 2]?
            = some high := by simp
        have hlow : (first :: (body ++ [mark, high, low] ++ cr :: last :: more))[body.length + 3]?
            = some low := by simp
        have hbody : slice? (first :: (body ++ [mark, high, low] ++ cr :: last :: more)) 1
            (body.length + 1) = some body := by
          rw [slice?_eq_some (by omega) (by simp)]
          simp
        rw [hposition, sub?_eq_some (by omega), sub?_eq_some (by omega), sub?_eq_some (by omega)]
        simp only [Option.bind_some, Nat.reduceSubDiff, hmark, hhigh, hlow, hbody, isSealed_eq]
        by_cases hstar : mark = star
        · rw [if_neg (not_not_intro hstar), hstar]
          cases digits? high low with
          | none => simp
          | some check =>
            by_cases hcheck : (parity body).toNat = check
            · have hlong : minLine ≤ body.length + 3 := by simpa using hmin
              simp [hlf, hcheck, hlong]
            · have hother : check ≠ (parity body).toNat := Ne.symm hcheck
              simp [hcheck, hother]
        · simp [hstar]
      · rw [if_pos (by omega), if_neg (fun h => hmin h.2.1)]
        rfl
    · rw [if_pos hlf, if_neg (fun h => hlf h.1)]
      rfl

/-- What was passed belongs to the line, which goes on as long as there is text. -/
theorem Nmea.takeWhile_isText_of_passed {line : List UInt8} (rest : List UInt8)
    (htext : ∀ b ∈ line, isText b = true) (hline : line.length ≤ maxLine) :
    ((line ++ rest).take maxLine).takeWhile isText
      = line ++ (rest.take (maxLine - line.length)).takeWhile isText := by
  rw [List.take_append, List.take_of_length_le hline, List.takeWhile_append_of_pos htext]

/-- Going through a line byte by byte comes to the same end as taking the text off its start. -/
theorem Nmea.scan?_eq (first : UInt8) (line rest : List UInt8) (htext : ∀ b ∈ line, isText b = true)
    (hline : line.length ≤ maxLine) :
    scan? (first :: (line ++ rest)) (line.length + 1) rest
      = some (recognizeTail (line ++ rest)) := by
  -- what was passed moves from the rest to the line, byte by byte
  induction rest generalizing line with
  | nil =>
    have hpassed := takeWhile_isText_of_passed [] htext hline
    rw [List.take_nil, List.takeWhile_nil, List.append_nil] at hpassed
    rw [List.append_nil, recognizeTail, hpassed, List.drop_length]
    rfl
  | cons b rest ih =>
    have hpassed := takeWhile_isText_of_passed (b :: rest) htext hline
    unfold scan?
    by_cases hfull : maxLine < line.length + 1
    · have hlength : line.length = maxLine := by omega
      rw [hlength, Nat.sub_self, List.take_zero, List.takeWhile_nil, List.append_nil] at hpassed
      rw [if_pos hfull, recognizeTail, hpassed, List.drop_left' rfl]
      simp only [hlength, true_or, if_true]
    · rw [if_neg hfull]
      by_cases htextb : isText b = true
      · have hcr : b ≠ cr := by
          rintro rfl
          cases htextb
        have hmore : ∀ b' ∈ line ++ [b], isText b' = true := by
          simpa [or_imp, forall_and, htextb] using htext
        have hrest := ih (line ++ [b]) hmore (by simp; omega)
        rw [List.length_append, List.length_singleton, List.append_assoc] at hrest
        rw [if_neg hcr, if_pos htextb]
        exact hrest
      · obtain ⟨room, hroom⟩ : ∃ room, maxLine - line.length = room + 1 :=
          Nat.exists_eq_succ_of_ne_zero (by omega)
        rw [hroom, List.take_succ_cons, List.takeWhile_cons_of_neg htextb,
          List.append_nil] at hpassed
        have hshort : line.length ≠ maxLine := by omega
        rw [recognizeTail, hpassed, List.drop_left' rfl]
        by_cases hcr : b = cr
        · have hgoes : ¬(line.length = maxLine ∨ cr ≠ cr) := by simp [hshort]
          rw [if_pos hcr, hcr, close?_eq]
          exact congrArg some (if_neg hgoes).symm
        · rw [if_neg hcr, if_neg htextb]
          simp only [hcr, ne_eq, not_false_eq_true, or_true, if_true]

theorem Nmea.recognize?_eq {buffer : List UInt8} (h : buffer ≠ []) :
    recognize? buffer = some (recognize buffer) := by
  obtain ⟨first, tail, rfl⟩ := List.exists_cons_of_ne_nil h
  exact scan?_eq first [] tail nofun (Nat.zero_le _)

/-! ### Buffers and streams -/

/-- What stands at the start of a buffer. -/
def recognize? (buffer : List UInt8) : Option Verdict := do
  let first : UInt8 ← buffer[0]?
  if first = Frame.sync1 then Ubx.recognize? buffer
  else if first = Nmea.dollar then Nmea.recognize? buffer
  else if first = Rtcm3.sync then Rtcm3.recognize? buffer
  else return .noMatch

/-- Some byte is there, and it says which recogniser goes on. -/
theorem recognize?_eq {buffer : List UInt8} (h : buffer ≠ []) :
    recognize? buffer = some (recognize buffer) := by
  have hnmea := Nmea.recognize?_eq h
  obtain ⟨first, rest, rfl⟩ := List.exists_cons_of_ne_nil h
  simp only [recognize?, List.getElem?_cons_zero, Option.bind_eq_bind, Option.bind_some, recognize]
  split
  · exact Ubx.recognize?_eq _
  · split
    · exact hnmea
    · split
      · exact Rtcm3.recognize?_eq _
      · rfl

/-- The protocol and length of the next message, where no frame starts before a position. -/
def cutFrom? (buffer : List UInt8) (position : Nat) : Option (Option (Protocol × Nat)) :=
  if position < buffer.length then
    if maxGarbage ≤ position then some (garbage? position)
    else do
      match ← recognize? (← slice? buffer position buffer.length) with
      | .frame protocol length =>
        return if position = 0 then some (protocol, length) else garbage? position
      | .needMore => return garbage? position
      | .noMatch => cutFrom? buffer (position + 1)
  else some (garbage? position)
termination_by buffer.length - position

theorem cutFrom?_eq {buffer : List UInt8} {position : Nat} (h : position ≤ buffer.length) :
    cutFrom? buffer position = some (cut position (buffer.drop position)) := by
  fun_induction cutFrom? buffer position with
  | case1 position hlt hfull =>
    rw [List.drop_eq_getElem_cons hlt, cut, if_pos hfull]
  | case2 position hlt hfull ih =>
    have hdrop := List.drop_eq_getElem_cons hlt
    have hne : buffer.drop position ≠ [] := by
      rw [hdrop]
      exact List.cons_ne_nil _ _
    rw [slice?_length h]
    simp only [Option.bind_eq_bind, Option.bind_some, recognize?_eq hne]
    rw [hdrop, cut, if_neg hfull, ← hdrop]
    cases recognize (buffer.drop position) with
    | frame protocol length => rfl
    | needMore => rfl
    | noMatch => exact ih hlt
  | case3 position hend =>
    rw [List.drop_of_length_le (Nat.le_of_not_lt hend)]
    rfl

/-- With one more message of the given size, if the words can count it. -/
def Traffic.add? (t : Traffic) (size : Nat) : Option Traffic :=
  if t.count.toNat + 1 < UInt32.size ∧ t.bytes.toNat + size < UInt64.size then some (t.add size)
  else none

/-- With one more message, if the words can count it. -/
def Tally.add? (t : Tally) (protocol : Protocol) (size : Nat) : Option Tally := do
  let row ← (t.get protocol).add? size
  let total ← t.total.add? size
  match protocol with
  | .ubx => return { t with ubx := row, total }
  | .nmea => return { t with nmea := row, total }
  | .rtcm3 => return { t with rtcm3 := row, total }
  | .garbage => return { t with garbage := row, total }

/-- Words that can count a message count it in its row and in the total. -/
theorem Tally.add?_eq {t : Tally} {protocol : Protocol} {size : Nat}
    (hrow : (t.get protocol).add? size = some ((t.get protocol).add size))
    (htotal : t.total.add? size = some (t.total.add size)) :
    t.add? protocol size = some (t.add protocol size) := by
  rw [add?, hrow, htotal]
  cases protocol <;> rfl

namespace Demux

/-- Cuts off a message. -/
def emit? (d : Demux) (protocol : Protocol) (length : Nat) : Option (Message × Demux) := do
  let data ← slice? d.buffer 0 length
  let buffer ← slice? d.buffer length d.buffer.length
  let tally ← d.tally.add? protocol data.length
  return ({ protocol, data, seq := d.seq + 1 }, { buffer, seq := d.seq + 1, tally })

/-- Carries out an operation, as far as its accesses hit. -/
def attempt? (d : Demux) : Operation → Option (Option Output × Demux)
  | .add data => some (none, d.add data)
  | .next => do
    match ← cutFrom? d.buffer 0 with
    | some (protocol, length) =>
      let (m, d) ← d.emit? protocol length
      return (some (.message m), d)
    | none => return (none, d)
  | .flush =>
    match garbage? (min d.buffer.length maxGarbage) with
    | some (protocol, length) => do
      let (m, d) ← d.emit? protocol length
      return (some (.message m), d)
    | none => some (none, d)
  | .clear => some (some (.forgotten d.buffer), d.clear)

/-- Carries out one operation after the other, as far as their accesses hit. -/
def attemptAll? : List Operation → Demux → Option (List Output × Demux)
  | [], d => some ([], d)
  | op :: rest, d => do
    let (output, d) ← d.attempt? op
    let (outputs, d) ← attemptAll? rest d
    return (output.toList ++ outputs, d)

variable {input : List UInt8} {outputs : List Output} {d : Demux}

/-- Few and short messages can be counted. -/
theorem add?_ofMessages {ms : List Message} {m : Message}
    (hshort : ∀ m' ∈ ms ++ [m], m'.data.length ≤ m'.protocol.maxSize)
    (hfew : ms.length + 1 < UInt32.size) :
    (Traffic.ofMessages ms).add? m.data.length
      = some ((Traffic.ofMessages ms).add m.data.length) := by
  have hbefore : ∀ m' ∈ ms, m'.data.length ≤ m'.protocol.maxSize :=
    fun m' hm' => hshort m' (List.mem_append_left _ hm')
  obtain ⟨hcount, hbytes⟩ := toNat_ofMessages hbefore (by omega)
  have hsize : size (ms ++ [m]) = size ms + m.data.length := by simp [size]
  have hlt := size_lt hshort (by simpa using hfew)
  rw [hsize] at hlt
  refine if_pos ⟨?_, ?_⟩
  · rw [hcount]
    exact hfew
  · rw [hbytes]
    exact hlt

/-- What is cut off is there, and can be counted. -/
theorem emit?_eq {protocol : Protocol} {length : Nat} (h : Booked input outputs d)
    (hfew : (messages outputs).length + 1 < UInt32.size) (hle : length ≤ d.buffer.length)
    (hcut : d.CutsOff (d.emit protocol length).1 (d.emit protocol length).2) :
    d.emit? protocol length = some (d.emit protocol length) := by
  obtain ⟨m, hm⟩ : ∃ m, m = (d.emit protocol length).1 := ⟨_, rfl⟩
  have hdata : m.data = d.buffer.take length := by
    rw [hm]
    rfl
  have hshort : ∀ m' ∈ messages outputs ++ [m], m'.data.length ≤ m'.protocol.maxSize := by
    refine List.forall_mem_append.mpr ⟨h.short, List.forall_mem_singleton.mpr ?_⟩
    rw [hm]
    exact hcut.short
  have hpart := List.filter_sublist (p := fun m => m.protocol = protocol) (l := messages outputs)
  have hrow : (d.tally.get protocol).add? m.data.length
      = some ((d.tally.get protocol).add m.data.length) := by
    rw [h.rows]
    refine add?_ofMessages ?_ (Nat.lt_of_le_of_lt (Nat.succ_le_succ hpart.length_le) hfew)
    intro m' hm'
    exact hshort m' ((hpart.append_right [m]).subset hm')
  have htotal : d.tally.total.add? m.data.length = some (d.tally.total.add m.data.length) := by
    rw [h.total]
    exact add?_ofMessages hshort hfew
  have htally := Tally.add?_eq hrow htotal
  rw [hdata] at htally
  rw [emit?, slice?_zero hle, slice?_length hle]
  simp only [Option.bind_eq_bind, Option.bind_some, htally]
  rfl

/-- **An operation accesses the buffer only.** -/
theorem attempt?_eq (h : Booked input outputs d) (op : Operation)
    (hfew : (messages (outputs ++ (d.apply op).1.toList)).length < UInt32.size) :
    d.attempt? op = some (d.apply op) := by
  cases op with
  | add data => rfl
  | clear => rfl
  | next =>
    have hscan := cutFrom?_eq (Nat.zero_le d.buffer.length)
    rw [List.drop_zero] at hscan
    cases hcut : cut 0 d.buffer with
    | none =>
      have hnext : d.next? = none := by rw [next?, hcut, Option.map_none]
      simp only [attempt?, apply, hscan, hcut, hnext, Option.bind_eq_bind, Option.bind_some]
      rfl
    | some found =>
      obtain ⟨protocol, length⟩ := found
      have hnext : d.next? = some (d.emit protocol length) := by rw [next?, hcut, Option.map_some]
      have hle := (layout_of_cut 0 [] hcut).1
      have hone : (d.apply .next).1 = some (.message (d.emit protocol length).1) := by
        simp only [apply, hnext]
      rw [hone, messages_append, List.length_append] at hfew
      have hemit := emit?_eq h hfew hle (cutsOff_next? hnext)
      simp only [attempt?, apply, hscan, hcut, hnext, hemit, Option.bind_eq_bind, Option.bind_some]
      rfl
  | flush =>
    cases hgarbage : garbage? (min d.buffer.length maxGarbage) with
    | none =>
      have hflush : d.flush = none := by rw [flush, hgarbage, Option.map_none]
      simp only [attempt?, apply, hgarbage, hflush]
    | some found =>
      obtain ⟨protocol, length⟩ := found
      have hflush : d.flush = some (d.emit protocol length) := by
        rw [flush, hgarbage, Option.map_some]
      have hle : length ≤ d.buffer.length := by
        rw [(garbage?_eq_some hgarbage).2.1]
        exact Nat.min_le_left _ _
      have hone : (d.apply .flush).1 = some (.message (d.emit protocol length).1) := by
        simp only [apply, hflush]
      rw [hone, messages_append, List.length_append] at hfew
      have hemit := emit?_eq h hfew hle (cutsOff_flush hflush)
      simp only [attempt?, apply, hgarbage, hflush, hemit, Option.bind_eq_bind, Option.bind_some]
      rfl

theorem attemptAll?_eq (h : Booked input outputs d) (ops : List Operation)
    (hfew : (messages (outputs ++ (applyAll ops d).1)).length < UInt32.size) :
    attemptAll? ops d = some (applyAll ops d) := by
  induction ops generalizing input outputs d with
  | nil => rfl
  | cons op rest ih =>
    rw [applyAll, ← List.append_assoc] at hfew
    have hstep : (messages (outputs ++ (d.apply op).1.toList)).length < UInt32.size := by
      rw [messages_append] at hfew
      rw [List.length_append] at hfew
      omega
    rw [attemptAll?, attempt?_eq h op hstep]
    simp only [Option.bind_eq_bind, Option.bind_some, ih (booked_apply h op) hfew]
    rfl

end Demux

end GnssLink.Stream
