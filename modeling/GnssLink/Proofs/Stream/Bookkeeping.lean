import GnssLink.Proofs.Stream.Layout
import GnssLink.Proofs.Stream.Sizes
/-!
# GnssLink.Proofs.Stream.Bookkeeping

**No byte is lost, and every message is numbered and counted** (`Demux.books_of_operations`), in
whatever order bytes come in, messages are asked for, and what waits is given up or forgotten.

The counters are machine words, so what each operation keeps (`Demux.Booked`, `Demux.booked_apply`)
is said of words. They hold the numbers themselves as long as there are fewer messages than the
number of a message can tell apart, because a message is short (`Protocol.maxSize`).
-/

namespace GnssLink.Stream

/-- An operation on a stream. -/
inductive Operation where
  | add (data : List UInt8)
  | next
  | flush
  | clear
  deriving DecidableEq, Repr

/-- The bytes that an operation puts into the buffer. -/
def Operation.input : Operation → List UInt8
  | add data => data
  | next | flush | clear => []

/-- What an operation takes off the buffer. -/
inductive Output where
  | message (m : Message)
  | forgotten (data : List UInt8)
  deriving DecidableEq, Repr

namespace Output

/-- The bytes that are taken off. -/
def data : Output → List UInt8
  | message m => m.data
  | forgotten data => data

/-- The message, if it is one. -/
def message? : Output → Option Message
  | message m => some m
  | forgotten _ => none

end Output

/-- The messages among the outputs. -/
def messages (outputs : List Output) : List Message := outputs.filterMap Output.message?

@[simp] theorem messages_append (outputs more : List Output) :
    messages (outputs ++ more) = messages outputs ++ messages more :=
  List.filterMap_append

/-- How many bytes some messages have. -/
def size (ms : List Message) : Nat := (ms.flatMap Message.data).length

@[simp] theorem size_nil : size [] = 0 := rfl

@[simp] theorem size_cons (m : Message) (ms : List Message) :
    size (m :: ms) = m.data.length + size ms := by
  rw [size, List.flatMap_cons, List.length_append, size]

/-! ### Traffic -/

/-- The traffic that some messages make up. -/
def Traffic.ofMessages (ms : List Message) : Traffic :=
  ms.foldl (fun traffic m => traffic.add m.data.length) {}

theorem Traffic.ofMessages_concat (ms : List Message) (m : Message) :
    ofMessages (ms ++ [m]) = (ofMessages ms).add m.data.length := by
  rw [ofMessages, List.foldl_append]
  rfl

/-- Counting on from some traffic adds the messages and their bytes, in words. -/
theorem Traffic.foldl_add (ms : List Message) (traffic : Traffic) :
    ms.foldl (fun traffic m => traffic.add m.data.length) traffic
      = ⟨traffic.count + UInt32.ofNat ms.length, traffic.bytes + UInt64.ofNat (size ms)⟩ := by
  induction ms generalizing traffic with
  | nil => simp
  | cons m rest ih =>
    rw [List.foldl_cons, ih, List.length_cons, size_cons, Nat.add_comm rest.length]
    simp only [add, UInt32.ofNat_add, UInt64.ofNat_add, UInt32.add_assoc, UInt64.add_assoc]
    rfl

theorem Traffic.ofMessages_eq (ms : List Message) :
    ofMessages ms = ⟨UInt32.ofNat ms.length, UInt64.ofNat (size ms)⟩ := by
  rw [ofMessages, foldl_add]
  simp

/-- Short messages that a word can count have no more bytes than a word can count. -/
theorem size_lt {ms : List Message} (hshort : ∀ m ∈ ms, m.data.length ≤ m.protocol.maxSize)
    (hfew : ms.length < UInt32.size) : size ms < UInt64.size := by
  -- 2 ^ 32 messages of 4104 bytes are far fewer than 2 ^ 64 bytes
  have hle : size ms ≤ ms.length * Protocol.ubx.maxSize := by
    clear hfew
    induction ms with
    | nil => exact Nat.zero_le _
    | cons m rest ih =>
      obtain ⟨hm, hrest⟩ := List.forall_mem_cons.mp hshort
      have hsize := Nat.le_trans hm m.protocol.maxSize_le
      have hmore := ih hrest
      rw [size_cons, List.length_cons, Nat.succ_mul]
      omega
  have hmax : Protocol.ubx.maxSize = 4104 := rfl
  rw [hmax] at hle
  simp only [UInt32.size, UInt64.size] at hfew ⊢
  omega

namespace Demux

/-! ### Operations -/

/-- Carries out an operation. -/
def apply (d : Demux) : Operation → Option Output × Demux
  | .add data => (none, d.add data)
  | .next =>
    match d.next? with
    | some (m, d') => (some (.message m), d')
    | none => (none, d)
  | .flush =>
    match d.flush with
    | some (m, d') => (some (.message m), d')
    | none => (none, d)
  | .clear => (some (.forgotten d.buffer), d.clear)

/-- Carries out one operation after the other. -/
def applyAll : List Operation → Demux → List Output × Demux
  | [], d => ([], d)
  | op :: rest, d =>
    ((d.apply op).1.toList ++ (applyAll rest (d.apply op).2).1, (applyAll rest (d.apply op).2).2)

/-- The message is cut off the start of the buffer. -/
structure CutsOff (d : Demux) (m : Message) (d' : Demux) : Prop where
  bytes : m.data ++ d'.buffer = d.buffer
  nonempty : m.data ≠ []
  short : m.data.length ≤ m.protocol.maxSize
  seq : m.seq = d.seq + 1
  last : d'.seq = d.seq + 1
  tally : d'.tally = d.tally.add m.protocol m.data.length

/-- The next message is cut off the start of the buffer. -/
theorem cutsOff_next? {d d' : Demux} {m : Message} (h : d.next? = some (m, d')) :
    d.CutsOff m d' := by
  have hbytes := data_append_of_next? h
  have hshort := length_le_of_next? h
  have hnonempty : m.data ≠ [] := by
    intro hempty
    rw [hempty, List.nil_append] at hbytes
    exact Nat.lt_irrefl _ (hbytes ▸ length_lt_of_next? h)
  obtain ⟨⟨p, n⟩, -, hemit⟩ := Option.map_eq_some_iff.mp h
  cases hemit
  exact ⟨hbytes, hnonempty, hshort, rfl, rfl, rfl⟩

theorem cutsOff_flush {d d' : Demux} {m : Message} (h : d.flush = some (m, d')) :
    d.CutsOff m d' := by
  have hshort := length_le_of_flush h
  obtain ⟨⟨p, n⟩, hgarbage, hemit⟩ := Option.map_eq_some_iff.mp h
  obtain ⟨rfl, rfl, hpos⟩ := garbage?_eq_some hgarbage
  cases hemit
  refine ⟨List.take_append_drop _ d.buffer, ?_, hshort, rfl, rfl, rfl⟩
  intro hempty
  have hlength : (d.buffer.take (min d.buffer.length maxGarbage)).length = 0 :=
    congrArg List.length hempty
  rw [List.length_take] at hlength
  omega

/-- All that an operation can do: it puts bytes in, does nothing, cuts a message off or forgets what
is buffered. -/
theorem apply_cases (d : Demux) (op : Operation) :
    d.apply op = (none, d.add op.input)
      ∨ (∃ m d', d.apply op = (some (.message m), d') ∧ op.input = [] ∧ d.CutsOff m d')
      ∨ (d.apply op = (some (.forgotten d.buffer), d.clear) ∧ op.input = []) := by
  have hnothing : d.add [] = d := by rw [add, List.append_nil]
  cases op with
  | add data => exact .inl rfl
  | next =>
    rw [apply]
    cases hnext : d.next? with
    | none => exact .inl (by rw [Operation.input, hnothing])
    | some found => exact .inr (.inl ⟨found.1, found.2, rfl, rfl, cutsOff_next? hnext⟩)
  | flush =>
    rw [apply]
    cases hflush : d.flush with
    | none => exact .inl (by rw [Operation.input, hnothing])
    | some found => exact .inr (.inl ⟨found.1, found.2, rfl, rfl, cutsOff_flush hflush⟩)
  | clear => exact .inr (.inr ⟨rfl, rfl⟩)

theorem protocol_of_flush {d d' : Demux} {m : Message} (h : d.flush = some (m, d')) :
    m.protocol = .garbage := by
  obtain ⟨⟨p, n⟩, hgarbage, hemit⟩ := Option.map_eq_some_iff.mp h
  cases hemit
  exact (garbage?_eq_some hgarbage).1

/-- A message was taken off the buffer at some moment. -/
theorem exists_of_mem_messages {ops : List Operation} {d : Demux} {m : Message}
    (hm : m ∈ messages (applyAll ops d).1) :
    ∃ d₁ d₂ : Demux, d₁.next? = some (m, d₂) ∨ d₁.flush = some (m, d₂) := by
  induction ops generalizing d with
  | nil => cases hm
  | cons op rest ih =>
    rw [applyAll, messages_append] at hm
    rcases List.mem_append.mp hm with hnow | hlater
    · cases op with
      | add data => cases hnow
      | next =>
        simp only [apply] at hnow
        split at hnow
        · next found d₂ hnext =>
          obtain rfl : m = found := by simpa [messages, Output.message?] using hnow
          exact ⟨d, d₂, .inl hnext⟩
        · cases hnow
      | flush =>
        simp only [apply] at hnow
        split at hnow
        · next found d₂ hflush =>
          obtain rfl : m = found := by simpa [messages, Output.message?] using hnow
          exact ⟨d, d₂, .inr hflush⟩
        · cases hnow
      | clear => cases hnow
    · exact ih hlater

/-! ### What every operation keeps -/

/-- The outputs so far and what still waits make up the input, and the numbers and the tally are
those of the messages so far. -/
structure Booked (input : List UInt8) (outputs : List Output) (d : Demux) : Prop where
  bytes : outputs.flatMap Output.data ++ d.buffer = input
  nonempty : ∀ m ∈ messages outputs, m.data ≠ []
  short : ∀ m ∈ messages outputs, m.data.length ≤ m.protocol.maxSize
  numbered : (messages outputs).map Message.seq
    = (List.range' 1 (messages outputs).length).map UInt32.ofNat
  last : d.seq = UInt32.ofNat (messages outputs).length
  rows : ∀ p, d.tally.get p = .ofMessages ((messages outputs).filter fun m => m.protocol = p)
  total : d.tally.total = .ofMessages (messages outputs)

variable {input : List UInt8} {outputs : List Output} {d : Demux}

theorem booked_new : Booked [] [] {} where
  bytes := rfl
  nonempty := nofun
  short := nofun
  numbered := rfl
  last := rfl
  rows p := by cases p <;> rfl
  total := rfl

/-- A message that is cut off is numbered and counted in the row of its protocol and in the total.
-/
theorem Booked.message {m : Message} {d' : Demux} (h : Booked input outputs d)
    (hcut : d.CutsOff m d') : Booked input (outputs ++ [.message m]) d' := by
  have hmessages : messages (outputs ++ [.message m]) = messages outputs ++ [m] :=
    messages_append _ _
  have hnext : UInt32.ofNat (messages outputs).length + 1
      = UInt32.ofNat ((messages outputs).length + 1) := (UInt32.ofNat_add _ 1).symm
  refine ⟨?_, ?_, ?_, ?_, ?_, ?_, ?_⟩
  · rw [← h.bytes, ← hcut.bytes, List.flatMap_append, List.append_assoc, List.flatMap_singleton]
    rfl
  · rw [hmessages]
    exact List.forall_mem_append.mpr ⟨h.nonempty, List.forall_mem_singleton.mpr hcut.nonempty⟩
  · rw [hmessages]
    exact List.forall_mem_append.mpr ⟨h.short, List.forall_mem_singleton.mpr hcut.short⟩
  · rw [hmessages, List.map_append, h.numbered, List.length_append, List.length_singleton,
      List.range'_concat, List.map_append, List.map_singleton, List.map_singleton, hcut.seq, h.last,
      hnext, Nat.one_mul, Nat.add_comm 1]
  · rw [hcut.last, h.last, hnext, hmessages, List.length_append, List.length_singleton]
  · intro p
    rw [hcut.tally, hmessages, List.filter_append]
    by_cases hp : m.protocol = p
    · subst hp
      rw [Tally.get_add_self, h.rows, List.filter_cons_of_pos (by simp), List.filter_nil,
        Traffic.ofMessages_concat]
    · rw [Tally.get_add_of_ne _ _ hp, h.rows, List.filter_cons_of_neg (by simp [hp]),
        List.filter_nil, List.append_nil]
  · rw [hcut.tally, Tally.total_add, h.total, hmessages, Traffic.ofMessages_concat]

/-- Every operation keeps the books. -/
theorem booked_apply (h : Booked input outputs d) (op : Operation) :
    Booked (input ++ op.input) (outputs ++ (d.apply op).1.toList) (d.apply op).2 := by
  -- adding changes the input, a message the outputs, and clearing moves what waits to the outputs
  rcases d.apply_cases op with hadd | ⟨m, d', hmessage, hnone, hcut⟩ | ⟨hclear, hnone⟩
  · rw [hadd, Option.toList_none, List.append_nil]
    refine ⟨?_, h.nonempty, h.short, h.numbered, h.last, h.rows, h.total⟩
    rw [← h.bytes, add, List.append_assoc]
  · rw [hmessage, hnone, List.append_nil]
    exact h.message hcut
  · have hmessages : messages (outputs ++ [.forgotten d.buffer]) = messages outputs := by
      rw [messages_append]
      exact List.append_nil _
    rw [hclear, hnone, List.append_nil, Option.toList_some]
    refine ⟨?_, hmessages ▸ h.nonempty, hmessages ▸ h.short, hmessages ▸ h.numbered,
      hmessages ▸ h.last, hmessages ▸ h.rows, hmessages ▸ h.total⟩
    rw [← h.bytes, List.flatMap_append, List.flatMap_singleton, clear, List.append_nil]
    rfl

theorem booked_applyAll (h : Booked input outputs d) (ops : List Operation) :
    Booked (input ++ ops.flatMap Operation.input) (outputs ++ (applyAll ops d).1)
      (applyAll ops d).2 := by
  induction ops generalizing input outputs d with
  | nil => simpa [applyAll] using h
  | cons op rest ih =>
    rw [List.flatMap_cons, applyAll, ← List.append_assoc, ← List.append_assoc]
    exact ih (booked_apply h op)

/-! ### The books -/

/-- What the four protocols make together. -/
def rowSum (row : Protocol → Nat) : Nat := row .ubx + row .nmea + row .rtcm3 + row .garbage

/-- Every message is of one protocol. -/
theorem rowSum_filter (measure : Message → Nat) (weigh : List Message → Nat) (hnil : weigh [] = 0)
    (hcons : ∀ m rest, weigh (m :: rest) = measure m + weigh rest) (ms : List Message) :
    rowSum (fun p => weigh (ms.filter fun m => m.protocol = p)) = weigh ms := by
  induction ms with
  | nil => simp [rowSum, hnil]
  | cons m rest ih =>
    rw [hcons, ← ih]
    simp only [rowSum]
    cases hp : m.protocol <;> simp [hp, hcons] <;> omega

theorem length_rows (ms : List Message) :
    rowSum (fun p => (ms.filter fun m => m.protocol = p).length) = ms.length :=
  rowSum_filter (fun _ => 1) List.length rfl (fun _ rest => Nat.add_comm rest.length 1) ms

theorem size_rows (ms : List Message) :
    rowSum (fun p => size (ms.filter fun m => m.protocol = p)) = size ms :=
  rowSum_filter (fun m => m.data.length) size size_nil size_cons ms

/-- The books of a stream that has given the outputs. -/
structure Books (input : List UInt8) (outputs : List Output) (d : Demux) : Prop where
  /-- Every byte that came in was put out once, in its place, or still waits. -/
  bytes : outputs.flatMap Output.data ++ d.buffer = input
  nonempty : ∀ m ∈ messages outputs, m.data ≠ []
  /-- Messages are numbered from 1 on. -/
  numbered : (messages outputs).map (fun m => m.seq.toNat)
    = List.range' 1 (messages outputs).length
  /-- A row of the tally counts the messages of its protocol and their bytes. -/
  rows : ∀ p, (d.tally.get p).count.toNat
      = ((messages outputs).filter fun m => m.protocol = p).length
    ∧ (d.tally.get p).bytes.toNat = size ((messages outputs).filter fun m => m.protocol = p)
  /-- The total is the sum of the rows. -/
  total : d.tally.total.count.toNat = rowSum (fun p => (d.tally.get p).count.toNat)
    ∧ d.tally.total.bytes.toNat = rowSum (fun p => (d.tally.get p).bytes.toNat)

/-- As long as the messages are few enough no counter wraps around. -/
theorem toNat_ofMessages {ms : List Message}
    (hshort : ∀ m ∈ ms, m.data.length ≤ m.protocol.maxSize) (hfew : ms.length < UInt32.size) :
    (Traffic.ofMessages ms).count.toNat = ms.length
      ∧ (Traffic.ofMessages ms).bytes.toNat = size ms := by
  rw [Traffic.ofMessages_eq]
  exact ⟨UInt32.toNat_ofNat_of_lt' hfew, UInt64.toNat_ofNat_of_lt' (size_lt hshort hfew)⟩

/-- The words hold the numbers that they stand for. -/
theorem Booked.books (h : Booked input outputs d)
    (hfew : (messages outputs).length < UInt32.size) : Books input outputs d := by
  have hrows (p : Protocol) := by
    have hpart := List.filter_sublist (p := fun m => m.protocol = p) (l := messages outputs)
    have hexact := toNat_ofMessages (fun m hm => h.short m (hpart.subset hm))
      (Nat.lt_of_le_of_lt hpart.length_le hfew)
    rwa [← h.rows p] at hexact
  refine ⟨h.bytes, h.nonempty, ?_, hrows, ?_⟩
  · have hwords : ∀ n ∈ List.range' 1 (messages outputs).length,
        (UInt32.toNat ∘ UInt32.ofNat) n = id n := by
      intro n hn
      have hlast := (List.mem_range'_1.mp hn).2
      exact UInt32.toNat_ofNat_of_lt' (by omega)
    calc (messages outputs).map (fun m => m.seq.toNat)
      _ = ((messages outputs).map Message.seq).map UInt32.toNat := by
        rw [List.map_map]
        rfl
      _ = (List.range' 1 (messages outputs).length).map (UInt32.toNat ∘ UInt32.ofNat) := by
        rw [h.numbered, List.map_map]
      _ = List.range' 1 (messages outputs).length := by
        rw [List.map_congr_left hwords, List.map_id]
  · obtain ⟨hcount, hbytes⟩ := toNat_ofMessages h.short hfew
    rw [h.total, hcount, hbytes, ← length_rows, ← size_rows]
    simp only [fun p => (hrows p).1, fun p => (hrows p).2, and_self]

/-- **No byte is lost, and every message is numbered and counted**, at every moment in the use of a
new stream: the operations are those up to that moment. -/
theorem books_of_operations (ops : List Operation)
    (hfew : (messages (applyAll ops {}).1).length < UInt32.size) :
    Books (ops.flatMap Operation.input) (applyAll ops {}).1 (applyAll ops {}).2 :=
  (booked_applyAll booked_new ops).books hfew

/-- A stray byte before a frame, a sentence that is given up, and the start of a frame that is
forgotten. -/
def mixedUse : List Operation :=
  [.add [0x55, 0xb5, 0x62, 0x0a, 0x04, 0x00, 0x00, 0x0e, 0x34, 0x24, 0x47], .next, .next, .next,
    .flush, .add [0xb5], .clear, .add [0xd3, 0x00], .next]

theorem books_mixedUse :
    (messages (applyAll mixedUse {}).1).length < UInt32.size
      ∧ Books (mixedUse.flatMap Operation.input) (applyAll mixedUse {}).1
        (applyAll mixedUse {}).2 := by
  have hfew : (messages (applyAll mixedUse {}).1).length < UInt32.size := by decide
  exact ⟨hfew, books_of_operations mixedUse hfew⟩

end Demux
end GnssLink.Stream
