import GnssLink.Dump.Listing
import GnssLink.Proofs.Stream.Bookkeeping
import Mathlib.Data.List.Forall2
/-!
# GnssLink.Proofs.Dump.Shown

**What the lines of a dump show.** Each kind of line is described by what a reader finds in it: the
numbers and names in their columns (`ShowsMessage`, `ShowsTraffic`, `ShowsTotal`), and the bytes of
a message at their places in rows of sixteen (`IsHexDump`). Nothing is said of how a line is made.

The lines that the command prints are the only ones that fit their descriptions
(`showsMessage_iff`, `isHexDump_iff`, `showsStatistics_iff`).
-/

namespace GnssLink.Dump

open GnssLink.Stream (Message Protocol Tally Traffic)
open GnssLink.Text (column padLeft padRight zeroPadded)

/-! ### Columns -/

/-- The cell shows the text at its right end, after as many `fill` as its width takes. -/
structure AlignsRight (fill : Char) (width : Nat) (text cell : String) : Prop where
  filled : ∃ n, cell = String.ofList (List.replicate n fill) ++ text
  length : cell.length = max width text.length

/-- The cell shows the text at its left end, before as many blanks as its width takes. -/
structure AlignsLeft (width : Nat) (text cell : String) : Prop where
  filled : ∃ n, cell = text ++ String.ofList (List.replicate n ' ')
  length : cell.length = max width text.length

section Columns

variable {fill : Char} {width : Nat} {text cell : String}

/-- There is one way to align a text in a column: the width says how much is filled. -/
theorem alignsRight_iff : AlignsRight fill width text cell ↔ cell = padLeft fill width text := by
  have hlength (n : Nat) : (String.ofList (List.replicate n fill) ++ text).length
      = n + text.length := by
    rw [String.length_append, String.length_ofList, List.length_replicate]
  unfold padLeft
  constructor
  · rintro ⟨⟨n, rfl⟩, hwidth⟩
    rw [hlength] at hwidth
    rw [show n = width - text.length by omega]
  · rintro rfl
    refine ⟨⟨_, rfl⟩, ?_⟩
    rw [hlength]
    omega

theorem alignsLeft_iff : AlignsLeft width text cell ↔ cell = padRight width text := by
  have hlength (n : Nat) : (text ++ String.ofList (List.replicate n ' ')).length
      = text.length + n := by
    rw [String.length_append, String.length_ofList, List.length_replicate]
  unfold padRight
  constructor
  · rintro ⟨⟨n, rfl⟩, hwidth⟩
    rw [hlength] at hwidth
    rw [show n = width - text.length by omega]
  · rintro rfl
    refine ⟨⟨_, rfl⟩, ?_⟩
    rw [hlength]
    omega

end Columns

/-! ### Messages -/

/-- The line shows the number of the message, the gap before it, its size, its protocol and name,
and what is known of its contents. -/
def ShowsMessage (m : Message) (gap : Int) (line : String) : Prop :=
  ∃ seq dt size protocol name : String,
    AlignsRight ' ' 4 (toString m.seq.toNat) seq
      ∧ AlignsRight ' ' 4 (toString gap) dt
      ∧ AlignsRight ' ' 4 (toString m.data.length) size
      ∧ AlignsLeft 8 m.protocol.name protocol
      ∧ AlignsLeft 20 m.name name
      ∧ line = "message " ++ seq ++ ", dt " ++ dt ++ ", size " ++ size ++ ", " ++ protocol ++ " "
        ++ name ++ " " ++ m.info.getD "n/a" ++ "\n"

/-- A message has one line, and that is the one printed. -/
theorem showsMessage_iff {m : Message} {gap : Int} {line : String} :
    ShowsMessage m gap line ↔ line = messageLine m gap := by
  constructor
  · rintro ⟨seq, dt, size, protocol, name, hseq, hdt, hsize, hprotocol, hname, rfl⟩
    rw [alignsRight_iff.mp hseq, alignsRight_iff.mp hdt, alignsRight_iff.mp hsize,
      alignsLeft_iff.mp hprotocol, alignsLeft_iff.mp hname]
    rfl
  · rintro rfl
    exact ⟨_, _, _, _, _, alignsRight_iff.mpr rfl, alignsRight_iff.mpr rfl,
      alignsRight_iff.mpr rfl, alignsLeft_iff.mpr rfl, alignsLeft_iff.mpr rfl, rfl⟩

/-- A span of time has so many whole milliseconds, before or after zero as it is itself. -/
structure IsWholeMillis (span ms : Int) : Prop where
  natAbs : ms.natAbs = span.natAbs / 1000000
  side : 0 ≤ ms * span

/-- A span of time has one number of whole milliseconds. -/
theorem isWholeMillis_iff {span ms : Int} : IsWholeMillis span ms ↔ ms = signedMillis span := by
  have habs : (signedMillis span).natAbs = span.natAbs / 1000000 := by
    by_cases hzero : span = 0
    · rw [hzero]
      rfl
    · rw [signedMillis, Int.natAbs_mul, Int.natAbs_sign_of_ne_zero hzero, Nat.one_mul,
        Int.natAbs_natCast, inMillis]
  have hside : 0 ≤ signedMillis span * span := by
    rw [signedMillis, Int.mul_right_comm, Int.sign_mul_self]
    exact Int.mul_nonneg (Int.natCast_nonneg _) (Int.natCast_nonneg _)
  constructor
  · intro h
    rcases Int.natAbs_eq_natAbs_iff.mp (h.natAbs.trans habs.symm) with heq | hopposite
    · exact heq
    · -- on both sides of zero there is only zero itself
      have hside' := h.side
      rw [hopposite, Int.neg_mul] at hside'
      have hzero : signedMillis span * span = 0 := by omega
      rcases Int.mul_eq_zero.mp hzero with hms | hspan
      · rw [hopposite, hms, Int.neg_zero]
      · rw [hopposite, hspan]
        rfl
  · rintro rfl
    exact ⟨habs, hside⟩

/-- The gap between two messages; before the first one there is none. -/
def IsGap (instant : Int) : Option Int → Int → Prop
  | none, gap => gap = 0
  | some last, gap => IsWholeMillis (instant - last) gap

theorem isGap_iff {instant : Int} {last : Option Int} {gap : Int} :
    IsGap instant last gap ↔ gap = gapSince last instant := by
  cases last with
  | none => exact Iff.rfl
  | some last => exact isWholeMillis_iff

/-! ### Bytes -/

/-- The character stands for the byte: it is the byte's own, if that is printable, or a dot. -/
def StandsFor (c : Char) (b : UInt8) : Prop :=
  if 0x20 ≤ b.toNat ∧ b.toNat ≤ 0x7e then c.toNat = b.toNat else c = '.'

/-- The digits of a byte and a blank, or blanks where there is no byte. -/
def byteCell : Option UInt8 → List Char
  | some b => [Nat.digitChar (b.toNat / 16), Nat.digitChar (b.toNat % 16), ' ']
  | none => [' ', ' ', ' ']

/-- The row shows the sixteen bytes at an offset, or as many as there are: the offset, the bytes as
digits, and the characters that stand for them. -/
def ShowsRow (data : List UInt8) (offset : Nat) (line : String) : Prop :=
  ∃ (address count : String) (chars : List Char),
    AlignsRight '0' 4 (String.ofList (Nat.toDigits 16 offset)) address
      ∧ AlignsRight '0' 5 (toString offset) count
      ∧ List.Forall₂ StandsFor chars ((data.drop offset).take 16)
      ∧ line = "    0x" ++ address ++ " " ++ count ++ "  "
        ++ String.ofList ((List.range 16).flatMap fun i => byteCell data[offset + i]?)
        ++ " |" ++ String.ofList chars ++ "|\n"

/-- The text shows all bytes, in rows of sixteen. -/
def IsHexDump (data : List UInt8) (text : String) : Prop :=
  ∃ lines : List String, lines.length = (data.length + 15) / 16
    ∧ (∀ (i : Nat) (h : i < lines.length), ShowsRow data (16 * i) lines[i])
    ∧ text = String.join lines

theorem toNat_ofNat_byte (b : UInt8) : (Char.ofNat b.toNat).toNat = b.toNat := by
  have hvalid : b.toNat.isValidChar := by
    have hlt := b.toNat_lt
    exact .inl (by omega)
  rw [Char.ofNat, dif_pos hvalid]
  rfl

theorem standsFor_iff {c : Char} {b : UInt8} : StandsFor c b ↔ c = shown b := by
  have hle : (0x20 ≤ b ∧ b ≤ 0x7e) ↔ (0x20 ≤ b.toNat ∧ b.toNat ≤ 0x7e) := by
    simp only [UInt8.le_iff_toNat_le]
    exact Iff.rfl
  unfold StandsFor shown
  by_cases h : 0x20 ≤ b.toNat ∧ b.toNat ≤ 0x7e
  · rw [if_pos h, if_pos (hle.mpr h), ← Char.toNat_inj, toNat_ofNat_byte]
  · rw [if_neg h, if_neg (mt hle.mp h)]

/-- The characters that stand for some bytes are determined. -/
theorem forall₂_standsFor_iff {chars : List Char} {bytes : List UInt8} :
    List.Forall₂ StandsFor chars bytes ↔ chars = bytes.map shown := by
  constructor
  · intro h
    induction h with
    | nil => rfl
    | cons first _ ih => rw [List.map_cons, ← ih, standsFor_iff.mp first]
  · rintro rfl
    induction bytes with
    | nil => exact .nil
    | cons b rest ih => exact .cons (standsFor_iff.mpr rfl) ih

/-- A byte has two digits, the first of which may be zero. -/
theorem toList_lower_two (b : UInt8) : (Text.Hex.lower 2 b.toNat).toList
    = [Nat.digitChar (b.toNat / 16), Nat.digitChar (b.toNat % 16)] := by
  have hlt := b.toNat_lt
  unfold Text.Hex.lower padLeft
  rw [String.toList_append, String.toList_ofList, String.toList_ofList, String.length_ofList]
  by_cases hsmall : b.toNat < 16
  · rw [Nat.toDigits_of_lt_base hsmall, Nat.div_eq_of_lt hsmall, Nat.mod_eq_of_lt hsmall]
    rfl
  · have hhigh : b.toNat / 16 < 16 := by omega
    rw [Nat.toDigits_eq_if (by decide), if_neg hsmall, Nat.toDigits_of_lt_base hhigh]
    rfl

/-- Cells by place are the cells of the bytes with empty ones behind. -/
theorem flatMap_range_byteCell {bytes : List UInt8} {n : Nat} (h : bytes.length ≤ n) :
    ((List.range n).flatMap fun i => byteCell bytes[i]?)
      = bytes.flatMap (fun b => byteCell (some b))
        ++ (List.replicate (n - bytes.length) (byteCell none)).flatten := by
  induction bytes generalizing n with
  | nil => simp [List.flatMap_def]
  | cons b rest ih =>
    obtain ⟨n, rfl⟩ := Nat.exists_eq_add_of_le' h
    rw [List.length_cons, ← Nat.add_assoc, List.range_succ_eq_map, List.flatMap_cons,
      List.flatMap_map, List.flatMap_cons, List.append_assoc]
    simp only [List.getElem?_cons_zero, List.getElem?_cons_succ]
    rw [ih (Nat.le_add_left _ _)]
    congr 4
    omega

/-- The cells of a row are those of its bytes. -/
theorem flatMap_byteCell_eq (data : List UInt8) (offset : Nat) :
    ((List.range 16).flatMap fun i => byteCell data[offset + i]?)
      = (String.join (((data.drop offset).take 16).map fun b => Text.Hex.lower 2 b.toNat ++ " ")
        ++ String.join
          (List.replicate (16 - ((data.drop offset).take 16).length) "   ")).toList := by
  obtain ⟨bytes, hbytes⟩ : ∃ bytes, bytes = (data.drop offset).take 16 := ⟨_, rfl⟩
  have hshort : bytes.length ≤ 16 := by
    rw [hbytes]
    exact List.length_take_le _ _
  have hplace : ∀ i ∈ List.range 16, byteCell data[offset + i]? = byteCell bytes[i]? := by
    intro i hi
    rw [hbytes, List.getElem?_take_of_lt (List.mem_range.mp hi), List.getElem?_drop]
  have hcell : (fun b : UInt8 => byteCell (some b))
      = fun b => (Text.Hex.lower 2 b.toNat ++ " ").toList := by
    funext b
    rw [String.toList_append, toList_lower_two]
    rfl
  rw [← hbytes, List.flatMap_congr hplace, flatMap_range_byteCell hshort, String.toList_append,
    String.toList_join, String.toList_join, List.flatMap_map, hcell, List.flatMap_replicate]
  rfl

/-- There is one row for the bytes at an offset. -/
theorem showsRow_iff {data : List UInt8} {offset : Nat} {line : String} :
    ShowsRow data offset line ↔ line = row offset ((data.drop offset).take 16) := by
  have hrow : row offset ((data.drop offset).take 16)
      = "    0x" ++ padLeft '0' 4 (String.ofList (Nat.toDigits 16 offset)) ++ " "
        ++ padLeft '0' 5 (toString offset) ++ "  "
        ++ String.ofList ((List.range 16).flatMap fun i => byteCell data[offset + i]?)
        ++ " |" ++ String.ofList (((data.drop offset).take 16).map shown) ++ "|\n" := by
    rw [flatMap_byteCell_eq, String.ofList_toList, ← String.append_assoc]
    rfl
  constructor
  · rintro ⟨address, count, chars, haddress, hcount, hchars, rfl⟩
    rw [alignsRight_iff.mp haddress, alignsRight_iff.mp hcount, forall₂_standsFor_iff.mp hchars,
      hrow]
  · rintro rfl
    exact ⟨_, _, _, alignsRight_iff.mpr rfl, alignsRight_iff.mpr rfl,
      forall₂_standsFor_iff.mpr rfl, hrow⟩

/-- The row at a place shows the bytes at that place. -/
theorem getElem_rows {data : List UInt8} {i : Nat}
    (h : i < ((Config.chunksOf rowSize data).zipIdx.map
      fun (bytes, i) => row (rowSize * i) bytes).length) :
    ((Config.chunksOf rowSize data).zipIdx.map fun (bytes, i) => row (rowSize * i) bytes)[i]
      = row (16 * i) ((data.drop (16 * i)).take 16) := by
  rw [List.length_map, List.length_zipIdx] at h
  have hchunk : (Config.chunksOf rowSize data)[i] = (data.drop (16 * i)).take 16 := by
    have hrun : (Config.chunksOf rowSize data)[i]? = _ := Config.getElem?_chunksOf data i
    rw [if_pos (Config.lt_length_chunksOf_iff.mp h), Nat.mul_comm] at hrun
    exact (List.getElem?_eq_some_iff.mp hrun).2
  simp only [List.getElem_map, List.getElem_zipIdx, Nat.zero_add, hchunk]
  rfl

/-- The rows of a message are those of the places in it that are multiples of sixteen. -/
theorem isHexDump_iff {data : List UInt8} {text : String} :
    IsHexDump data text ↔ text = rows data := by
  have hlength : ((Config.chunksOf rowSize data).zipIdx.map
      fun (bytes, i) => row (rowSize * i) bytes).length = (data.length + 15) / 16 := by
    rw [List.length_map, List.length_zipIdx, Config.length_chunksOf]
    rfl
  constructor
  · rintro ⟨lines, hcount, hlines, rfl⟩
    refine congrArg String.join (List.ext_getElem (hcount.trans hlength.symm) ?_)
    intro i h h'
    rw [getElem_rows h', showsRow_iff.mp (hlines i h)]
  · rintro rfl
    refine ⟨_, hlength, ?_, rfl⟩
    intro i h
    rw [getElem_rows h]
    exact showsRow_iff.mpr rfl

/-! ### Messages one after the other -/

/-- The text shows some messages in order, each with its bytes if these are asked for. The first one
came after the instant `last`, if there was another one before it. -/
inductive Lists (stamp : Message → Int) (hexdump : Bool) :
    Option Int → List Message → String → Prop where
  | nil {last : Option Int} : Lists stamp hexdump last [] ""
  | cons {last : Option Int} {m : Message} {rest : List Message} {gap : Int}
      {line dump text : String} (since : IsGap (stamp m) last gap) (shows : ShowsMessage m gap line)
      (bytes : if hexdump then IsHexDump m.data dump else dump = "")
      (more : Lists stamp hexdump (some (stamp m)) rest text) :
      Lists stamp hexdump last (m :: rest) (line ++ dump ++ text)

/-- What is printed about some messages. -/
def listings (stamp : Message → Int) (hexdump : Bool) : Option Int → List Message → String
  | _, [] => ""
  | last, m :: rest =>
    listing hexdump last (stamp m) m ++ listings stamp hexdump (some (stamp m)) rest

/-- **A text lists some messages exactly if it is what is printed about them.** -/
theorem lists_iff {stamp : Message → Int} {hexdump : Bool} {last : Option Int} {ms : List Message}
    {text : String} :
    Lists stamp hexdump last ms text ↔ text = listings stamp hexdump last ms := by
  constructor
  · intro h
    induction h with
    | nil => rfl
    | cons since shows bytes _ ih =>
      rw [listings, listing, ← isGap_iff.mp since, ← showsMessage_iff.mp shows, ← ih]
      cases hexdump with
      | true =>
        rw [isHexDump_iff.mp bytes]
        rfl
      | false =>
        rw [show _ = "" from bytes]
        rfl
  · rintro rfl
    induction ms generalizing last with
    | nil => exact .nil
    | cons m rest ih =>
      refine .cons (isGap_iff.mpr rfl) (showsMessage_iff.mpr rfl) ?_ ih
      cases hexdump with
      | true => exact isHexDump_iff.mpr rfl
      | false => rfl

/-! ### Statistics -/

/-- The tally counts these messages and their bytes, by protocol and in total. -/
structure Counts (t : Tally) (ms : List Message) : Prop where
  rows : ∀ p, (t.get p).count.toNat = (ms.filter fun m => m.protocol = p).length
    ∧ (t.get p).bytes.toNat = Stream.size (ms.filter fun m => m.protocol = p)
  total : t.total.count.toNat = ms.length ∧ t.total.bytes.toNat = Stream.size ms

/-- The line shows how many of the messages are of a protocol and how many bytes these have, and
what part of all that is. The parts are `percentage`s, which are computed in doubles. -/
def ShowsTraffic (p : Protocol) (ms : List Message) (line : String) : Prop :=
  ∃ name count bytes : String,
    AlignsLeft 8 p.name name
      ∧ AlignsRight ' ' 6 (toString (ms.filter fun m => m.protocol = p).length) count
      ∧ AlignsRight ' ' 10 (toString (Stream.size (ms.filter fun m => m.protocol = p))) bytes
      ∧ line = "stats " ++ name ++ " count " ++ count ++ " "
        ++ percentage (ms.filter fun m => m.protocol = p).length ms.length
        ++ "  size " ++ bytes ++ " "
        ++ percentage (Stream.size (ms.filter fun m => m.protocol = p)) (Stream.size ms) ++ "\n"

/-- The line shows how many messages there are and how many bytes they have. -/
def ShowsTotal (ms : List Message) (line : String) : Prop :=
  ∃ count bytes : String,
    AlignsRight ' ' 6 (toString ms.length) count
      ∧ AlignsRight ' ' 10 (toString (Stream.size ms)) bytes
      ∧ line = "stats Total    count " ++ count ++ " (100.0%)  size " ++ bytes ++ " (100.0%)\n"

/-- The text shows a line for each protocol, and one for the total. -/
def ShowsStatistics (ms : List Message) (text : String) : Prop :=
  ∃ ubx nmea rtcm3 garbage total : String,
    ShowsTraffic .ubx ms ubx ∧ ShowsTraffic .nmea ms nmea ∧ ShowsTraffic .rtcm3 ms rtcm3
      ∧ ShowsTraffic .garbage ms garbage ∧ ShowsTotal ms total
      ∧ text = ubx ++ nmea ++ rtcm3 ++ garbage ++ total

section Statistics

variable {t : Tally} {ms : List Message}

/-- A protocol has one line, which a tally of the messages is enough to print. -/
theorem showsTraffic_iff (h : Counts t ms) {p : Protocol} {line : String} :
    ShowsTraffic p ms line ↔ line = trafficLine p (t.get p) t.total := by
  obtain ⟨hcount, hbytes⟩ := h.rows p
  obtain ⟨hall, hallBytes⟩ := h.total
  unfold ShowsTraffic trafficLine
  rw [hcount, hbytes, hall, hallBytes]
  constructor
  · rintro ⟨name, count, bytes, hname, hcount, hbytes, rfl⟩
    rw [alignsLeft_iff.mp hname, alignsRight_iff.mp hcount, alignsRight_iff.mp hbytes]
    rfl
  · rintro rfl
    exact ⟨_, _, _, alignsLeft_iff.mpr rfl, alignsRight_iff.mpr rfl, alignsRight_iff.mpr rfl, rfl⟩

theorem showsTotal_iff (h : Counts t ms) {line : String} :
    ShowsTotal ms line ↔ line = totalLine t.total := by
  obtain ⟨hall, hallBytes⟩ := h.total
  unfold ShowsTotal totalLine
  rw [hall, hallBytes]
  constructor
  · rintro ⟨count, bytes, hcount, hbytes, rfl⟩
    rw [alignsRight_iff.mp hcount, alignsRight_iff.mp hbytes]
    rfl
  · rintro rfl
    exact ⟨_, _, alignsRight_iff.mpr rfl, alignsRight_iff.mpr rfl, rfl⟩

/-- Whoever counts the messages prints the same. -/
theorem showsStatistics_iff (h : Counts t ms) {text : String} :
    ShowsStatistics ms text ↔ text = statistics t := by
  have hjoined : statistics t = trafficLine .ubx t.ubx t.total ++ trafficLine .nmea t.nmea t.total
      ++ trafficLine .rtcm3 t.rtcm3 t.total ++ trafficLine .garbage t.garbage t.total
      ++ totalLine t.total := by
    simp only [statistics, Protocol.all, List.map_cons, List.map_nil, String.join_cons,
      String.join_nil, String.append_empty, String.append_assoc]
    rfl
  rw [hjoined]
  constructor
  · rintro ⟨ubx, nmea, rtcm3, garbage, total, hubx, hnmea, hrtcm3, hgarbage, htotal, rfl⟩
    rw [(showsTraffic_iff h).mp hubx, (showsTraffic_iff h).mp hnmea,
      (showsTraffic_iff h).mp hrtcm3, (showsTraffic_iff h).mp hgarbage,
      (showsTotal_iff h).mp htotal]
    rfl
  · rintro rfl
    exact ⟨_, _, _, _, _, (showsTraffic_iff h).mpr rfl, (showsTraffic_iff h).mpr rfl,
      (showsTraffic_iff h).mpr rfl, (showsTraffic_iff h).mpr rfl, (showsTotal_iff h).mpr rfl, rfl⟩

end Statistics

end GnssLink.Dump
