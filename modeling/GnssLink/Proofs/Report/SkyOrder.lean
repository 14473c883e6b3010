import GnssLink.Proofs.Report.WithinPayload
/-!
# GnssLink.Proofs.Report.SkyOrder

**Satellites and signals are listed in the order of their numbers, whatever their order in the
message** (`describe_of_skyList`).

Three messages list satellites or signals in blocks of fixed size behind a head. They differ in
where things stand, which is written down in a `SkyList`. What the blocks name is read off the
payload by their places (`SkyList.identities`). The report is the head followed by these names in
the one order that there is for them: by the system, then by the satellite, then by the signal
(`SignalId.Precedes`).
-/

namespace GnssLink

namespace Report

open LittleEndian

/-! ### The order -/

namespace SignalId

/-- The order of a list: by the system, then by the satellite, then by the signal. -/
def Precedes (s t : SignalId) : Prop :=
  s.system < t.system ∨ s.system = t.system
    ∧ (s.satellite < t.satellite ∨ s.satellite = t.satellite ∧ s.signal ≤ t.signal)

/-- The signal's part of the rank. -/
def signalRank : Option UInt8 → Nat
  | none => 0
  | some n => n.toNat + 1

theorem signalRank_lt (n : Option UInt8) : signalRank n < 257 := by
  cases n with
  | none => decide
  | some n => exact Nat.succ_lt_succ n.toNat_lt

theorem signal_le_iff (m n : Option UInt8) : m ≤ n ↔ signalRank m ≤ signalRank n := by
  cases m <;> cases n <;> simp [signalRank, UInt8.le_iff_toNat_le]

theorem signalRank_inj {m n : Option UInt8} : signalRank m = signalRank n ↔ m = n := by
  cases m <;> cases n <;> simp [signalRank, UInt8.toNat_inj]

/-- The rank of an identity has its three numbers as digits, so comparing ranks compares these in
order. -/
theorem rank_eq (s : SignalId) :
    s.rank = (s.system.toNat * 256 + s.satellite.toNat) * 257 + signalRank s.signal := by
  rw [rank]
  cases s.signal <;> rfl

theorem le_iff_precedes (s t : SignalId) : s.le t ↔ s.Precedes t := by
  have hs := s.satellite.toNat_lt
  have ht := t.satellite.toNat_lt
  have hs' := signalRank_lt s.signal
  have ht' := signalRank_lt t.signal
  rw [le, decide_eq_true_iff, rank_eq, rank_eq, Precedes, signal_le_iff, UInt8.lt_iff_toNat_lt,
    UInt8.lt_iff_toNat_lt, ← UInt8.toNat_inj, ← UInt8.toNat_inj]
  omega

instance (s t : SignalId) : Decidable (s.Precedes t) := decidable_of_iff _ (le_iff_precedes s t)

/-- No two identities share a place in the order. -/
theorem eq_of_rank_eq {s t : SignalId} (h : s.rank = t.rank) : s = t := by
  have hs := s.satellite.toNat_lt
  have ht := t.satellite.toNat_lt
  have hs' := signalRank_lt s.signal
  have ht' := signalRank_lt t.signal
  rw [rank_eq, rank_eq] at h
  have hsystem : s.system = t.system := UInt8.toNat_inj.mp (by omega)
  have hsatellite : s.satellite = t.satellite := UInt8.toNat_inj.mp (by omega)
  have hsignal : s.signal = t.signal := signalRank_inj.mp (by omega)
  cases s
  cases t
  simp_all

theorem precedes_antisymm {s t : SignalId} (h : s.Precedes t) (h' : t.Precedes s) : s = t := by
  rw [← le_iff_precedes, le, decide_eq_true_iff] at h h'
  exact eq_of_rank_eq (Nat.le_antisymm h h')

/-- The identities in order. -/
def sorted (ids : List SignalId) : List SignalId := ids.mergeSort le

theorem sorted_perm (ids : List SignalId) : (sorted ids).Perm ids := ids.mergeSort_perm le

/-- Sorting puts identities in the order of a list. -/
theorem pairwise_sorted (ids : List SignalId) : (sorted ids).Pairwise Precedes := by
  have htrans (s t u : SignalId) (h : s.le t) (h' : t.le u) : s.le u := by
    simp only [le, decide_eq_true_iff] at h h' ⊢
    exact Nat.le_trans h h'
  have htotal (s t : SignalId) : s.le t || t.le s := by
    simpa only [le, Bool.or_eq_true, decide_eq_true_iff] using Nat.le_total s.rank t.rank
  apply (List.pairwise_mergeSort htrans htotal ids).imp
  intro s t h
  exact (le_iff_precedes s t).mp h

/-- There is only one order for the same identities. -/
theorem sorted_eq_of_perm {ids ids' : List SignalId} (h : ids.Perm ids') :
    sorted ids = sorted ids' :=
  List.Perm.eq_of_pairwise (fun _ _ _ _ => precedes_antisymm) (pairwise_sorted ids)
    (pairwise_sorted ids') ((sorted_perm ids).trans (h.trans (sorted_perm ids').symm))

end SignalId

/-- The names of identities, each after a blank. -/
def names (ids : List SignalId) : String := String.join (ids.map fun id => " " ++ id.name)

theorem inOrder_eq (ids : List SignalId) : inOrder ids = names (SignalId.sorted ids) := rfl

/-! ### Blocks by their places -/

/-- The blocks counted that are complete, each at its place. -/
theorem blocks_eq {size : Nat} (hsize : 0 < size) (count : Nat) (bytes : List UInt8) :
    blocks size count bytes
      = (List.range (min count (bytes.length / size))).map fun i =>
          (bytes.drop (size * i)).take size := by
  -- by the blocks counted: the first one is taken off if it is complete, else none is left
  induction count generalizing bytes with
  | zero => simp [blocks]
  | succ count ih =>
    rw [blocks]
    by_cases hfits : size ≤ bytes.length
    · have hlength : (bytes.take size).length = size := by
        rw [List.length_take]
        omega
      have hcount : min (count + 1) (bytes.length / size)
          = min count ((bytes.length - size) / size) + 1 := by
        rw [Nat.div_eq_sub_div hsize hfits]
        omega
      rw [if_pos hlength, ih, List.length_drop, hcount, List.range_succ_eq_map]
      simp [Nat.mul_add, Function.comp_def, Nat.add_comm]
    · have hlength : (bytes.take size).length ≠ size := by
        rw [List.length_take]
        omega
      have hnone : bytes.length / size = 0 := Nat.div_eq_of_lt (by omega)
      rw [if_neg hlength, hnone, Nat.min_zero]
      rfl

/-- How a message lists satellites or signals: a head, and a block for each of them. -/
structure SkyList where
  id : MessageId
  /-- Where the head has the version. -/
  versionAt : Nat
  /-- The version that is known. -/
  version : UInt8
  /-- Where the head has the number of blocks. -/
  countAt : Nat
  headSize : Nat
  blockSize : Nat
  /-- Where a block has the system. The satellite follows, and then the signal if it has one. -/
  nameAt : Nat
  /-- Whether the blocks are about signals rather than satellites. -/
  hasSignals : Bool
  /-- Whether the blocks counted must be there, and nothing else. -/
  isExact : Bool
  /-- How the time in the head is shown. -/
  time : List UInt8 → String

namespace SkyList

/-- The list of signals (NAV-SIG). -/
def navSig : SkyList where
  id := ⟨0x01, 0x43⟩
  versionAt := 4
  version := 0
  countAt := 5
  headSize := 8
  blockSize := 16
  nameAt := 0
  hasSignals := true
  isExact := false
  time head := weekTime (scaled (decode (head.take 4) : Nat) 1e-3)

/-- The list of satellites (NAV-SAT). -/
def navSat : SkyList where
  id := ⟨0x01, 0x35⟩
  versionAt := 4
  version := 1
  countAt := 5
  headSize := 8
  blockSize := 12
  nameAt := 0
  hasSignals := false
  isExact := false
  time head := weekTime (scaled (decode (head.take 4) : Nat) 1e-3)

/-- The list of measurements (RXM-RAWX), with the number of the week behind the time. -/
def rxmRawx : SkyList where
  id := ⟨0x02, 0x15⟩
  versionAt := 13
  version := 1
  countAt := 11
  headSize := 16
  blockSize := 32
  nameAt := 20
  hasSignals := true
  isExact := true
  time head := weekTime (Float.ofBits (UInt64.ofNat (decode (head.take 8)))) ++ " "
    ++ Text.zeroPadded 4 (decode ((head.drop 8).take 2))

variable (m : SkyList)

/-- How many blocks the head counts. -/
def count (p : List UInt8) : Nat := (p.getD m.countAt 0).toNat

/-- The payload is one that the report knows. -/
structure Knows (p : List UInt8) : Prop where
  head : m.headSize ≤ p.length
  version : p[m.versionAt]? = some m.version
  exact : m.isExact → p.length = m.headSize + m.blockSize * m.count p

/-- How many of the blocks counted are complete. -/
def present (p : List UInt8) : Nat := min (m.count p) ((p.length - m.headSize) / m.blockSize)

/-- A block by its place. -/
def block (p : List UInt8) (i : Nat) : List UInt8 :=
  (p.drop (m.headSize + m.blockSize * i)).take m.blockSize

/-- What a complete block names. -/
def identity (block : List UInt8) : SignalId where
  system := block.getD m.nameAt 0
  satellite := block.getD (m.nameAt + 1) 0
  signal := if m.hasSignals then some (block.getD (m.nameAt + 2) 0) else none

/-- What the complete blocks among those counted name, in their order. -/
def identities (p : List UInt8) : List SignalId :=
  (List.range (m.present p)).map fun i => m.identity (m.block p i)

/-- What is shown of the head: the time and the number of blocks counted. -/
def heading (p : List UInt8) : String :=
  m.time (p.take m.headSize) ++ " " ++ toString (m.count p)

variable {m} {p : List UInt8}

/-- The blocks that a report goes through name the identities by their places. -/
theorem mapM_blocks {at? : List UInt8 → Option SignalId} (hsize : 0 < m.blockSize)
    (hat : ∀ block, block.length = m.blockSize → at? block = some (m.identity block)) :
    (blocks m.blockSize (m.count p) (p.drop m.headSize)).mapM at? = some (m.identities p) := by
  have hblocks : ∀ block ∈ blocks m.blockSize (m.count p) (p.drop m.headSize),
      at? block = some (m.identity block) := by
    intro block hblock
    exact hat block (length_of_mem_blocks hblock)
  rw [mapM_eq_map hblocks, blocks_eq hsize]
  simp [identities, block, present, Function.comp_def]

theorem signalAt?_eq_some (hsignals : m.hasSignals) (hfits : m.nameAt + 3 ≤ m.blockSize)
    {block : List UInt8} (hlength : block.length = m.blockSize) :
    signalAt? m.nameAt block = some (m.identity block) := by
  unfold signalAt? identity
  simp (disch := omega) only [List.getD_eq_getElem?_getD, List.getElem?_eq_getElem,
    Option.bind_eq_bind, Option.bind_some, hsignals, if_true]
  rfl

theorem satelliteAt?_eq_some (hsatellites : m.hasSignals = false)
    (hfits : m.nameAt + 2 ≤ m.blockSize) {block : List UInt8}
    (hlength : block.length = m.blockSize) :
    satelliteAt? m.nameAt block = some (m.identity block) := by
  unfold satelliteAt? identity
  simp (disch := omega) only [List.getD_eq_getElem?_getD, List.getElem?_eq_getElem,
    Option.bind_eq_bind, Option.bind_some, hsatellites]
  rfl

theorem unsigned?_count (hplace : m.countAt < m.headSize) (hhead : m.headSize ≤ p.length) :
    unsigned? p m.countAt 1 = some (m.count p) := by
  have hlt : m.countAt < p.length := Nat.lt_of_lt_of_le hplace hhead
  apply unsigned?_of_getElem?
  simp [List.getElem?_eq_getElem hlt]

/-! ### The three reports -/

/-- The report on signals shows the head and what the blocks name. -/
theorem signals_eq (h : navSig.Knows p) :
    signals p = some (some (navSig.heading p ++ inOrder (navSig.identities p))) := by
  have hhead : 8 ≤ p.length := h.head
  have hversion : unsigned? p 4 1 = some 0 := unsigned?_of_getElem? h.version
  have hcount : unsigned? p 5 1 = some (navSig.count p) := navSig.unsigned?_count (by decide) h.head
  have hids : (blocks 16 (navSig.count p) (p.drop 8)).mapM (signalAt? 0)
      = some (navSig.identities p) :=
    navSig.mapM_blocks (by decide) fun _ => navSig.signalAt?_eq_some rfl (by decide)
  unfold signals
  rw [if_neg (by omega), hversion, weekTime?_eq_some (by omega), hcount]
  simp only [Option.bind_eq_bind, Option.bind_some, hids]
  simp [heading, navSig, List.take_take]

theorem satellites_eq (h : navSat.Knows p) :
    satellites p = some (some (navSat.heading p ++ inOrder (navSat.identities p))) := by
  have hhead : 8 ≤ p.length := h.head
  have hversion : unsigned? p 4 1 = some 1 := unsigned?_of_getElem? h.version
  have hcount : unsigned? p 5 1 = some (navSat.count p) := navSat.unsigned?_count (by decide) h.head
  have hids : (blocks 12 (navSat.count p) (p.drop 8)).mapM (satelliteAt? 0)
      = some (navSat.identities p) :=
    navSat.mapM_blocks (by decide) fun _ => navSat.satelliteAt?_eq_some rfl (by decide)
  unfold satellites
  rw [if_neg (by omega), hversion, weekTime?_eq_some (by omega), hcount]
  simp only [Option.bind_eq_bind, Option.bind_some, hids]
  simp [heading, navSat, List.take_take]

/-- The payload of this report has the blocks counted and nothing else. -/
theorem measurements_eq (h : rxmRawx.Knows p) :
    measurements p = some (some (rxmRawx.heading p ++ inOrder (rxmRawx.identities p))) := by
  have hhead : 16 ≤ p.length := h.head
  have hexact : p.length = 16 + 32 * rxmRawx.count p := h.exact rfl
  have hversion : unsigned? p 13 1 = some 1 := unsigned?_of_getElem? h.version
  have hcount : unsigned? p 11 1 = some (rxmRawx.count p) :=
    rxmRawx.unsigned?_count (by decide) h.head
  have hids : (blocks 32 (rxmRawx.count p) (p.drop 16)).mapM (signalAt? 20)
      = some (rxmRawx.identities p) :=
    rxmRawx.mapM_blocks (by decide) fun _ => rxmRawx.signalAt?_eq_some rfl (by decide)
  unfold measurements
  rw [if_neg (by omega), hversion, hcount, unsigned?_eq_some (by omega),
    unsigned?_eq_some (by omega)]
  simp only [Option.bind_eq_bind, Option.bind_some, hids, hexact]
  simp [heading, rxmRawx, List.take_take, List.drop_take]

/-- The messages that list satellites or signals. -/
def all : List SkyList := [navSig, navSat, rxmRawx]

/-- Each of the three messages is reported as its list says. -/
theorem describe_eq {m : SkyList} (hm : m ∈ all) (h : m.Knows p) :
    describe m.id p = some (m.heading p ++ inOrder (m.identities p)) := by
  have hsome : p ≠ [] := by
    rintro rfl
    have hversion := h.version
    simp at hversion
  simp only [all, List.mem_cons, List.not_mem_nil, or_false] at hm
  rcases hm with rfl | rfl | rfl
  · have hknown : known.find? (fun entry => entry.1 = navSig.id) = some (navSig.id, signals) := rfl
    rw [describe_of_known hsome (by decide) hknown, signals_eq h]
    rfl
  · have hknown : known.find? (fun entry => entry.1 = navSat.id) = some (navSat.id, satellites) :=
      rfl
    rw [describe_of_known hsome (by decide) hknown, satellites_eq h]
    rfl
  · have hknown : known.find? (fun entry => entry.1 = rxmRawx.id)
        = some (rxmRawx.id, measurements) := rfl
    rw [describe_of_known hsome (by decide) hknown, measurements_eq h]
    rfl

/-- What is shown of the head is decided by the head. -/
theorem heading_eq_of_take {m : SkyList} (hm : m ∈ all) {p p' : List UInt8}
    (h : p'.take m.headSize = p.take m.headSize) : m.heading p' = m.heading p := by
  have hplaces : ∀ m ∈ all, m.countAt < m.headSize := by decide
  have hplace := hplaces m hm
  have hcount : p'.getD m.countAt 0 = p.getD m.countAt 0 := by
    rw [List.getD_eq_getElem?_getD, List.getD_eq_getElem?_getD, ← List.getElem?_take_of_lt hplace,
      h, List.getElem?_take_of_lt hplace]
  rw [heading, heading, count, count, h, hcount]

end SkyList

/-- **Satellites and signals are listed in the order of their numbers, whatever their order in the
message.** The report on a payload that is known is what is shown of its head, followed by the names
of what its complete blocks name, of those counted: all of them, as often as they stand there, in
order. Another payload with the same head, whose blocks name the same in any order, has the same
report, whatever else stands in it. -/
theorem describe_of_skyList {m : SkyList} (hm : m ∈ SkyList.all) {p : List UInt8}
    (hp : m.Knows p) :
    (∃ ids, ids.Perm (m.identities p) ∧ ids.Pairwise SignalId.Precedes
        ∧ describe m.id p = some (m.heading p ++ names ids))
      ∧ ∀ p', m.Knows p' → p'.take m.headSize = p.take m.headSize →
          (m.identities p').Perm (m.identities p) → describe m.id p' = describe m.id p := by
  refine ⟨⟨SignalId.sorted (m.identities p), SignalId.sorted_perm _, SignalId.pairwise_sorted _,
    SkyList.describe_eq hm hp⟩, ?_⟩
  intro p' hp' hhead hids
  rw [SkyList.describe_eq hm hp, SkyList.describe_eq hm hp', SkyList.heading_eq_of_take hm hhead,
    inOrder_eq, inOrder_eq, SignalId.sorted_eq_of_perm hids]

/-- A list of three satellites, of four counted. -/
def threeSatellites : List UInt8 :=
  [0x88, 0x13, 0, 0, 1, 4, 0, 0] ++ (6 :: 1 :: List.replicate 10 0)
    ++ (0 :: 30 :: List.replicate 10 0) ++ (0 :: 4 :: List.replicate 10 0)

/-- The same satellites in another order, with other data and a part of a fourth block. -/
def threeReordered : List UInt8 :=
  [0x88, 0x13, 0, 0, 1, 4, 0, 0] ++ (0 :: 4 :: List.replicate 10 0xff)
    ++ (6 :: 1 :: List.replicate 10 7) ++ (0 :: 30 :: List.replicate 10 1) ++ [0, 9, 0]

theorem describe_of_skyList_threeSatellites :
    SkyList.navSat.Knows threeSatellites ∧ SkyList.navSat.Knows threeReordered
      ∧ describe SkyList.navSat.id threeReordered
          = some (SkyList.navSat.heading threeSatellites ++ " G04 G30 R01") := by
  have hm : SkyList.navSat ∈ SkyList.all := List.mem_cons_of_mem _ (List.mem_cons_self ..)
  have hp : SkyList.navSat.Knows threeSatellites := ⟨by decide, by decide, by decide⟩
  have hp' : SkyList.navSat.Knows threeReordered := ⟨by decide, by decide, by decide⟩
  obtain ⟨⟨ids, hperm, hsorted, hdescribe⟩, hsame⟩ := describe_of_skyList hm hp
  -- there is one order for the three, so the names do not have to be sorted here
  have hids : ids = [⟨0, 4, none⟩, ⟨0, 30, none⟩, ⟨6, 1, none⟩] :=
    List.Perm.eq_of_pairwise (fun _ _ _ _ => SignalId.precedes_antisymm) hsorted (by decide)
      (hperm.trans (by decide))
  have hnames : names ids = " G04 G30 R01" := by
    rw [hids]
    decide +kernel
  refine ⟨hp, hp', ?_⟩
  rw [hsame threeReordered hp' (by decide) (by decide), hdescribe, hnames]

end Report
end GnssLink
