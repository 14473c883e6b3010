import GnssLink.Proofs.Session.ScriptedPageServer
/-!
# GnssLink.Proofs.Session.CompleteReads

**A read of the configuration is complete** (`Session.getConfig_of_serves`). If the receiver answers
in time, a read asks for one page after the other, to the first that is not full or is refused, and
answers all items that the keys stand for, each once and in their order. Only for keys without any
item it is refused altogether. A position has 16 bits, so one request cannot skip more than 65535
items.
-/

namespace GnssLink

open GnssLink.Config (Item Layer)
open GnssLink.Config.Query (pageSize)

/-- The request for the page with a number. -/
def PageRequest.nth (layer : Layer) (keys : List UInt32) (i : Nat) : PageRequest :=
  ⟨layer, UInt16.ofNat (pageSize * i), keys⟩

/-- The requests for some of the pages, one after the other. -/
def PageRequest.series (layer : Layer) (keys : List UInt32) (first count : Nat) :
    List PageRequest :=
  (List.range' first count).map (nth layer keys)

/-- The requests for all items that a list of keys stands for. The last page is not full; where the
items fill whole pages it is empty, and refused. -/
def Holdings.requests (holdings : Holdings) (layer : Layer) (keys : List UInt32) :
    List PageRequest :=
  PageRequest.series layer keys 0 ((holdings.items layer keys).length / pageSize + 1)

namespace Session

variable {σ : Type} [Link σ] {holdings : Holdings} {server : PageServer σ holdings}
  {rest : List PageRequest} {limit : Nat} {past : List UInt8} {coming : List Coming}
  {s : Session σ}

/-! ### One page -/

/-- The session expects no page, and the receiver will answer these requests. -/
abbrev Quiet (server : PageServer σ holdings) (requests : List PageRequest) (limit : Nat)
    (past : List UInt8) (coming : List Coming) (s : Session σ) : Prop :=
  Expects pageObservation (server.Serves requests) pageTimeout [] limit past coming s

/-- A page with items is read, and the reading goes on behind it if it is full. -/
theorem readPages_of_lt {q : PageRequest} (h : Quiet server (q :: rest) limit past coming s)
    (hlt : q.position.toNat < (holdings.items q.layer q.keys).length) :
    ∃ limit' past' coming' s', Quiet server rest limit' past' coming' s'
      ∧ readPages q.layer q.keys q.position s =
        if (holdings.page q).length < pageSize then (.ok (holdings.page q), s')
        else
          (readPages q.layer q.keys (nextPosition q.position) s').andThen fun more s =>
            (.ok (holdings.page q ++ more), s) := by
  obtain ⟨m, limit', past', coming', s', hpoll, hpage, hdata, h'⟩ := exchange_of_expects h
  obtain ⟨hverdict, hdecode⟩ := Holdings.pageVerdict_of_lt (protocol_of_isPage hpage) hdata hlt
  refine ⟨limit', past', coming', s', h', ?_⟩
  have hexchange : exchange (pagePoll q.layer q.position q.keys) s = (.ok ⟨m, false⟩, s') := by
    rw [hverdict] at hpoll
    exact hpoll
  rw [readPages_eq, hexchange, Outcome.andThen_ok, if_neg Bool.false_ne_true, hdecode]

/-- Where no items are left, a page that is not the first one is refused, which ends the reading. -/
theorem readPages_of_le {q : PageRequest} (h : Quiet server (q :: rest) limit past coming s)
    (hle : (holdings.items q.layer q.keys).length ≤ q.position.toNat) (hlater : q.position ≠ 0) :
    ∃ limit' past' coming' s', Quiet server rest limit' past' coming' s'
      ∧ readPages q.layer q.keys q.position s = (.ok [], s') := by
  obtain ⟨m, limit', past', coming', s', hpoll, hpage, hdata, h'⟩ := exchange_of_expects h
  have hverdict := Holdings.pageVerdict_of_le (protocol_of_isPage hpage) hdata hle
  refine ⟨limit', past', coming', s', h', ?_⟩
  have hexchange : exchange (pagePoll q.layer q.position q.keys) s = (.ok ⟨m, true⟩, s') := by
    rw [hverdict] at hpoll
    exact hpoll
  rw [readPages_eq, hexchange, Outcome.andThen_ok, if_pos rfl, if_neg hlater]

/-! ### All pages -/

/-- The position of a page is a number of 16 bits, as long as there are not too many items. -/
theorem toNat_position_nth {layer : Layer} {keys : List UInt32} {i : Nat}
    (h : pageSize * i < UInt16.size) :
    (PageRequest.nth layer keys i).position.toNat = pageSize * i := UInt16.toNat_ofNat_of_lt' h

/-- The page after a full one is the next by number. -/
theorem nextPosition_nth {layer : Layer} {keys : List UInt32} {i : Nat}
    (h : pageSize * (i + 1) < UInt16.size) :
    nextPosition (PageRequest.nth layer keys i).position
      = (PageRequest.nth layer keys (i + 1)).position := by
  have hi : pageSize * i < UInt16.size := by
    simp only [pageSize] at h ⊢
    omega
  have hmin : min (pageSize * i + pageSize) (UInt16.size - 1) = pageSize * (i + 1) := by
    rw [Nat.mul_add_one, Nat.min_eq_left]
    rw [Nat.mul_add_one] at h
    omega
  rw [nextPosition, toNat_position_nth hi, hmin]
  rfl

theorem page_nth {layer : Layer} {keys : List UInt32} {i : Nat}
    (h : pageSize * i < UInt16.size) :
    holdings.page (.nth layer keys i)
      = ((holdings.items layer keys).drop (pageSize * i)).take pageSize := by
  rw [Holdings.page, toNat_position_nth h]
  rfl

/-- The last page is not full, or there is none. -/
theorem readPages_of_last {layer : Layer} {keys : List UInt32} {i : Nat}
    (hsome : 0 < (holdings.items layer keys).length)
    (hfew : (holdings.items layer keys).length < UInt16.size)
    (hlast : i = (holdings.items layer keys).length / pageSize)
    (h : Quiet server (.nth layer keys i :: rest) limit past coming s) :
    ∃ limit' past' coming' s', Quiet server rest limit' past' coming' s'
      ∧ readPages layer keys (PageRequest.nth layer keys i).position s
        = (.ok ((holdings.items layer keys).drop (pageSize * i)), s') := by
  have hstart : pageSize * i ≤ (holdings.items layer keys).length := by
    rw [hlast]
    exact Nat.mul_div_le _ _
  have hend : (holdings.items layer keys).length < pageSize * i + pageSize := by
    simp only [pageSize] at hlast ⊢
    omega
  have hword := Nat.lt_of_le_of_lt hstart hfew
  have hposition : (PageRequest.nth layer keys i).position.toNat = pageSize * i :=
    toNat_position_nth hword
  -- items that fill whole pages leave a last page without any, which is refused
  by_cases hlt : pageSize * i < (holdings.items layer keys).length
  · obtain ⟨limit', past', coming', s', h', hread⟩ := readPages_of_lt h (hposition ▸ hlt)
    have hshort : ((holdings.items layer keys).drop (pageSize * i)).length < pageSize := by
      rw [List.length_drop]
      omega
    rw [page_nth hword, List.take_of_length_le (Nat.le_of_lt hshort), if_pos hshort] at hread
    exact ⟨limit', past', coming', s', h', hread⟩
  · have hlater : (PageRequest.nth layer keys i).position ≠ 0 := by
      intro hzero
      rw [hzero, UInt16.toNat_zero] at hposition
      omega
    obtain ⟨limit', past', coming', s', h', hread⟩ :=
      readPages_of_le h (hposition ▸ Nat.not_lt.mp hlt) hlater
    refine ⟨limit', past', coming', s', h', ?_⟩
    rw [List.drop_of_length_le (Nat.not_lt.mp hlt)]
    exact hread

/-- **The pages from one on are read to the end.** -/
theorem readPages_of_series {layer : Layer} {keys : List UInt32} {i n : Nat}
    (hsome : 0 < (holdings.items layer keys).length)
    (hfew : (holdings.items layer keys).length < UInt16.size)
    (hlast : i + n = (holdings.items layer keys).length / pageSize)
    (h : Quiet server (PageRequest.series layer keys i (n + 1) ++ rest) limit past coming s) :
    ∃ limit' past' coming' s', Quiet server rest limit' past' coming' s'
      ∧ readPages layer keys (PageRequest.nth layer keys i).position s
        = (.ok ((holdings.items layer keys).drop (pageSize * i)), s') := by
  induction n generalizing i limit past coming s with
  | zero => exact readPages_of_last hsome hfew hlast h
  | succ n ih =>
    -- there are more pages, so this one is full
    have hnext : pageSize * (i + 1) ≤ (holdings.items layer keys).length := by
      have hfull := Nat.mul_div_le (holdings.items layer keys).length pageSize
      rw [← hlast, Nat.add_comm n 1, ← Nat.add_assoc, Nat.mul_add] at hfull
      omega
    have hnextWord := Nat.lt_of_le_of_lt hnext hfew
    rw [Nat.mul_add_one] at hnext
    have hlt : pageSize * i < (holdings.items layer keys).length :=
      Nat.lt_of_lt_of_le (Nat.lt_add_of_pos_right (by decide)) hnext
    have hword := Nat.lt_trans hlt hfew
    have hfull : ¬(holdings.page (.nth layer keys i)).length < pageSize := by
      rw [page_nth hword, List.length_take, List.length_drop]
      omega
    obtain ⟨limit₁, past₁, coming₁, s₁, h₁, hread⟩ :=
      readPages_of_lt (q := .nth layer keys i) h (by rwa [toNat_position_nth hword])
    obtain ⟨limit₂, past₂, coming₂, s₂, h₂, hmore⟩ := ih (i := i + 1) (by omega) h₁
    refine ⟨limit₂, past₂, coming₂, s₂, h₂, ?_⟩
    rw [if_neg hfull, nextPosition_nth hnextWord] at hread
    refine hread.trans ?_
    show (readPages layer keys (PageRequest.nth layer keys (i + 1)).position s₁).andThen _ = _
    rw [hmore, Outcome.andThen_ok, page_nth hword, Nat.mul_add_one, ← List.drop_drop,
      List.take_append_drop]

/-! ### All keys -/

/-- **A read of several lists of keys gives the items of each.** -/
theorem readAll_of_quiet {layer : Layer} {lists : List (List UInt32)}
    (hitems : ∀ keys ∈ lists, 0 < (holdings.items layer keys).length
      ∧ (holdings.items layer keys).length < UInt16.size)
    (h : Quiet server (lists.flatMap (holdings.requests layer) ++ rest) limit past coming s) :
    ∃ s', readAll layer lists s = (.ok (lists.flatMap (holdings.items layer)), s') := by
  induction lists generalizing limit past coming s with
  | nil => exact ⟨s, rfl⟩
  | cons keys more ih =>
    obtain ⟨⟨hsome, hfew⟩, hmore⟩ := List.forall_mem_cons.mp hitems
    rw [List.flatMap_cons, List.append_assoc, Holdings.requests] at h
    obtain ⟨limit₁, past₁, coming₁, s₁, h₁, hread⟩ :=
      readPages_of_series hsome hfew (Nat.zero_add _) h
    obtain ⟨s₂, hall⟩ := ih hmore h₁
    have hfirst : readPages layer keys 0 s = (.ok (holdings.items layer keys), s₁) := hread
    refine ⟨s₂, ?_⟩
    rw [readAll, hfirst, Outcome.andThen_ok, hall, Outcome.andThen_ok, List.flatMap_cons]

/-- **A read of the configuration is complete** where the receiver answers every request in time: it
answers the items of all keys, each once and in order. -/
theorem getConfig_of_serves (holdings : Holdings) (server : PageServer σ holdings) (layer : Layer)
    (keys : List UInt32) (more : List PageRequest) (coming : List Coming) (s : Session σ)
    (hopen : s.phase.isOpen = true) (hactive : s.aborted = false)
    (hserves : server.Serves
      ((Config.chunksOf pageSize keys).flatMap (holdings.requests layer) ++ more)
      s.demux.buffer coming s.link)
    (hquiet : pages (s.demux.buffer ++ bytesOf coming) = [])
    (hitems : ∀ run ∈ Config.chunksOf pageSize keys, 0 < (holdings.items layer run).length
      ∧ (holdings.items layer run).length ≤ 65535) :
    (s.getConfig layer keys).1
      = .ok ((Config.chunksOf pageSize keys).flatMap (holdings.items layer)) := by
  have hstart : Quiet server _ _ _ coming { s with phase := .busy } :=
    Expects.of_quiet hserves hactive hquiet
  have hfew (run : List UInt32) (hmem : run ∈ Config.chunksOf pageSize keys) :=
    And.intro (hitems run hmem).1 (Nat.lt_succ_of_le (hitems run hmem).2)
  obtain ⟨s', hread⟩ := readAll_of_quiet hfew hstart
  rw [getConfig_of_isOpen hopen, hread]

/-! ### A full page

The receiver holds 64 items for any keys, which fill one page. So it refuses a second one, for which
it has to be asked all the same. Something else arrives meanwhile. -/

/-- As many items as there are on a full page. -/
def fullPage : Holdings where
  items _ _ := List.replicate pageSize (someItem 1)
  sound _ _ item hmem := by
    rw [List.eq_of_mem_replicate hmem]
    rfl

/-- The end of an epoch. -/
def epochEnd : Parcel := ⟨5, Frame.encode ⟨⟨0x01, 0x61⟩, []⟩⟩

/-- A session whose receiver answers requests for all items after 7 milliseconds. -/
def ofFullPage : Session Script where
  name := ""
  options := { detect := false }
  phase := .ready
  link := {
    incoming := [epochEnd.arrival]
    rules := Script.rulesFor fullPage 7 (fullPage.requests .ram [0x20110021]) }

theorem serves_ofFullPage :
    (Script.pageServer fullPage).Serves (fullPage.requests .ram [0x20110021]) []
      (Parcel.comingAll [epochEnd]) ofFullPage.link := by
  have hwhole : ∀ p ∈ [epochEnd], p.IsWhole :=
    List.forall_mem_singleton.mpr (Script.isWhole_frame 5 (by decide))
  exact ⟨[epochEnd], rfl, ⟨rfl, List.pairwise_singleton _ _, hwhole⟩, by rw [Stream.layout_nil],
    Script.answersAll_rulesFor fullPage (by decide) _, rfl, rfl⟩

/-- The read gives 64 items: the refusal of the second page adds none. -/
theorem getConfig_ofFullPage :
    (Script.pageServer fullPage).Serves (fullPage.requests .ram [0x20110021]) []
        (Parcel.comingAll [epochEnd]) ofFullPage.link
      ∧ pages (bytesOf (Parcel.comingAll [epochEnd])) = []
      ∧ (ofFullPage.getConfig .ram [0x20110021]).1 = .ok (List.replicate 64 (someItem 1)) := by
  have hquiet : pages (bytesOf (Parcel.comingAll [epochEnd])) = [] := by
    rw [Parcel.bytesOf_comingAll_cons]
    show pages (Frame.encode ⟨⟨0x01, 0x61⟩, []⟩ ++ []) = []
    rw [List.append_nil, Script.pages_frame (by decide)]
    decide
  have hchunks : Config.chunksOf pageSize [(0x20110021 : UInt32)] = [[0x20110021]] := by
    simp [Config.chunksOf_cons]
  have hserves : (Script.pageServer fullPage).Serves
      ((Config.chunksOf pageSize [(0x20110021 : UInt32)]).flatMap (fullPage.requests .ram) ++ []) []
      (Parcel.comingAll [epochEnd]) ofFullPage.link := by
    rw [hchunks, List.flatMap_singleton, List.append_nil]
    exact serves_ofFullPage
  have hitems : ∀ run ∈ Config.chunksOf pageSize [(0x20110021 : UInt32)],
      0 < (fullPage.items .ram run).length ∧ (fullPage.items .ram run).length ≤ 65535 := by
    intro _ _
    show 0 < (List.replicate pageSize (someItem 1)).length
      ∧ (List.replicate pageSize (someItem 1)).length ≤ 65535
    rw [List.length_replicate]
    decide
  have hread := getConfig_of_serves fullPage (Script.pageServer fullPage) .ram [0x20110021] [] _
    ofFullPage rfl rfl hserves hquiet hitems
  rw [hchunks, List.flatMap_singleton] at hread
  exact ⟨serves_ofFullPage, hquiet, hread⟩

end Session
end GnssLink
