import GnssLink.Proofs.Session.CompleteReads
import GnssLink.Proofs.Session.Course
/-!
# GnssLink.Proofs.Session.Positions

**Where the pages start that a read of the configuration asks for**
(`Session.positions_of_getConfig`). One list of keys is asked for page by page as long as full pages
come, each 64 items after the one before. The 1025th page is the last that a request can name. If it
is full too then the read asks for it again, and goes on so until the receiver sends something else.

The pages asked for are read off the run (`Session.pagesAsked`). That they are those that the
session sends polls for is said of the frames written (`SentInTurn`).
-/

namespace GnssLink

open GnssLink.Config (Layer)
open GnssLink.Config.Query (pageSize)
open GnssLink.Session (nextPosition pagePoll)

/-! ### Pages asked for -/

/-- A page that is asked for, and what ends the poll for it, unless nothing does. -/
structure AskedPage where
  position : UInt16
  answer : Option Answer

/-- Whether the page was given and is full, so that another may follow. -/
def AskedPage.isFull (page : AskedPage) : Bool :=
  page.answer.any fun answer => pageSize ≤ answer.message.pageItems.length

/-- The pages are asked for from a position on, each after a full one. -/
inductive AskedFrom : UInt16 → List AskedPage → Prop where
  | last {page : AskedPage} (short : page.isFull = false) : AskedFrom page.position [page]
  | next {page : AskedPage} {rest : List AskedPage} (full : page.isFull = true)
      (more : AskedFrom (nextPosition page.position) rest) : AskedFrom page.position (page :: rest)

/-- Where a page starts. A request holds no position after 65535. -/
def pageStart (i : Nat) : UInt16 := UInt16.ofNat (min (pageSize * i) (UInt16.size - 1))

theorem toNat_pageStart (i : Nat) : (pageStart i).toNat = min (pageSize * i) (UInt16.size - 1) := by
  have hlt : min (pageSize * i) (UInt16.size - 1) < UInt16.size :=
    Nat.lt_of_le_of_lt (Nat.min_le_right _ _) (by decide)
  exact UInt16.toNat_ofNat_of_lt' hlt

/-- A full page is followed by the one that starts 64 items later, up to the greatest position. -/
theorem nextPosition_pageStart (i : Nat) : nextPosition (pageStart i) = pageStart (i + 1) := by
  have hclamp : min (min (pageSize * i) (UInt16.size - 1) + pageSize) (UInt16.size - 1)
      = min (pageSize * (i + 1)) (UInt16.size - 1) := by
    rw [Nat.mul_add_one]
    omega
  rw [nextPosition, toNat_pageStart, hclamp]
  rfl

/-- The positions grow up to the 1025th, and no further. -/
theorem pairwise_pageStart_iff (n : Nat) :
    ((List.range (n + 1)).map pageStart).Pairwise (· < ·) ↔ n ≤ 1024 := by
  have hlt (i j : Nat) : pageStart i < pageStart j
      ↔ min (64 * i) 65535 < min (64 * j) 65535 := by
    rw [UInt16.lt_iff_toNat_lt, toNat_pageStart, toNat_pageStart]
    rfl
  rw [List.pairwise_map]
  simp only [hlt, List.pairwise_iff_getElem, List.length_range, List.getElem_range]
  constructor
  · intro hgrow
    by_contra hmore
    -- the pages 1024 and 1025 both start at 65535
    have hlast := hgrow 1024 1025 (by omega) (by omega) (by omega)
    omega
  · intro hfew i j hi hj hij
    omega

/-- Pages asked for one after the other start where pages of 64 items do. -/
theorem AskedFrom.positions {i : Nat} {position : UInt16} {pages : List AskedPage}
    (h : AskedFrom position pages) (hstart : position = pageStart i) :
    pages.map AskedPage.position = (List.range' i pages.length).map pageStart := by
  induction h generalizing i with
  | last =>
    rw [List.map_singleton, hstart]
    rfl
  | @next page rest _ _ ih =>
    have hrest := ih (i := i + 1) (by rw [hstart, nextPosition_pageStart])
    rw [List.map_cons, List.length_cons, List.range'_succ, List.map_cons, hrest, hstart]

/-- All pages but the last one are full. -/
theorem AskedFrom.length_eq {position : UInt16} {pages : List AskedPage}
    (h : AskedFrom position pages) : pages.length = pages.countP AskedPage.isFull + 1 := by
  induction h with
  | last short => simp [short]
  | next full _ ih =>
    rw [List.length_cons, List.countP_cons_of_pos full, ih]

/-! ### Polls sent -/

/-- Each poll is sent once or more often, as often as it may be, before the next one is. -/
inductive SentInTurn : List Poll → List (List UInt8) → Prop where
  | nil : SentInTurn [] []
  | cons {poll : Poll} {k : Nat} {polls : List Poll} {frames : List (List UInt8)} (sent : 1 ≤ k)
      (most : k ≤ poll.attempts) (more : SentInTurn polls frames) :
      SentInTurn (poll :: polls) (List.replicate k poll.frame ++ frames)

theorem SentInTurn.append {polls more : List Poll} {frames later : List (List UInt8)}
    (h : SentInTurn polls frames) (hmore : SentInTurn more later) :
    SentInTurn (polls ++ more) (frames ++ later) := by
  induction h with
  | nil => exact hmore
  | cons sent most _ ih =>
    rw [List.cons_append, List.append_assoc]
    exact .cons sent most ih

/-- The bytes that were to be written in a use. -/
def Use.written? : Use → Option (List UInt8)
  | write data _ => some data
  | _ => none

namespace Session

variable {σ : Type}

/-- These frames were written from one session to the other, the last of them perhaps in vain. -/
def Writes (s : Session (Logged σ)) (frames : List (List UInt8)) (s' : Session (Logged σ)) : Prop :=
  ∃ uses, s'.link.uses = s.link.uses ++ uses ∧ uses.filterMap Use.written? = frames

namespace Writes

variable {s s₁ s₂ : Session (Logged σ)} {frames more : List (List UInt8)}

theorem of_eq (h : s₁.link.uses = s.link.uses) : Writes s [] s₁ :=
  ⟨[], by rw [h, List.append_nil], rfl⟩

theorem trans (h : Writes s frames s₁) (hmore : Writes s₁ more s₂) :
    Writes s (frames ++ more) s₂ := by
  obtain ⟨uses, huses, rfl⟩ := h
  obtain ⟨later, hlater, rfl⟩ := hmore
  exact ⟨uses ++ later, by rw [hlater, huses, List.append_assoc], List.filterMap_append⟩

/-- What comes after something that writes nothing. -/
theorem after (h : Writes s [] s₁) (hmore : Writes s₁ more s₂) : Writes s more s₂ := h.trans hmore

/-- What is followed by something that writes nothing. -/
theorem before (h : Writes s frames s₁) (hmore : Writes s₁ [] s₂) : Writes s frames s₂ :=
  List.append_nil frames ▸ h.trans hmore

end Writes

theorem writes_keep (s : Session (Logged σ)) (m : Stream.Message) : Writes s [] (s.keep m) := by
  unfold keep
  split <;> exact .of_eq rfl

/-- From one session to the other these polls were sent, one after the other. -/
def Sends (s : Session (Logged σ)) (polls : List Poll) (s' : Session (Logged σ)) : Prop :=
  ∃ frames, Writes s frames s' ∧ SentInTurn polls frames

theorem Sends.nil (s : Session (Logged σ)) : Sends s [] s := ⟨[], .of_eq rfl, .nil⟩

theorem Sends.trans {s s₁ s₂ : Session (Logged σ)} {polls more : List Poll}
    (h : Sends s polls s₁) (hmore : Sends s₁ more s₂) : Sends s (polls ++ more) s₂ := by
  obtain ⟨frames, hwrites, hsent⟩ := h
  obtain ⟨later, hlater, hsentLater⟩ := hmore
  exact ⟨frames ++ later, hwrites.trans hlater, hsent.append hsentLater⟩

variable [Link σ]

/-- Waiting for a message writes nothing. -/
theorem writes_receive (s : Session (Logged σ)) (deadline : Nat) (attempted : Bool) :
    Writes s [] (s.receive deadline attempted).2 := by
  fun_induction receive s deadline attempted with
  | case1 => exact .of_eq rfl
  | case2 => exact .of_eq rfl
  | case3 => exact .of_eq rfl
  | case4 s _ _ _ _ f link hread =>
    exact ⟨_, (Logged.eq_of_enter hread).2, rfl⟩
  | case5 s _ _ _ _ data link hread _ _ ih =>
    have hreads : Writes s [] { s with link, demux := s.demux.add data } :=
      ⟨_, (Logged.eq_of_enter hread).2, rfl⟩
    exact hreads.after ih

theorem writes_awaitAnswer (poll : Poll) (deadline : Nat) (s : Session (Logged σ)) :
    Writes s [] (awaitAnswer poll deadline s).2 := by
  fun_induction awaitAnswer poll deadline s with
  | case1 => exact .of_eq rfl
  | case2 s _ _ _ hr | case3 s _ _ hr | case4 s _ _ _ hr | case5 s _ _ _ hr =>
    have h := writes_receive s deadline false
    rwa [hr] at h
  | case6 s _ m s₁ hr _ _ ih =>
    have h := writes_receive s deadline false
    rw [hr] at h
    exact (h.trans (writes_keep s₁ m)).after ih

theorem writes_put (s : Session (Logged σ)) (data : List UInt8) :
    Writes s [data] (s.put data).2 := by
  unfold put
  split <;> next hwrite => exact ⟨_, (Logged.eq_of_enter hwrite).2, rfl⟩

/-- A poll is sent once for each attempt that is made. -/
theorem writes_tryPoll {poll : Poll} (hsends : poll.waitOnly = false) (n : Nat)
    (s : Session (Logged σ)) :
    ∃ k, k ≤ n ∧ (0 < n → 0 < k) ∧ Writes s (List.replicate k poll.frame) (tryPoll poll n s).2 := by
  induction n generalizing s with
  | zero => exact ⟨0, Nat.le_refl 0, id, .of_eq rfl⟩
  | succ n ih =>
    have hput := writes_put s poll.frame
    have hputPoll : putPoll poll s = s.put poll.frame := by
      rw [putPoll, if_neg (by rw [hsends]; exact Bool.false_ne_true)]
    have honce {s₁ : Session (Logged σ)} (h : Writes s [poll.frame] s₁) :
        ∃ k, k ≤ n + 1 ∧ (0 < n + 1 → 0 < k) ∧ Writes s (List.replicate k poll.frame) s₁ :=
      ⟨1, Nat.le_add_left 1 n, fun _ => Nat.one_pos, h⟩
    unfold tryPoll
    rw [hputPoll]
    rcases hsent : s.put poll.frame with ⟨e | _, sent⟩ <;> rw [hsent] at hput
    · exact honce hput
    · have hwait := writes_awaitAnswer poll (sent.now + poll.timeout) sent
      simp only [Outcome.andThen_ok]
      rcases hwaited : awaitAnswer poll (sent.now + poll.timeout) sent with ⟨e | _ | answer, waited⟩
        <;> rw [hwaited] at hwait
      · exact honce (hput.before hwait)
      · obtain ⟨k, hk, -, hrest⟩ := ih waited
        exact ⟨k + 1, Nat.succ_le_succ hk, fun _ => Nat.succ_pos k, (hput.before hwait).trans hrest⟩
      · exact honce (hput.before hwait)

/-- An exchange sends its poll at least once, and no other. -/
theorem sends_exchange {poll : Poll} (hsends : poll.waitOnly = false)
    (hsome : poll.attempts ≠ 0) (s : Session (Logged σ)) :
    Sends s [poll] (exchange poll s).2 := by
  obtain ⟨k, hmost, hsent, hwrites⟩ := writes_tryPoll hsends poll.attempts s
  have honce : 1 ≤ k := hsent (Nat.pos_of_ne_zero hsome)
  refine ⟨List.replicate k poll.frame ++ [], ?_, .cons honce hmost .nil⟩
  rw [List.append_nil]
  unfold exchange
  rcases htry : tryPoll poll poll.attempts s with ⟨e | _ | answer, s₁⟩ <;> rw [htry] at hwrites
  all_goals exact hwrites

/-! ### Reads -/

/-- The pages that a read asks for from a position on. -/
def pagesAsked (layer : Layer) (keys : List UInt32) (position : UInt16) (s : Session σ) :
    List AskedPage :=
  match h : exchange (pagePoll layer position keys) s with
  | (.error _, _) => [⟨position, none⟩]
  | (.ok answer, s') =>
    if answer.message.pageItems.length < pageSize then [⟨position, some answer⟩]
    else
      have _ := backlog_lt_of_exchange h
      ⟨position, some answer⟩ :: pagesAsked layer keys (nextPosition position) s'
termination_by s.backlog

theorem pagesAsked_of_ok {layer : Layer} {keys : List UInt32} {position : UInt16}
    {s s₁ : Session σ} {answer : Answer}
    (hpoll : exchange (pagePoll layer position keys) s = (.ok answer, s₁)) :
    pagesAsked layer keys position s =
      if answer.message.pageItems.length < pageSize then [⟨position, some answer⟩]
      else ⟨position, some answer⟩ :: pagesAsked layer keys (nextPosition position) s₁ := by
  rw [pagesAsked]
  split
  · next hpoll' => rw [hpoll] at hpoll'; cases hpoll'
  · next hpoll' =>
    rw [hpoll] at hpoll'
    cases hpoll'
    rfl

theorem pagesAsked_of_error {layer : Layer} {keys : List UInt32} {position : UInt16}
    {s s₁ : Session σ} {e : SessionError}
    (hpoll : exchange (pagePoll layer position keys) s = (.error e, s₁)) :
    pagesAsked layer keys position s = [⟨position, none⟩] := by
  rw [pagesAsked]
  split
  · rfl
  · next hpoll' => rw [hpoll] at hpoll'; cases hpoll'

/-- The pages that a read asks for follow one another. -/
theorem askedFrom_pagesAsked (layer : Layer) (keys : List UInt32) (position : UInt16)
    (s : Session σ) : AskedFrom position (pagesAsked layer keys position s) := by
  fun_induction pagesAsked layer keys position s with
  | case1 position => exact @AskedFrom.last ⟨position, none⟩ rfl
  | case2 position s answer s₁ hpoll hshort =>
    have hshort : AskedPage.isFull ⟨position, some answer⟩ = false := by
      simpa [AskedPage.isFull] using hshort
    exact .last hshort
  | case3 position s answer s₁ hpoll hfull _ ih =>
    have hfull : AskedPage.isFull ⟨position, some answer⟩ = true := by
      simpa [AskedPage.isFull] using hfull
    exact .next hfull ih

/-- The pages that a read asks for one list of keys. -/
structure AskedChunk where
  keys : List UInt32
  pages : List AskedPage

/-- The polls for the pages. -/
def AskedChunk.polls (layer : Layer) (chunk : AskedChunk) : List Poll :=
  chunk.pages.map fun page => pagePoll layer page.position chunk.keys

/-- How many full pages came. -/
def AskedChunk.fullPages (chunk : AskedChunk) : Nat := chunk.pages.countP AskedPage.isFull

/-- What a read asks for, up to the list of keys where it fails if it does. -/
def chunksAsked (layer : Layer) : List (List UInt32) → Session σ → List AskedChunk
  | [], _ => []
  | keys :: rest, s =>
    ⟨keys, pagesAsked layer keys 0 s⟩ ::
      match readPages layer keys 0 s with
      | (.error _, _) => []
      | (.ok _, s) => chunksAsked layer rest s

/-- What a read of the configuration asks for in a session. -/
def configAsked (s : Session σ) (layer : Layer) (keys : List UInt32) : List AskedChunk :=
  if s.phase.isOpen then
    chunksAsked layer (Config.chunksOf pageSize keys) { s with phase := .busy }
  else []

/-- Each list of keys is asked for from position 0, in the session that the ones before it left. -/
theorem exists_of_mem_chunksAsked {layer : Layer} {lists : List (List UInt32)} {s : Session σ}
    {chunk : AskedChunk} (hmem : chunk ∈ chunksAsked layer lists s) :
    ∃ s' : Session σ, chunk.pages = pagesAsked layer chunk.keys 0 s' := by
  induction lists generalizing s with
  | nil => cases hmem
  | cons keys rest ih =>
    unfold chunksAsked at hmem
    rcases List.mem_cons.mp hmem with rfl | hmem
    · exact ⟨s, rfl⟩
    · split at hmem
      · cases hmem
      · exact ih hmem

/-- The lists of keys are asked for in their order, some of the last perhaps not at all. -/
theorem keys_chunksAsked (layer : Layer) (lists : List (List UInt32)) (s : Session σ) :
    (chunksAsked layer lists s).map AskedChunk.keys <+: lists := by
  induction lists generalizing s with
  | nil => exact List.prefix_rfl
  | cons keys rest ih =>
    rw [chunksAsked, List.map_cons, List.cons_prefix_cons]
    refine ⟨rfl, ?_⟩
    split
    · exact List.nil_prefix
    · next s₁ _ => exact ih s₁

/-! ### Reads with a log -/

section Map

variable {τ : Type} [Link τ] {f : σ → τ} (hf : Link.IsHom f)

include hf

/-- Which pages are asked for does not depend on whether the link is logged. -/
theorem pagesAsked_mapLink (layer : Layer) (keys : List UInt32) (position : UInt16)
    (s : Session σ) :
    pagesAsked layer keys position (s.mapLink f) = pagesAsked layer keys position s := by
  -- the case equations hold of the session with the other link, once its poll is known
  have hmap {position : UInt16} {s s₁ : Session σ} {r : Except SessionError Answer}
      (hpoll : exchange (pagePoll layer position keys) s = (r, s₁)) :
      exchange (pagePoll layer position keys) (s.mapLink f) = (r, s₁.mapLink f) := by
    rw [exchange_mapLink hf, hpoll]
    rfl
  fun_induction pagesAsked layer keys position s with
  | case1 position s e s₁ hpoll => exact pagesAsked_of_error (hmap hpoll)
  | case2 position s answer s₁ hpoll hshort =>
    rw [pagesAsked_of_ok (hmap hpoll), if_pos hshort]
  | case3 position s answer s₁ hpoll hfull _ ih =>
    rw [pagesAsked_of_ok (hmap hpoll), if_neg hfull, ih]

theorem chunksAsked_mapLink (layer : Layer) (lists : List (List UInt32)) (s : Session σ) :
    chunksAsked layer lists (s.mapLink f) = chunksAsked layer lists s := by
  induction lists generalizing s with
  | nil => rfl
  | cons keys rest ih =>
    rw [chunksAsked, chunksAsked, pagesAsked_mapLink hf, readPages_mapLink hf]
    rcases readPages layer keys 0 s with ⟨e | items, s₁⟩
    · rfl
    · exact congrArg _ (ih s₁)

end Map

/-- A refusal has no items. -/
theorem pageItems_of_refused {layer : Layer} {keys : List UInt32} {position : UInt16}
    {s s₁ : Session σ} {answer : Answer}
    (hpoll : exchange (pagePoll layer position keys) s = (.ok answer, s₁))
    (hrefused : answer.refused = true) : answer.message.pageItems = [] := by
  rw [Stream.Message.pageItems, pageVerdict_of_exchange hpoll, if_pos hrefused]

/-- The polls sent are those for the pages asked for. -/
theorem sends_readPages (layer : Layer) (keys : List UInt32) (position : UInt16)
    (s : Session (Logged σ)) :
    Sends s (AskedChunk.polls layer ⟨keys, pagesAsked layer keys position s⟩)
      (readPages layer keys position s).2 := by
  have hpage {position : UInt16} {s s₁ : Session (Logged σ)} {r : Except SessionError Answer}
      (hpoll : exchange (pagePoll layer position keys) s = (r, s₁)) :
      Sends s [pagePoll layer position keys] s₁ := by
    have h : Sends s [pagePoll layer position keys]
        (exchange (pagePoll layer position keys) s).2 :=
      sends_exchange rfl (attempts_pagePoll_ne_zero _ _ _) s
    rwa [hpoll] at h
  fun_induction readPages layer keys position s with
  | case1 position s e s₁ hpoll =>
    rw [pagesAsked_of_error hpoll]
    exact hpage hpoll
  | case2 s answer s₁ hrefused hpoll =>
    rw [pagesAsked_of_ok hpoll, pageItems_of_refused hpoll hrefused]
    exact hpage hpoll
  | case3 position s answer s₁ hpoll hrefused _ =>
    rw [pagesAsked_of_ok hpoll, pageItems_of_refused hpoll hrefused]
    exact hpage hpoll
  | case4 position s answer s₁ hpoll hgiven e hdecode =>
    have hitems : answer.message.pageItems = [] := by
      rw [Stream.Message.pageItems, pageVerdict_of_exchange hpoll, if_neg hgiven, hdecode]
    rw [pagesAsked_of_ok hpoll, hitems]
    exact hpage hpoll
  | case5 position s answer s₁ hpoll hgiven items hdecode hlast =>
    rw [pagesAsked_of_ok hpoll, pageItems_of_exchange hpoll hgiven hdecode, if_pos hlast]
    exact hpage hpoll
  | case6 position s answer s₁ hpoll hgiven items hdecode hmore _ ih =>
    rw [pagesAsked_of_ok hpoll, pageItems_of_exchange hpoll hgiven hdecode, if_neg hmore]
    have hall := (hpage hpoll).trans ih
    rcases hrest : readPages layer keys (nextPosition position) s₁ with ⟨e | more, s₂⟩ <;>
      rw [hrest] at hall
    all_goals exact hall

theorem sends_readAll (layer : Layer) (lists : List (List UInt32)) (s : Session (Logged σ)) :
    Sends s ((chunksAsked layer lists s).flatMap (AskedChunk.polls layer))
      (readAll layer lists s).2 := by
  induction lists generalizing s with
  | nil => exact .nil s
  | cons keys rest ih =>
    have hfirst := sends_readPages layer keys 0 s
    rw [chunksAsked, List.flatMap_cons, readAll]
    rcases hread : readPages layer keys 0 s with ⟨e | items, s₁⟩ <;> rw [hread] at hfirst
    · rw [List.flatMap_nil, List.append_nil]
      exact hfirst
    · have hall := hfirst.trans (ih s₁)
      simp only [Outcome.andThen_ok]
      rcases hrest : readAll layer rest s₁ with ⟨e | more, s₂⟩ <;> rw [hrest] at hall
      all_goals exact hall

/-- What a read of the configuration writes are the polls for the pages it asks for. -/
theorem sentInTurn_getConfig (s : Session σ) (layer : Layer) (keys : List UInt32) :
    SentInTurn ((configAsked s layer keys).flatMap (AskedChunk.polls layer))
      ((Call.uses s (.getConfig layer keys)).filterMap Use.written?) := by
  by_cases hopen : s.phase.isOpen = true
  · obtain ⟨r, s₁, phase, hrun, hlogged, -⟩ :=
      exists_exchange_logged hopen (readAll_mapLink Logged.isHom_link layer _)
    have huses : Call.uses s (.getConfig layer keys) = s₁.link.uses :=
      congrArg (fun outcome => outcome.2.link.uses) hlogged
    have hasked : configAsked s layer keys
        = chunksAsked layer (Config.chunksOf pageSize keys) { s.logged with phase := .busy } := by
      rw [configAsked, if_pos hopen]
      exact chunksAsked_mapLink Logged.isHom_link layer _ { s.logged with phase := .busy }
    have hsends := sends_readAll layer (Config.chunksOf pageSize keys)
      { s.logged with phase := .busy }
    obtain ⟨frames, ⟨uses, hnew, rfl⟩, hsent⟩ := hsends
    rw [hrun] at hnew
    have hall : s₁.link.uses = uses := hnew
    rwa [hasked, huses, hall]
  · have hnone : Call.uses s (.getConfig layer keys) = [] := by
      have hrefused : s.logged.getConfig layer keys = (.error .notOpen, s.logged) := if_neg hopen
      show (s.logged.getConfig layer keys).2.link.uses = []
      rw [hrefused]
      rfl
    rw [configAsked, if_neg hopen, hnone]
    exact .nil

/-- **Where the pages start that a read asks for.** For each list of keys these are 0, 64, 128 and
so on, one more than full pages come. They grow, and end with the 1025th, exactly if no more than
1024 pages are full; with the next full page 65535 is asked for again. -/
theorem positions_of_getConfig (s : Session σ) (layer : Layer) (keys : List UInt32) :
    let chunks := configAsked s layer keys
    chunks.map AskedChunk.keys <+: Config.chunksOf pageSize keys
      ∧ SentInTurn (chunks.flatMap (AskedChunk.polls layer))
        ((Call.uses s (.getConfig layer keys)).filterMap Use.written?)
      ∧ ∀ chunk ∈ chunks,
        chunk.pages.map AskedPage.position = (List.range (chunk.fullPages + 1)).map pageStart
          ∧ ((chunk.pages.map AskedPage.position).Pairwise (· < ·) ∧ chunk.pages.length ≤ 1025
            ↔ chunk.fullPages ≤ 1024) := by
  intro chunks
  have hchunk : ∀ chunk ∈ chunks,
      ∃ s' : Session σ, chunk.pages = pagesAsked layer chunk.keys 0 s' := by
    intro chunk hmem
    change chunk ∈ configAsked s layer keys at hmem
    unfold configAsked at hmem
    split at hmem
    · exact exists_of_mem_chunksAsked hmem
    · cases hmem
  refine ⟨?_, sentInTurn_getConfig s layer keys, ?_⟩
  · show (configAsked s layer keys).map AskedChunk.keys <+: _
    unfold configAsked
    split
    · exact keys_chunksAsked layer _ _
    · exact List.nil_prefix
  · intro chunk hmem
    obtain ⟨s', hpages⟩ := hchunk chunk hmem
    have hasked : AskedFrom 0 chunk.pages := hpages ▸ askedFrom_pagesAsked layer chunk.keys 0 s'
    have hlength : chunk.pages.length = chunk.fullPages + 1 := hasked.length_eq
    have hpositions : chunk.pages.map AskedPage.position
        = (List.range (chunk.fullPages + 1)).map pageStart := by
      rw [hasked.positions (i := 0) rfl, hlength, List.range_eq_range']
    refine ⟨hpositions, ?_⟩
    rw [hpositions, pairwise_pageStart_iff, hlength]
    omega

/-! ### A receiver that sends full pages -/

/-- The same frame has arrived so many times, and nothing else comes. -/
structure HoldsFrames (f : Frame) (n : Nat) (s : Session Script) : Prop where
  buffer : s.demux.buffer = []
  aborted : s.aborted = false
  rules : s.link.rules = []
  writable : s.link.failWrite = none
  incoming : s.link.incoming = (List.replicate n ⟨0, f.encode⟩).map Parcel.arrival

namespace HoldsFrames

variable {f : Frame} {n : Nat} {s : Session Script}

/-- What is written is answered by nothing. -/
theorem write (h : HoldsFrames f n s) (data : List UInt8) :
    ∃ link, Link.write data s.link = (.ok (), link) ∧ HoldsFrames f n { s with link } := by
  have hsilent : (s.link.wrote 1 data).respond data = s.link.wrote 1 data := by
    unfold Script.respond
    split
    · rfl
    · have hrules : (s.link.wrote 1 data).rules = [] := h.rules
      rw [hrules, Script.takeReply, ← hrules]
      rfl
  have hwrite : Script.write data s.link = (.ok (), s.link.wrote 1 data) := by
    rw [Script.write_of_writable h.writable, hsilent, ite_self]
  exact ⟨_, hwrite, h.buffer, h.aborted, h.rules, h.writable, h.incoming⟩

/-- The first of the frames is received. -/
theorem receive (h : HoldsFrames f (n + 1) s) (hsize : f.payload.length + Frame.overhead ≤ readSize)
    (deadline : Nat) :
    ∃ m s₁, s.receive deadline false = (.ok (some m), s₁) ∧ m.protocol = .ubx
      ∧ m.data = f.encode ∧ HoldsFrames f n s₁ := by
  obtain ⟨p, hp⟩ : ∃ p : Parcel, p = ⟨0, f.encode⟩ := ⟨_, rfl⟩
  have hincoming := h.incoming
  rw [List.replicate_succ, ← hp] at hincoming
  have hfits : f.payload.length ≤ Stream.Ubx.maxPayload := by
    simp only [Frame.overhead, readSize, Stream.Ubx.maxPayload] at hsize ⊢
    omega
  have hwhole : p.bytes.length ≤ readSize := by
    rw [hp]
    rwa [Frame.length_encode]
  have hnow : ¬s.link.now < p.time := by
    rw [hp]
    exact Nat.not_lt_zero _
  have hread : Link.read s.link = (.ok p.bytes,
      { s.link with incoming := (List.replicate n p).map Parcel.arrival }) := by
    have hread := Script.read_of_arrived hincoming hnow
    rwa [List.take_of_length_le hwhole, Parcel.unread_of_fits hwhole, List.nil_append] at hread
  have hempty : s.demux.next? = none := by
    rw [Stream.Demux.next?, h.buffer]
    rfl
  have hbuffer : (s.demux.add p.bytes).buffer = Stream.joined [.ubx f hfits] := by
    rw [Stream.Demux.add, h.buffer, hp]
    exact (List.append_nil _).symm
  obtain ⟨seq, demux, hnext, hrest⟩ := Stream.Demux.next?_of_joined hbuffer (.singleton _)
  refine ⟨_, _, receive_of_arrived hempty h.aborted hread hnext, rfl, rfl,
    hrest, h.aborted, h.rules, h.writable, ?_⟩
  rw [hp]

end HoldsFrames

/-- A request for 64 items, which fill a page. -/
def fullRequest : PageRequest := ⟨.ram, 0, [0x20110021]⟩

/-- Each poll is answered by the next of the full pages, whatever it asks for. -/
theorem exchange_of_holdsFrames {n : Nat} {s : Session Script}
    (h : HoldsFrames (fullPage.answer fullRequest) (n + 1) s) (layer : Layer) (keys : List UInt32)
    (position : UInt16) :
    ∃ m s₁, exchange (pagePoll layer position keys) s = (.ok ⟨m, false⟩, s₁)
      ∧ m.pageItems.length = pageSize ∧ HoldsFrames (fullPage.answer fullRequest) n s₁ := by
  obtain ⟨link, hwrite, hsent⟩ := h.write (pagePoll layer position keys).frame
  have hput : putPoll (pagePoll layer position keys) s = (.ok (), { s with link }) := by
    show s.put _ = _
    rw [put, hwrite]
  obtain ⟨m, s₁, hr, hprotocol, hdata, hrest⟩ :=
    hsent.receive (Script.length_answer_le fullPage fullRequest)
      (Session.now { s with link } + (pagePoll layer position keys).timeout)
  have hlt : fullRequest.position.toNat
      < (fullPage.items fullRequest.layer fullRequest.keys).length := by decide
  obtain ⟨hverdict, hdecode⟩ := Holdings.pageVerdict_of_lt hprotocol hdata hlt
  have hclass : (pagePoll layer position keys).classify m = .answer :=
    (classify_pagePoll layer position keys m).trans hverdict
  refine ⟨m, s₁, exchange_of_receive (attempts_pagePoll_ne_zero _ _ _) hput hr hclass, ?_, hrest⟩
  rw [Stream.Message.pageItems, hverdict, hdecode]
  decide

/-- So many full pages make a read ask for one more. -/
theorem lt_length_pagesAsked {n : Nat} {s : Session Script}
    (h : HoldsFrames (fullPage.answer fullRequest) n s) (layer : Layer) (keys : List UInt32)
    (position : UInt16) : n < (pagesAsked layer keys position s).length := by
  -- by the frames that are left; the position plays no part, the receiver does not look at it
  induction n generalizing position s with
  | zero =>
    rw [(askedFrom_pagesAsked layer keys position s).length_eq]
    exact Nat.succ_pos _
  | succ n ih =>
    obtain ⟨m, s₁, hpoll, hfull, hrest⟩ := exchange_of_holdsFrames h layer keys position
    have hmore := ih hrest (nextPosition position)
    rw [pagesAsked_of_ok hpoll, hfull, if_neg (Nat.lt_irrefl _), List.length_cons]
    omega

/-- An open session for which 1025 full pages have arrived. -/
def ofManyPages : Session Script where
  name := ""
  options := { detect := false }
  phase := .ready
  link := {
    incoming := (List.replicate 1025 ⟨0, (fullPage.answer fullRequest).encode⟩).map Parcel.arrival }

/-- The last position that a request can hold is asked for twice. -/
theorem exists_position_repeated :
    ∃ chunk ∈ configAsked ofManyPages .ram [0x20110021],
      chunk.keys.length ≤ 64 ∧ 1025 < chunk.pages.length
        ∧ ¬(chunk.pages.map AskedPage.position).Pairwise (· < ·) := by
  have hholds : HoldsFrames (fullPage.answer fullRequest) 1025
      { ofManyPages with phase := .busy } := ⟨rfl, rfl, rfl, rfl, rfl⟩
  obtain ⟨pages, hpages⟩ : ∃ pages,
      pages = pagesAsked .ram [0x20110021] 0 { ofManyPages with phase := .busy } := ⟨_, rfl⟩
  have hasked : AskedFrom 0 pages := hpages ▸ askedFrom_pagesAsked _ _ _ _
  have hmany : 1025 < pages.length := hpages ▸ lt_length_pagesAsked hholds .ram [0x20110021] 0
  have hmem : (⟨[0x20110021], pages⟩ : AskedChunk)
      ∈ configAsked ofManyPages .ram [0x20110021] := by
    have hopen : ofManyPages.phase.isOpen = true := rfl
    have hchunks : Config.chunksOf pageSize [(0x20110021 : UInt32)] = [[0x20110021]] := by
      simp [Config.chunksOf_cons]
    rw [configAsked, if_pos hopen, hchunks, hpages, chunksAsked]
    exact List.mem_cons_self
  obtain ⟨k, hk⟩ : ∃ k, pages.length = k + 1 := ⟨pages.length - 1, by omega⟩
  have hrepeated : ¬(pages.map AskedPage.position).Pairwise (· < ·) := by
    rw [hasked.positions (i := 0) rfl, hk, ← List.range_eq_range', pairwise_pageStart_iff]
    omega
  have hone : ([0x20110021] : List UInt32).length ≤ 64 := by decide
  exact ⟨_, hmem, hone, hmany, hrepeated⟩

end Session
end GnssLink
