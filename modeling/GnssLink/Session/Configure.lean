import GnssLink.Config.Query
import GnssLink.Session.Exchange
import GnssLink.Session.Reset
/-!
# GnssLink.Session.Configure

**Writing and reading the receiver's configuration, and resets.**

* A write sends all its messages and then counts acknowledgements (`awaitAcks`). The wait starts
  anew with each of them.
* A read asks for one page after the other (`readPages`) until a page is not full or is refused.
  Only the first page must not be refused.
* A reset is sent and not acknowledged.
-/

namespace GnssLink

open GnssLink.Config (Item Layer Layers WriteMessage)

namespace Session

variable {σ : Type} [Link σ]

/-! ### Writing -/

/-- Reads until all `expected` messages of a write are acknowledged, `acked` of them being so
already. -/
def awaitAcks (expected acked deadline : Nat) (s : Session σ) : Outcome σ Unit :=
  if expected ≤ acked then (.ok (), s)
  else if deadline < s.now then (.error (.configTimeout acked expected), s)
  else
    match h : s.receive deadline false with
    | (.error e, s) => (.error e, s)
    | (.ok none, s) => (.error (.configTimeout acked expected), s)
    | (.ok (some m), s') =>
      have _ := backlog_lt_of_receive h
      if m.acknowledgement? = some ⟨true, .cfgValset⟩ then
        awaitAcks expected (acked + 1) (s'.now + s'.options.ackTimeout) s'
      else if m.acknowledgement? = some ⟨false, .cfgValset⟩ then
        (.error (.configRejected (acked + 1) expected), s')
      else awaitAcks expected acked deadline (s'.keep m)
termination_by s.backlog
decreasing_by all_goals simpa only [backlog_keep]

/-- Sends the messages of a write and waits until each is acknowledged. -/
def applyBatch (batch : List WriteMessage) (s : Session σ) : Outcome σ Unit :=
  (putAll (batch.map WriteMessage.frame) s).andThen fun _ s =>
    awaitAcks batch.length 0 (s.now + s.options.ackTimeout) s

/-- Applies a write that was split before. -/
def sendBatch (s : Session σ) (batch : List WriteMessage) : Outcome σ Unit :=
  s.whenOpen fun s => s.whileBusy (applyBatch batch)

/-- Writes items to some layers. What cannot be split is refused before anything is sent. -/
def setConfig (s : Session σ) (items : List Item) (layers : Layers) : Outcome σ Unit :=
  match s.options.write.split items layers with
  | .error e => (.error (.write e), s)
  | .ok batch => s.sendBatch batch

/-! ### Reading -/

/-- The poll for a page. The page itself is followed by an acknowledgement. -/
def pagePoll (layer : Layer) (position : UInt16) (keys : List UInt32) : Poll where
  id := .cfgValget
  payload := Config.Query.payload layer position keys
  minSize := Config.Query.headSize
  ackAnswers := false

/-- A page is asked for at least once. -/
theorem attempts_pagePoll_ne_zero (layer : Layer) (position : UInt16) (keys : List UInt32) :
    (pagePoll layer position keys).attempts ≠ 0 :=
  Poll.attempts_ne_zero (by show 2 + 1 < UInt64.size; decide)

/-- The position of the next page; it stops at the last one that a request can hold. -/
def nextPosition (position : UInt16) : UInt16 :=
  UInt16.ofNat (min (position.toNat + Config.Query.pageSize) (UInt16.size - 1))

/-- Reads the items of `keys` from a position on. -/
def readPages (layer : Layer) (keys : List UInt32) (position : UInt16) (s : Session σ) :
    Outcome σ (List Item) :=
  match h : exchange (pagePoll layer position keys) s with
  | (.error e, s) => (.error e, s)
  | (.ok answer, s') =>
    if answer.refused then
      if position = 0 then (.error (.configRejected 1 1), s') else (.ok [], s')
    else
      match Config.decode (answer.message.payload.drop Config.Query.headSize) with
      | .error e => (.error (.codec e), s')
      | .ok items =>
        if items.length < Config.Query.pageSize then (.ok items, s')
        else
          have _ := backlog_lt_of_exchange h
          (readPages layer keys (nextPosition position) s').andThen fun more s =>
            (.ok (items ++ more), s)
termination_by s.backlog

/-- Reads the items of several lists of keys. -/
def readAll (layer : Layer) : List (List UInt32) → Session σ → Outcome σ (List Item)
  | [], s => (.ok [], s)
  | keys :: rest, s =>
    (readPages layer keys 0 s).andThen fun items s =>
      (readAll layer rest s).andThen fun more s => (.ok (items ++ more), s)

/-- Reads the items of `keys`, which may stand for whole groups, from a layer. -/
def getConfig (s : Session σ) (layer : Layer) (keys : List UInt32) : Outcome σ (List Item) :=
  s.whenOpen fun s =>
    s.whileBusy (readAll layer (Config.chunksOf Config.Query.pageSize keys))

/-! ### Resets -/

/-- Sends a reset. -/
def reset (s : Session σ) (r : Reset) : Outcome σ Unit :=
  s.whenOpen fun s => putAll (r.frames.map Frame.encode) s

end Session
end GnssLink
