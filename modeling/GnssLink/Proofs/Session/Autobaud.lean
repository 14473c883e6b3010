import GnssLink.Proofs.Session.PolledScript
import GnssLink.Proofs.Stream.UbxFrames
import GnssLink.Session.Detection
/-!
# GnssLink.Proofs.Session.Autobaud

**A search finds the receiver exactly when one of its baud rates fits**
(`Session.establish_of_answers`). The receiver is a script that answers the poll of its version at
one baud rate only.

* A change of the baud rate drops what has arrived, the start of a frame in the buffer among it.
  What is still ahead are whole frames, so at each rate the session listens afresh
  (`Session.switchBaudRate_of_seeks`).
* A rate that does not fit costs all attempts of the poll (`Session.search_append_of_notMem`), the
  first that fits a single one (`Session.search_cons_of_good`).
-/

namespace GnssLink

open GnssLink.Script (AnswersAt Queue idleTime)
open GnssLink.Stream (Message)

namespace Script

variable {good : UInt32} {poll : Poll} {reply : List Parcel} {base : Script}

/-- The script after a change of its baud rate. -/
def tuned (base : Script) (baud : UInt32) : Script :=
  { base with baud := some baud, bauds := base.bauds ++ [baud] }

namespace AnswersAt

theorem tuned (h : AnswersAt good poll reply base) (baud : UInt32) :
    AnswersAt good poll reply (base.tuned baud) :=
  ⟨rfl, h.good, h.replies, h.writable, h.anyRate, h.clearable⟩

theorem isHeard_tuned (h : AnswersAt good poll reply base) (baud : UInt32) :
    (base.tuned baud).isHeard = (baud == good) := by
  rw [(h.tuned baud).isHeard_eq]
  rfl

theorem setBaudRate_later (h : AnswersAt good poll reply base) (baud : UInt32) (now : Nat)
    (parcels : List Parcel) :
    setBaudRate baud (base.later now parcels) = (.ok (), (base.tuned baud).later now parcels) := by
  have hsome : ¬(base.later now parcels).baud.isNone = true := by
    simp [later, ← Option.not_isSome, h.tunable]
  have hany : ¬(base.later now parcels).failBaud = some baud := by simp [later, h.anyRate]
  rw [setBaudRate, if_neg hsome, if_neg hany]
  rfl

/-- What is ahead stays. -/
theorem clearInput_later (h : AnswersAt good poll reply base) (now : Nat) (parcels : List Parcel) :
    clearInput (base.later now parcels)
      = (.ok (), base.later now (parcels.filter fun p => now < p.time)) := by
  have hclears : ¬(base.later now parcels).failClear = true := by simp [later, h.clearable]
  have hahead : (base.later now parcels).incoming.filter (fun a => now < a.time)
      = (parcels.filter fun p => now < p.time).map Parcel.arrival := List.filter_map
  rw [clearInput, if_neg hclears]
  show (Except.ok (), { base.later now parcels with
    incoming := (base.later now parcels).incoming.filter fun a => now < a.time }) = _
  rw [hahead]
  rfl

end AnswersAt
end Script

namespace Session

variable {good : UInt32} {options : Options} {reply : List Parcel} {base : Script}
  {s : Session Script}

/-! ### One candidate -/

/-- The session looks for its receiver in a script where nothing ahead ends the poll. -/
structure Seeks (poll : Poll) (base : Script) (s : Session Script) : Prop where
  arrives : ∃ now parcels, s.link = base.later now parcels
    ∧ Queue (Parcel.IsAside poll) now parcels
  active : s.aborted = false

/-- A change of the baud rate leaves nothing of what arrived before. -/
theorem switchBaudRate_of_seeks {poll : Poll} (hanswers : AnswersAt good poll reply base)
    (h : Seeks poll base s) (baud : UInt32) :
    ∃ s', switchBaudRate baud s = (.ok (), s') ∧ Listens poll (base.tuned baud) s'
      ∧ Kept s s' := by
  obtain ⟨now, parcels, hlink, hqueue⟩ := h.arrives
  have hset : Link.setBaudRate baud s.link = (.ok (), (base.tuned baud).later now parcels) := by
    rw [hlink]
    exact hanswers.setBaudRate_later baud now parcels
  have hclear : Link.clearInput ((base.tuned baud).later now parcels)
      = (.ok (), (base.tuned baud).later now (parcels.filter fun p => now < p.time)) :=
    (hanswers.tuned baud).clearInput_later now parcels
  refine ⟨{ s with
      link := (base.tuned baud).later now (parcels.filter fun p => now < p.time)
      demux := s.demux.clear }, ?_, ⟨⟨now, _, rfl, hqueue.sorted.filter _, ?_⟩, rfl, h.active⟩,
    ⟨rfl, rfl, rfl, rfl⟩⟩
  · rw [switchBaudRate, hset]
    dsimp only
    rw [hclear]
  · -- a parcel read in part is due already, so it does not stay
    intro p hp
    obtain ⟨hmem, hahead⟩ := List.mem_filter.mp hp
    exact hqueue.ahead p hmem (of_decide_eq_true hahead)

/-- A version that ends the poll answers it. -/
theorem classify_versionPoll {m : Message} (hid : m.id? = some .monVer)
    (hrelated : (versionPoll options).classify m ≠ .unrelated) :
    (versionPoll options).classify m = .answer := by
  have hnone : m.acknowledgement? = none := by
    rw [Message.acknowledgement?, hid]
    cases m.payload with
    | nil => rfl
    | cons first rest => cases rest <;> rfl
  unfold Poll.classify at hrelated ⊢
  rw [hnone] at hrelated ⊢
  split at hrelated
  · next hanswer => exact if_pos hanswer
  · exact absurd rfl hrelated

/-- A version in time answers the poll. -/
theorem bring_version {payload : List UInt8} {delay : Nat}
    (hlong : minVersionSize ≤ payload.length) (hfits : payload.length ≤ Stream.Ubx.maxPayload)
    (hsoon : delay + idleTime ≤ options.detectTimeout) :
    Parcel.Bring (versionPoll options) (Frame.encode ⟨.monVer, payload⟩) options.detectTimeout
      [⟨delay, Frame.encode ⟨.monVer, payload⟩⟩] := by
  obtain ⟨m, hm⟩ : ∃ m : Message, m = ⟨.ubx, Frame.encode ⟨.monVer, payload⟩, 0⟩ := ⟨_, rfl⟩
  have hprotocol : m.protocol = .ubx := by rw [hm]
  have hdata : m.data = Frame.encode ⟨.monVer, payload⟩ := by rw [hm]
  obtain ⟨hid, hpayload⟩ := Message.eq_of_data hprotocol hdata
  have hanswer : (versionPoll options).classify m = .answer := by
    refine if_pos ⟨hid, ?_⟩
    rw [hpayload]
    exact hlong
  have hends : (versionPoll options).classify m ≠ .unrelated := by
    rw [hanswer]
    nofun
  rw [hm] at hends
  exact Parcel.bring_of_frame (p := ⟨delay, Frame.encode ⟨.monVer, payload⟩⟩)
    (Stream.Ubx.recognize_encode hfits) hends hsoon

/-- At a baud rate that does not fit, all attempts are made in vain. -/
theorem probe_of_unheard (hcounted : options.detectRetries + 1 < UInt64.size)
    (hoptions : s.options = options)
    (hanswers : AnswersAt good (versionPoll options) reply base) (hunheard : base.isHeard = false)
    (h : Listens (versionPoll options) base s) :
    ∃ s', probe s = (.ok false, s')
      ∧ Seeks (versionPoll options)
        (base.wrote (options.detectRetries + 1) (versionPoll options).frame) s'
      ∧ Kept s s' := by
  obtain ⟨now, parcels, hlink, hsorted, haside⟩ := h.arrives
  obtain ⟨past', coming', s', htry, hquiet, hkept⟩ :=
    tryPoll_of_unheard hanswers hunheard rfl (options.detectRetries + 1)
      (h.expects hlink hsorted haside)
  obtain ⟨parcels', -, now', hlink', hqueue⟩ := hquiet.serves
  refine ⟨s', ?_, ⟨⟨now', parcels', hlink', hqueue⟩, hquiet.active⟩, hkept⟩
  have hattempts : (versionPoll options).attempts = options.detectRetries + 1 :=
    Poll.attempts_eq hcounted
  rw [probe, hoptions, exchange, hattempts, htry]
  rfl

/-- At the baud rate that fits, the first attempt tells the version. -/
theorem probe_of_heard {payload : List UInt8} (hcounted : options.detectRetries + 1 < UInt64.size)
    (hoptions : s.options = options)
    (hanswers : AnswersAt good (versionPoll options) reply base) (hheard : base.isHeard = true)
    (hbrings : Parcel.Bring (versionPoll options) (Frame.encode ⟨.monVer, payload⟩)
      options.detectTimeout reply)
    (h : Listens (versionPoll options) base s) :
    ∃ s' now parcels, probe s = (.ok true, s')
      ∧ s'.link = (base.asked (versionPoll options)).later now parcels
      ∧ s'.version = Report.version payload := by
  obtain ⟨m, s', now, parcels, htry, hrelated, hdata, hlink, -⟩ :=
    tryPoll_of_heard hanswers hheard rfl hbrings options.detectRetries h
  obtain ⟨hid, hpayload⟩ := Message.eq_of_data (Poll.protocol_of_related hrelated) hdata
  rw [classify_versionPoll hid hrelated] at htry
  refine ⟨{ s' with version := Report.version payload }, now, parcels, ?_, hlink, rfl⟩
  have hattempts : (versionPoll options).attempts = options.detectRetries + 1 :=
    Poll.attempts_eq hcounted
  rw [probe, hoptions, exchange, hattempts, htry, ← show m.payload = payload from hpayload]
  rfl

/-! ### All candidates -/

/-- Candidates that do not fit are tried in vain, one after the other. -/
theorem search_append_of_notMem {before : List UInt32} (rest : List (Option UInt32))
    (hcounted : options.detectRetries + 1 < UInt64.size)
    (hoptions : s.options = options)
    (hanswers : AnswersAt good (versionPoll options) reply base)
    (h : Seeks (versionPoll options) base s) (hnone : good ∉ before) :
    ∃ s' base', search (before.map some ++ rest) s = search rest s'
      ∧ Seeks (versionPoll options) base' s' ∧ AnswersAt good (versionPoll options) reply base'
      ∧ base'.bauds = base.bauds ++ before
      ∧ base'.written = base.written ++ List.replicate
        (before.length * (options.detectRetries + 1)) (versionPoll options).frame
      ∧ Kept s s' := by
  -- on the candidates: each is another script to begin with, and another session
  induction before generalizing base s with
  | nil => exact ⟨s, base, rfl, h, hanswers, by simp, by simp, .refl s⟩
  | cons baud before ih =>
    obtain ⟨hother, hnone⟩ := not_or.mp (List.mem_cons.not.mp hnone)
    have hunheard : (base.tuned baud).isHeard = false := by
      rw [hanswers.isHeard_tuned, beq_eq_false_iff_ne]
      exact Ne.symm hother
    obtain ⟨s₁, hswitch, hlistens, hkept₁⟩ := switchBaudRate_of_seeks hanswers h baud
    obtain ⟨s₂, hprobe, hseeks, hkept₂⟩ :=
      probe_of_unheard hcounted (hkept₁.options.trans hoptions) (hanswers.tuned baud) hunheard
        hlistens
    have hkept := hkept₁.trans hkept₂
    obtain ⟨s₃, base₃, hsearch, hseeks₃, hanswers₃, hbauds, hwritten, hkept₃⟩ :=
      ih (hkept.options.trans hoptions) ((hanswers.tuned baud).wrote _ _) hseeks hnone
    refine ⟨s₃, base₃, ?_, hseeks₃, hanswers₃, ?_, ?_, hkept.trans hkept₃⟩
    · rw [List.map_cons, List.cons_append, search, switchTo, hswitch, Outcome.andThen_ok, hprobe,
        Outcome.andThen_ok, if_neg Bool.false_ne_true, hsearch]
    · rw [hbauds, List.append_cons]
      rfl
    · rw [hwritten, List.length_cons, Nat.succ_mul, Nat.add_comm (_ * _),
        ← List.replicate_append_replicate, ← List.append_assoc]
      rfl

/-- The first candidate that fits ends the search. -/
theorem search_cons_of_good {payload : List UInt8} (rest : List (Option UInt32))
    (hcounted : options.detectRetries + 1 < UInt64.size)
    (hoptions : s.options = options)
    (hanswers : AnswersAt good (versionPoll options) reply base)
    (hbrings : Parcel.Bring (versionPoll options) (Frame.encode ⟨.monVer, payload⟩)
      options.detectTimeout reply)
    (h : Seeks (versionPoll options) base s) :
    ∃ s', search (some good :: rest) s = (.ok (), s') ∧ s'.link.baud = some good
      ∧ s'.link.bauds = base.bauds ++ [good]
      ∧ s'.link.written = base.written ++ [(versionPoll options).frame]
      ∧ s'.version = Report.version payload := by
  have hheard : (base.tuned good).isHeard = true := by
    rw [hanswers.isHeard_tuned, beq_self_eq_true]
  obtain ⟨s₁, hswitch, hlistens, hkept⟩ := switchBaudRate_of_seeks hanswers h good
  obtain ⟨s₂, now, parcels, hprobe, hlink, hversion⟩ :=
    probe_of_heard hcounted (hkept.options.trans hoptions) (hanswers.tuned good) hheard hbrings
      hlistens
  refine ⟨s₂, ?_, ?_, ?_, ?_, hversion⟩
  · rw [search, switchTo, hswitch, Outcome.andThen_ok, hprobe, Outcome.andThen_ok, if_pos rfl]
  all_goals
    rw [hlink]
    rfl

/-- **A search ends at the first candidate that fits.** -/
theorem search_of_mem {payload : List UInt8} {candidates : List UInt32}
    (hcounted : options.detectRetries + 1 < UInt64.size)
    (hoptions : s.options = options)
    (hanswers : AnswersAt good (versionPoll options) reply base)
    (hbrings : Parcel.Bring (versionPoll options) (Frame.encode ⟨.monVer, payload⟩)
      options.detectTimeout reply)
    (h : Seeks (versionPoll options) base s) (hmem : good ∈ candidates) :
    ∃ s', search (candidates.map some) s = (.ok (), s') ∧ s'.link.baud = some good
      ∧ s'.link.bauds = base.bauds ++ candidates.take (candidates.idxOf good + 1)
      ∧ s'.link.written = base.written ++ List.replicate
        (candidates.idxOf good * (options.detectRetries + 1) + 1) (versionPoll options).frame
      ∧ s'.version = Report.version payload := by
  obtain ⟨before, rest, hsplit, hnone⟩ := List.eq_append_cons_of_mem hmem
  have hindex : candidates.idxOf good = before.length := by
    rw [hsplit, List.idxOf_append_of_notMem hnone, List.idxOf_cons_self, Nat.add_zero]
  have hprefix : candidates.take (before.length + 1) = before ++ [good] := by
    rw [hsplit, List.take_length_add_append]
    rfl
  obtain ⟨s₁, base₁, hvain, hseeks, hanswers₁, hbauds₁, hwritten₁, hkept⟩ :=
    search_append_of_notMem (some good :: rest.map some) hcounted hoptions hanswers h hnone
  obtain ⟨s₂, hfound, hrate, hbauds, hwritten, hversion⟩ :=
    search_cons_of_good (rest.map some) hcounted (hkept.options.trans hoptions) hanswers₁ hbrings
      hseeks
  refine ⟨s₂, ?_, hrate, ?_, ?_, hversion⟩
  · rw [hsplit, List.map_append, List.map_cons, hvain, hfound]
  · rw [hindex, hprefix, hbauds, hbauds₁, List.append_assoc]
  · rw [hindex, hwritten, hwritten₁, List.append_assoc, List.replicate_succ']

/-- **A search where no candidate fits tries all of them.** -/
theorem search_of_notMem {candidates : List UInt32}
    (hcounted : options.detectRetries + 1 < UInt64.size)
    (hoptions : s.options = options)
    (hanswers : AnswersAt good (versionPoll options) reply base)
    (h : Seeks (versionPoll options) base s) (hnone : good ∉ candidates) :
    ∃ s', search (candidates.map some) s = (.error (.receiverNotFound s.name), s')
      ∧ s'.link.bauds = base.bauds ++ candidates
      ∧ s'.link.written = base.written ++ List.replicate
        (candidates.length * (options.detectRetries + 1)) (versionPoll options).frame
      ∧ s'.version = s.version := by
  obtain ⟨s₁, base₁, hvain, hseeks, -, hbauds, hwritten, hkept⟩ :=
    search_append_of_notMem [] hcounted hoptions hanswers h hnone
  obtain ⟨now, parcels, hlink, -⟩ := hseeks.arrives
  refine ⟨s₁, ?_, ?_, ?_, hkept.version⟩
  · rw [List.append_nil] at hvain
    rw [hvain, search, hkept.name]
  · rw [hlink, ← hbauds]
    rfl
  · rw [hlink, ← hwritten]
    rfl

/-! ### Opening a session -/

/-- The baud rates at which a receiver is looked for, one after the other. -/
def rates (options : Options) (present : UInt32) : List UInt32 :=
  present :: options.baudRates.filter (· ≠ present)

theorem mem_rates_iff {present : UInt32} :
    good ∈ rates options present ↔ good = present ∨ good ∈ options.baudRates := by
  rw [rates, List.mem_cons, List.mem_filter]
  by_cases hsame : good = present <;> simp [hsame]

/-- The session after it found its receiver at the baud rate `good`, having tried all the ones
before. -/
structure Found (options : Options) (link : Script) (present good : UInt32) (payload : List UInt8)
    (s : Session Script) : Prop where
  rate : s.baudRate = some good
  version : s.version = Report.version payload
  tuned : s.link.bauds = link.bauds
    ++ (rates options present).take ((rates options present).idxOf good + 1)
  polls : s.link.written = link.written ++ List.replicate
    ((rates options present).idxOf good * (options.detectRetries + 1) + 1)
    (versionPoll options).frame

/-- The session after it tried all baud rates in vain. -/
structure Missed (options : Options) (link : Script) (present : UInt32) (s : Session Script) :
    Prop where
  phase : s.phase = .closed
  version : s.version = none
  tuned : s.link.bauds = link.bauds ++ rates options present
  polls : s.link.written = link.written ++ List.replicate
    ((rates options present).length * (options.detectRetries + 1)) (versionPoll options).frame

/-- A session that may search looks for its receiver at all baud rates. -/
theorem detect_of_search {present : UInt32} {link : Script} (name : String)
    (hautobaud : options.autobaud = true) (hdetect : options.detect = true)
    (hfree : options.baudRate = none) (hpresent : link.baud = some present) :
    detect { name, options, link, phase := .detecting }
      = search ((rates options present).map some)
        { name, options, link, phase := .detecting } := by
  obtain ⟨s, hs⟩ : ∃ s : Session Script, s = { name, options, link, phase := .detecting } :=
    ⟨_, rfl⟩
  have hrate : s.baudRate = some present := by
    rw [hs, ← hpresent]
    rfl
  have hoptions : s.options = options := by rw [hs]
  have hcandidates : candidates s = (rates options present).map some := by
    unfold candidates
    rw [hrate, hoptions]
    exact if_pos ⟨hautobaud, hfree⟩
  have hfixed : applyFixedRate s = (.ok (), s) := by
    unfold applyFixedRate
    rw [hoptions, hfree]
  rw [← hs, detect, hfixed, Outcome.andThen_ok, hoptions, if_pos hdetect, hcandidates]

theorem establish_of_ok {s s' : Session Script} (hopen : s.phase ≠ .closed)
    (h : detect { s with phase := .detecting } = (.ok (), s')) :
    establish s = (.ok (), { s' with phase := .ready }) := by
  unfold establish
  rw [if_neg hopen, h]

theorem establish_of_error {s s' : Session Script} {e : SessionError} (hopen : s.phase ≠ .closed)
    (h : detect { s with phase := .detecting } = (.error e, s')) :
    establish s = (.error e, s'.close) := by
  unfold establish
  rw [if_neg hopen, h]

/-- **A search finds the receiver exactly when one of its baud rates fits.** The receiver answers a
poll of its version at the baud rate `good` only, and in time; before and after that there may
arrive whole frames that are no answer. The session then has the baud rate and the version of the
receiver, and a single poll was heard; if no rate fits it has tried all of them and is closed. -/
theorem establish_of_answers {present : UInt32} {link : Script} {payload : List UInt8} {delay : Nat}
    {parcels before after : List Parcel} (name : String)
    (hautobaud : options.autobaud = true) (hdetect : options.detect = true)
    (hfree : options.baudRate = none) (hcounted : options.detectRetries + 1 < UInt64.size)
    (hpresent : link.baud = some present)
    (hanswers : link.AnswersAt good (versionPoll options)
      (before ++ ⟨delay, Frame.encode ⟨.monVer, payload⟩⟩ :: after))
    (hlong : 40 ≤ payload.length) (hfits : payload.length ≤ 4096)
    (hsoon : delay + idleTime ≤ options.detectTimeout)
    (hbefore : ∀ p ∈ before, p.IsAside (versionPoll options))
    (hafter : ∀ p ∈ after, p.IsAside (versionPoll options))
    (harrives : link.incoming = parcels.map Parcel.arrival)
    (hsorted : parcels.Pairwise fun p q => p.time ≤ q.time)
    (haside : ∀ p ∈ parcels, p.IsAside (versionPoll options)) :
    ((establish { name, options, link }).1 = .ok ()
        ↔ good = present ∨ good ∈ options.baudRates)
      ∧ ((establish { name, options, link }).1 = .ok () →
        Found options link present good payload (establish { name, options, link }).2)
      ∧ ((establish { name, options, link }).1 ≠ .ok () →
        (establish { name, options, link }).1 = .error (.receiverNotFound name)
          ∧ Missed options link present (establish { name, options, link }).2) := by
  obtain ⟨s, hs⟩ : ∃ s : Session Script, s = { name, options, link, phase := .detecting } :=
    ⟨_, rfl⟩
  have hoptions : s.options = options := by rw [hs]
  have hseeks : Seeks (versionPoll options) link s := by
    have hlink : link = link.later link.now parcels := by
      rw [Script.later, ← harrives]
    rw [hs]
    exact ⟨⟨link.now, parcels, hlink, hsorted, fun p hp => (haside p hp).nonempty,
      fun p hp _ => haside p hp⟩, rfl⟩
  have hstart := detect_of_search name hautobaud hdetect hfree hpresent
  rw [← hs] at hstart
  have hfresh : ({ name, options, link } : Session Script).phase ≠ .closed := nofun
  rw [← mem_rates_iff]
  by_cases hmem : good ∈ rates options present
  · obtain ⟨s', hfound, hrate, hbauds, hwritten, hversion⟩ :=
      search_of_mem hcounted hoptions hanswers
        ((bring_version hlong hfits hsoon).amidst hbefore hafter) hseeks hmem
    rw [hfound, hs] at hstart
    rw [establish_of_ok hfresh hstart]
    refine ⟨iff_of_true rfl hmem, ?_, fun hne => absurd rfl hne⟩
    intro _
    exact ⟨hrate, hversion, hbauds, hwritten⟩
  · obtain ⟨s', hvain, hbauds, hwritten, hversion⟩ :=
      search_of_notMem hcounted hoptions hanswers hseeks hmem
    rw [hs] at hvain hversion
    rw [hs, hvain] at hstart
    rw [establish_of_error hfresh hstart]
    refine ⟨iff_of_false nofun hmem, nofun, ?_⟩
    intro _
    exact ⟨rfl, rfl, hversion, hbauds, hwritten⟩

/-! ### A search at two baud rates

The receiver runs at the second of two baud rates. It sends the end of an epoch before and after its
version. -/

/-- The end of an epoch at some time. -/
def epochEndAt (time : Nat) : Parcel := ⟨time, Frame.encode ⟨⟨0x01, 0x61⟩, []⟩⟩

/-- A software version without extensions. -/
def romVersion : List UInt8 := "ROM CORE 1.00".toUTF8.toList ++ List.replicate 27 0

/-- Options of a short search. -/
def shortSearch : Options where
  baudRates := [9600, 38400]
  detectTimeout := millis 50

/-- A receiver at 38400 baud, seen at 9600. -/
def atOtherRate : Script where
  baud := some 9600
  goodBaud := some 38400
  rules := [⟨.monVer, [[epochEndAt 3, ⟨millis 40, Frame.encode ⟨.monVer, romVersion⟩⟩,
    epochEndAt (millis 40)].map Parcel.delayed]⟩]
  incoming := [(epochEndAt (millis 5)).arrival]

theorem isAside_epochEndAt (time : Nat) : (epochEndAt time).IsAside (versionPoll shortSearch) := by
  have hframe : Stream.recognize (epochEndAt time).bytes
      = .frame .ubx (epochEndAt time).bytes.length :=
    Stream.Ubx.recognize_encode (f := ⟨⟨0x01, 0x61⟩, []⟩) (by decide)
  have hid : Stream.Message.id? ⟨.ubx, (epochEndAt time).bytes, 0⟩ = some ⟨0x01, 0x61⟩ := rfl
  have hack : Stream.Message.acknowledgement? ⟨.ubx, (epochEndAt time).bytes, 0⟩ = none := rfl
  refine Parcel.isAside_of_frame hframe ?_ ?_
  · rw [hid]
    decide
  · rw [hack]
    exact nofun

/-- A new session with that receiver. -/
def ofOtherRate : Session Script where
  name := "mock"
  options := shortSearch
  link := atOtherRate

theorem establish_ofOtherRate :
    (establish ofOtherRate).1 = .ok ()
      ∧ Found shortSearch atOtherRate 9600 38400 romVersion (establish ofOtherRate).2
      ∧ Report.version romVersion = some "ROM CORE 1.00"
      ∧ (rates shortSearch 9600).take ((rates shortSearch 9600).idxOf 38400 + 1)
        = [9600, 38400] := by
  have hanswers : atOtherRate.AnswersAt 38400 (versionPoll shortSearch)
      ([epochEndAt 3] ++ ⟨millis 40, Frame.encode ⟨.monVer, romVersion⟩⟩ ::
        [epochEndAt (millis 40)]) :=
    ⟨rfl, rfl, rfl, rfl, rfl, rfl⟩
  have haside (time : Nat) : ∀ p ∈ [epochEndAt time], p.IsAside (versionPoll shortSearch) :=
    List.forall_mem_singleton.mpr (isAside_epochEndAt time)
  have harrives : atOtherRate.incoming = [epochEndAt (millis 5)].map Parcel.arrival := rfl
  obtain ⟨hiff, hfound, -⟩ := establish_of_answers "mock" rfl rfl rfl (by decide) rfl hanswers
    (by decide +kernel) (by decide +kernel) (by decide) (haside 3) (haside (millis 40)) harrives
    (List.pairwise_singleton _ _) (haside (millis 5))
  have hok := hiff.mpr (.inr (by decide))
  exact ⟨hok, hfound hok, by decide +kernel, by decide⟩

end Session
end GnssLink
