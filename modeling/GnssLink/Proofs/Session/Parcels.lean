import Mathlib.Tactic.ByContra
import GnssLink.Link.Script
import GnssLink.Proofs.Session.Polling
/-!
# GnssLink.Proofs.Session.Parcels

**Bytes that arrive together in a script** (`Parcel`). A script is read one parcel at a time, or
only the start of one if it is too long (`Script.read_of_arrived`), and a reply puts its parcels
among those that arrive (`Script.write_of_reply`).

Where each parcel is whole, what a stream says is what its parcels say, one after the other
(`Parcel.seen_append_comingAll`), and the last of it comes with the last parcel that says anything
(`Parcel.due_of_sorted`). To a poll a parcel may mean nothing (`Parcel.IsAside`), and among such
parcels others bring what ends it (`Parcel.Bring`).
-/

namespace GnssLink

open GnssLink.Stream (Message Protocol layout)

/-- Bytes that arrive together. -/
structure Parcel where
  time : Nat
  bytes : List UInt8

namespace Parcel

/-- The arrival of the parcel. -/
def arrival (p : Parcel) : Arrival := ⟨p.time, .data p.bytes⟩

/-- The parcel as part of a reply, its time being counted from the request. -/
def delayed (p : Parcel) : Delayed := ⟨p.time, .data p.bytes⟩

/-- The parcel if its time is counted from another one. -/
def after (start : Nat) (p : Parcel) : Parcel := { p with time := start + p.time }

/-- The bytes on their way. A read that finds nothing waits for the idle time, and so long the
parcel may lie there unread. -/
def coming (p : Parcel) : List Coming := p.bytes.map fun byte => ⟨byte, p.time + Script.idleTime⟩

@[simp] theorem bytesOf_coming (p : Parcel) : bytesOf p.coming = p.bytes := by
  rw [bytesOf, coming, List.map_map]
  exact List.map_id' _

/-- The bytes of some parcels on their way. -/
def comingAll (parcels : List Parcel) : List Coming := parcels.flatMap coming

@[simp] theorem comingAll_cons (p : Parcel) (rest : List Parcel) :
    comingAll (p :: rest) = p.coming ++ comingAll rest := List.flatMap_cons

theorem comingAll_append (x y : List Parcel) :
    comingAll (x ++ y) = comingAll x ++ comingAll y := List.flatMap_append

theorem bytesOf_comingAll_cons (p : Parcel) (rest : List Parcel) :
    bytesOf (comingAll (p :: rest)) = p.bytes ++ bytesOf (comingAll rest) := by
  rw [comingAll_cons, bytesOf_append, bytesOf_coming]

/-! ### What parcels say -/

section

variable {β : Type} {o : Observation β}

/-- After whole frames nothing is left over that could join what follows. -/
theorem seen_append_of_whole {past : List UInt8} (hpast : (layout past).2 = []) (y : List UInt8) :
    o.seen (past ++ y) = o.seen past ++ o.seen y := by
  rw [Observation.seen_append, hpast]
  rfl

/-- What a stream says goes on with what each parcel says by itself. -/
theorem seen_append_comingAll {past : List UInt8} {parcels : List Parcel}
    (hpast : (layout past).2 = []) (hwhole : ∀ p ∈ parcels, (layout p.bytes).2 = []) :
    o.seen (past ++ bytesOf (comingAll parcels))
      = o.seen past ++ parcels.flatMap fun p => o.seen p.bytes := by
  induction parcels generalizing past with
  | nil => simp [comingAll, bytesOf]
  | cons p rest ih =>
    obtain ⟨hfirst, hrest⟩ := List.forall_mem_cons.mp hwhole
    have hpast' : (layout (past ++ p.bytes)).2 = [] := by
      rw [Stream.layout_append_of_whole _ hpast, hfirst]
    rw [bytesOf_comingAll_cons, ← List.append_assoc, ih hpast' hrest,
      seen_append_of_whole hpast, List.append_assoc, List.flatMap_cons]

theorem seen_comingAll {parcels : List Parcel} (hwhole : ∀ p ∈ parcels, (layout p.bytes).2 = []) :
    o.seen (bytesOf (comingAll parcels)) = parcels.flatMap fun p => o.seen p.bytes := by
  have hnothing : (layout []).2 = [] := congrArg Prod.snd Stream.layout_nil
  have hall := seen_append_comingAll (o := o) hnothing hwhole
  rwa [List.nil_append, Observation.seen_nil, List.nil_append] at hall

/-- Where no parcel says anything, no part of them does. -/
theorem seen_eq_of_nothing {past : List UInt8} {parcels : List Parcel}
    (hpast : (layout past).2 = []) (hwhole : ∀ p ∈ parcels, (layout p.bytes).2 = [])
    (hnothing : ∀ p ∈ parcels, o.seen p.bytes = []) {x y : List Coming}
    (hsplit : comingAll parcels = x ++ y) :
    o.seen (past ++ bytesOf x) = o.seen (past ++ bytesOf (comingAll parcels)) := by
  have hnone : parcels.flatMap (fun p => o.seen p.bytes) = [] :=
    List.flatMap_eq_nil_iff.mpr hnothing
  have hall := seen_append_comingAll (o := o) hpast hwhole
  rw [hnone, List.append_nil] at hall
  have hsum : o.seen past ++ o.seen (bytesOf x ++ bytesOf y) = o.seen past := by
    rw [← seen_append_of_whole hpast, ← bytesOf_append, ← hsplit]
    exact hall
  have hxy : o.seen (bytesOf x ++ bytesOf y) = [] := List.append_right_eq_self.mp hsum
  rw [Observation.seen_append] at hxy
  have hx : o.seen (bytesOf x) = [] := (List.append_eq_nil_iff.mp hxy).1
  rw [hall, seen_append_of_whole hpast, hx, List.append_nil]

/-- What a parcel says comes with its last byte, and so no later do all bytes before. -/
theorem due_of_sorted {limit : Nat} {past : List UInt8} {parcels : List Parcel}
    (hpast : (layout past).2 = []) (hwhole : ∀ p ∈ parcels, (layout p.bytes).2 = [])
    (hsorted : parcels.Pairwise fun p q => p.time ≤ q.time)
    (hsoon : ∀ p ∈ parcels, o.seen p.bytes ≠ [] → p.time + Script.idleTime ≤ limit)
    {x y : List Coming} {next : Coming} (hsplit : comingAll parcels = x ++ next :: y)
    (hmissing : o.seen (past ++ bytesOf x) ≠ o.seen (past ++ bytesOf (comingAll parcels))) :
    next.due ≤ limit := by
  induction parcels generalizing past x with
  | nil =>
    have hnil : x ++ next :: y = [] := hsplit.symm
    simp at hnil
  | cons p rest ih =>
    have hlater {z : List Coming} (hz : x = p.coming ++ z)
        (hrest : comingAll rest = z ++ next :: y) : next.due ≤ limit := by
      obtain ⟨hfirst, hwhole'⟩ := List.forall_mem_cons.mp hwhole
      have hpast' : (layout (past ++ p.bytes)).2 = [] := by
        rw [Stream.layout_append_of_whole _ hpast, hfirst]
      refine ih hpast' hwhole' (List.pairwise_cons.mp hsorted).2
        (fun q hq => hsoon q (List.mem_cons_of_mem _ hq)) hrest ?_
      rwa [hz, bytesOf_append, bytesOf_coming, bytesOf_comingAll_cons, ← List.append_assoc,
        ← List.append_assoc] at hmissing
    have hjoined : p.coming ++ comingAll rest = x ++ next :: y := hsplit
    -- the next byte is behind the first parcel or in it
    rcases List.append_eq_append_iff.mp hjoined with ⟨z, hx, hrest⟩ | ⟨z, hcoming, hnext⟩
    · exact hlater hx hrest
    · cases z with
      | nil =>
        rw [List.append_nil] at hcoming
        exact hlater (z := []) (by rw [hcoming, List.append_nil]) hnext.symm
      | cons first more =>
        obtain ⟨rfl, -⟩ := List.cons.inj hnext
        have hdue : next.due = p.time + Script.idleTime := by
          have hmem : next ∈ p.coming := by simp [hcoming]
          obtain ⟨byte, -, rfl⟩ := List.mem_map.mp hmem
          rfl
        -- some parcel from here on says something, and this one is no later than that
        obtain ⟨q, hq, hseen⟩ : ∃ q ∈ p :: rest, o.seen q.bytes ≠ [] := by
          by_contra hnone
          refine hmissing (seen_eq_of_nothing hpast hwhole ?_ hsplit)
          intro q hq
          by_contra hseen
          exact hnone ⟨q, hq, hseen⟩
        have hle : p.time ≤ q.time := by
          rcases List.mem_cons.mp hq with rfl | hq
          · exact Nat.le_refl _
          · exact (List.pairwise_cons.mp hsorted).1 q hq
        have hlimit := hsoon q hq hseen
        omega

end

/-! ### What parcels mean to a poll -/

/-- The parcel holds whole frames, none of which ends the poll. -/
structure IsAside (poll : Poll) (p : Parcel) : Prop where
  nonempty : p.bytes ≠ []
  whole : (layout p.bytes).2 = []
  nothing : poll.observation.seen p.bytes = []

/-- The parcels bring once what ends the poll, and that can be read until `limit`. -/
structure Bring (poll : Poll) (data : List UInt8) (limit : Nat) (parcels : List Parcel) : Prop where
  nonempty : ∀ p ∈ parcels, p.bytes ≠ []
  whole : ∀ p ∈ parcels, (layout p.bytes).2 = []
  once : parcels.flatMap (fun p => poll.observation.seen p.bytes) = [data]
  soon : ∀ p ∈ parcels, poll.observation.seen p.bytes ≠ [] → p.time + Script.idleTime ≤ limit

variable {poll : Poll} {p : Parcel} {parcels : List Parcel}

theorem layout_of_frame {protocol : Protocol}
    (h : Stream.recognize p.bytes = .frame protocol p.bytes.length) :
    layout p.bytes = ([.frame protocol p.bytes], []) := by
  rw [Stream.layout_of_frame h, List.take_length, List.drop_length, Stream.layout_nil]

theorem nonempty_of_frame {protocol : Protocol}
    (h : Stream.recognize p.bytes = .frame protocol p.bytes.length) : p.bytes ≠ [] := by
  intro hnil
  rw [hnil] at h
  cases h

/-- A single frame is aside if the message that it holds is neither what the poll asks for nor an
acknowledgement of that. -/
theorem isAside_of_frame {protocol : Protocol}
    (hframe : Stream.recognize p.bytes = .frame protocol p.bytes.length)
    (hid : Message.id? ⟨protocol, p.bytes, 0⟩ ≠ some poll.id)
    (hack : ∀ a, Message.acknowledgement? ⟨protocol, p.bytes, 0⟩ = some a → a.id ≠ poll.id) :
    p.IsAside poll where
  nonempty := nonempty_of_frame hframe
  whole := by rw [layout_of_frame hframe]
  nothing := by
    rw [Observation.seen, layout_of_frame hframe]
    exact List.filterMap_cons_none (Poll.see_of_unrelated (Poll.classify_of_other hid hack))

/-- Where every parcel is aside, nothing that is on its way ends the poll. -/
theorem seen_of_aside (h : ∀ p ∈ parcels, p.IsAside poll) :
    poll.observation.seen (bytesOf (comingAll parcels)) = [] := by
  rw [seen_comingAll fun p hp => (h p hp).whole]
  exact List.flatMap_eq_nil_iff.mpr fun p hp => (h p hp).nothing

/-- A single frame brings what ends the poll if its message does. -/
theorem bring_of_frame {protocol : Protocol} {limit : Nat}
    (hframe : Stream.recognize p.bytes = .frame protocol p.bytes.length)
    (hends : poll.classify ⟨protocol, p.bytes, 0⟩ ≠ .unrelated)
    (hsoon : p.time + Script.idleTime ≤ limit) : Bring poll p.bytes limit [p] := by
  have hseen : poll.observation.seen p.bytes = [p.bytes] := by
    rw [Observation.seen, layout_of_frame hframe]
    exact List.filterMap_cons_some (Poll.see_of_related hends)
  refine ⟨?_, ?_, ?_, ?_⟩
  · exact List.forall_mem_singleton.mpr (nonempty_of_frame hframe)
  · exact List.forall_mem_singleton.mpr (by rw [layout_of_frame hframe])
  · rw [List.flatMap_singleton, hseen]
  · exact List.forall_mem_singleton.mpr fun _ => hsoon

namespace Bring

variable {data : List UInt8} {limit : Nat} {reply parcels' : List Parcel}

/-- What parcels bring they bring among others that are aside, later by the time at which they are
sent. -/
theorem among (h : Bring poll data limit reply) (start : Nat)
    (haside : ∀ p ∈ parcels, p.IsAside poll)
    (hperm : parcels'.Perm (reply.map (after start) ++ parcels)) :
    Bring poll data (start + limit) parcels' := by
  have hcases {p : Parcel} (hp : p ∈ parcels') :
      (∃ q ∈ reply, p = q.after start) ∨ p.IsAside poll := by
    rcases List.mem_append.mp (hperm.subset hp) with hp | hp
    · obtain ⟨q, hq, rfl⟩ := List.mem_map.mp hp
      exact .inl ⟨q, hq, rfl⟩
    · exact .inr (haside p hp)
  refine ⟨?_, ?_, ?_, ?_⟩
  · intro p hp
    rcases hcases hp with ⟨q, hq, rfl⟩ | hp
    · exact h.nonempty q hq
    · exact hp.nonempty
  · intro p hp
    rcases hcases hp with ⟨q, hq, rfl⟩ | hp
    · exact h.whole q hq
    · exact hp.whole
  · have hothers : parcels.flatMap (fun p => poll.observation.seen p.bytes) = [] :=
      List.flatMap_eq_nil_iff.mpr fun p hp => (haside p hp).nothing
    have hsame := hperm.flatMap_right fun p => poll.observation.seen p.bytes
    have honce : (reply.map (after start)).flatMap (fun p => poll.observation.seen p.bytes)
        = [data] := by
      rw [List.flatMap_map]
      exact h.once
    rw [List.flatMap_append, hothers, List.append_nil, honce] at hsame
    exact List.perm_singleton.mp hsame
  · intro p hp hsays
    rcases hcases hp with ⟨q, hq, rfl⟩ | hp
    · have hsoon := h.soon q hq hsays
      show start + q.time + Script.idleTime ≤ start + limit
      omega
    · exact absurd hp.nothing hsays

/-- A parcel brings among others what it brings alone. -/
theorem amidst {before after : List Parcel} (h : Bring poll data limit [p])
    (hbefore : ∀ q ∈ before, q.IsAside poll) (hafter : ∀ q ∈ after, q.IsAside poll) :
    Bring poll data limit (before ++ p :: after) := by
  have hothers : ∀ q ∈ before ++ after, q.IsAside poll := by
    intro q hq
    exact (List.mem_append.mp hq).elim (hbefore q) (hafter q)
  have hperm : (before ++ p :: after).Perm ([p].map (Parcel.after 0) ++ (before ++ after)) := by
    have hsame : p.after 0 = p := by simp [Parcel.after]
    rw [List.map_singleton, hsame]
    exact List.perm_middle
  have hall := h.among 0 hothers hperm
  rwa [Nat.zero_add] at hall

theorem seen_eq (h : Bring poll data limit parcels) :
    poll.observation.seen (bytesOf (comingAll parcels)) = [data] := by
  rw [seen_comingAll h.whole, h.once]

/-- There is time to read it. -/
theorem limit_pos (h : Bring poll data limit parcels) : 0 < limit := by
  have hmem : data ∈ parcels.flatMap fun p => poll.observation.seen p.bytes := by
    rw [h.once]
    exact List.mem_singleton_self data
  obtain ⟨p, hp, hdata⟩ := List.mem_flatMap.mp hmem
  have hsoon := h.soon p hp (List.ne_nil_of_mem hdata)
  have hidle : 0 < Script.idleTime := by decide
  omega

end Bring

/-! ### Reading a part of a parcel -/

/-- What of a parcel is left after a read. -/
def unread (p : Parcel) : List Parcel :=
  if (p.bytes.drop readSize).isEmpty then [] else [{ p with bytes := p.bytes.drop readSize }]

theorem unread_of_fits (h : p.bytes.length ≤ readSize) : p.unread = [] := by
  have hdrop : p.bytes.drop readSize = [] := List.drop_of_length_le h
  rw [unread, hdrop]
  rfl

/-- What is left of a parcel is its end, and is not empty. -/
theorem eq_of_mem_unread {q : Parcel} (h : q ∈ p.unread) :
    q = { p with bytes := p.bytes.drop readSize } ∧ q.bytes ≠ [] := by
  unfold unread at h
  split at h
  · cases h
  · next hleft =>
    obtain rfl := List.mem_singleton.mp h
    refine ⟨rfl, ?_⟩
    intro hnil
    exact hleft (List.isEmpty_iff.mpr hnil)

/-- A read and what it leaves make up the parcel. -/
theorem take_coming_append (p : Parcel) :
    p.coming.take readSize ++ comingAll p.unread = p.coming := by
  unfold unread
  split
  · next hdone =>
    have hfits : p.coming.length ≤ readSize := by
      rw [coming, List.length_map]
      exact List.drop_eq_nil_iff.mp (List.isEmpty_iff.mp hdone)
    rw [List.take_of_length_le hfits]
    exact List.append_nil _
  · rw [comingAll_cons]
    show p.coming.take readSize ++ ((p.bytes.drop readSize).map _ ++ []) = p.coming
    rw [List.append_nil, List.map_drop]
    exact List.take_append_drop readSize p.coming

theorem bytesOf_take_coming (p : Parcel) :
    bytesOf (p.coming.take readSize) = p.bytes.take readSize := by
  rw [bytesOf, List.map_take]
  exact congrArg (List.take readSize) (bytesOf_coming p)

end Parcel

namespace Script

variable {s : Script} {p : Parcel} {parcels rest : List Parcel}

/-! ### Reading -/

theorem read_of_nothing (h : s.incoming = [].map Parcel.arrival) :
    s.read = (.ok [], s.wait idleTime) := by
  rw [read, h]
  rfl

theorem read_of_early (h : s.incoming = (p :: rest).map Parcel.arrival) (htime : s.now < p.time) :
    s.read = (.ok [], s.wait idleTime) := by
  rw [read, h]
  exact if_pos htime

/-- A parcel that has arrived is read as far as it fits. -/
theorem read_of_arrived (h : s.incoming = (p :: rest).map Parcel.arrival)
    (htime : ¬s.now < p.time) :
    s.read = (.ok (p.bytes.take readSize),
      { s with incoming := (p.unread ++ rest).map Parcel.arrival }) := by
  rw [read, h]
  show (if s.now < p.time then _ else _) = _
  rw [if_neg htime]
  simp only [Parcel.arrival, Parcel.unread]
  split <;> rfl

/-- A relation between the bytes read, the parcels and the script says what is delivered if it is
kept by waiting and by reading. -/
theorem delivers_of_parcels {Holds : List UInt8 → List Parcel → Script → Prop}
    (harrives : ∀ {past parcels s}, Holds past parcels s →
      s.incoming = parcels.map Parcel.arrival ∧ ∀ p ∈ parcels, p.bytes ≠ [])
    (hwait : ∀ {past parcels s}, Holds past parcels s → Holds past parcels (s.wait idleTime))
    (hread : ∀ {past p rest s}, Holds past (p :: rest) s → ¬s.now < p.time →
      Holds (past ++ p.bytes.take readSize) (p.unread ++ rest)
        { s with incoming := (p.unread ++ rest).map Parcel.arrival }) :
    Delivers fun past coming (s : Script) =>
      ∃ parcels, coming = Parcel.comingAll parcels ∧ Holds past parcels s := by
  rintro past _ s ⟨parcels, rfl, h⟩
  have hidle : s.now < (s.wait idleTime).now := Nat.lt_add_of_pos_right (by decide)
  have hsame : Holds (past ++ bytesOf []) parcels (s.wait idleTime) := by
    show Holds (past ++ []) parcels (s.wait idleTime)
    rw [List.append_nil]
    exact hwait h
  obtain ⟨hincoming, hnonempty⟩ := harrives h
  cases parcels with
  | nil =>
    exact ⟨[], [], _, rfl, read_of_nothing hincoming, ⟨[], rfl, hsame⟩, Nat.le_of_lt hidle, nofun⟩
  | cons p rest =>
    obtain ⟨b, more, hbytes⟩ := List.exists_cons_of_ne_nil (hnonempty p List.mem_cons_self)
    by_cases htime : s.now < p.time
    · refine ⟨[], _, _, rfl, read_of_early hincoming htime, ⟨_, rfl, hsame⟩, Nat.le_of_lt hidle, ?_⟩
      intro first hfirst
      have hdue : first.due = p.time + idleTime := by
        rw [Parcel.comingAll_cons, Parcel.coming, hbytes] at hfirst
        cases hfirst
        rfl
      rw [hdue]
      exact .inl (Nat.add_lt_add_right htime idleTime)
    · refine ⟨p.coming.take readSize, Parcel.comingAll (p.unread ++ rest),
        { s with incoming := (p.unread ++ rest).map Parcel.arrival }, ?_, ?_, ⟨_, rfl, ?_⟩,
        Nat.le_refl _, ?_⟩
      · rw [Parcel.comingAll_append, ← List.append_assoc, Parcel.take_coming_append,
          Parcel.comingAll_cons]
      · rw [Parcel.bytesOf_take_coming]
        exact read_of_arrived hincoming htime
      · rw [Parcel.bytesOf_take_coming]
        exact hread h htime
      · intro _ _
        refine .inr ⟨rfl, ?_⟩
        rw [Parcel.coming, hbytes]
        exact List.cons_ne_nil _ _

/-! ### Arrivals -/

/-- An arrival is put in its place by time, behind those of the same time. -/
theorem exists_insertArrival (p : Parcel) (hsorted : parcels.Pairwise fun p q => p.time ≤ q.time) :
    ∃ parcels' : List Parcel,
      insertArrival p.arrival (parcels.map Parcel.arrival) = parcels'.map Parcel.arrival
        ∧ parcels'.Pairwise (fun p q => p.time ≤ q.time) ∧ parcels'.Perm (p :: parcels) := by
  induction parcels with
  | nil => exact ⟨[p], rfl, List.pairwise_singleton _ _, .refl _⟩
  | cons q rest ih =>
    obtain ⟨hfirst, hrest⟩ := List.pairwise_cons.mp hsorted
    by_cases hearly : p.time < q.time
    · refine ⟨p :: q :: rest, if_pos hearly, List.pairwise_cons.mpr ⟨?_, hsorted⟩, .refl _⟩
      intro r hr
      rcases List.mem_cons.mp hr with rfl | hr
      · exact Nat.le_of_lt hearly
      · exact Nat.le_trans (Nat.le_of_lt hearly) (hfirst r hr)
    · obtain ⟨rest', hinsert, hsorted', hperm⟩ := ih hrest
      refine ⟨q :: rest', ?_, List.pairwise_cons.mpr ⟨?_, hsorted'⟩,
        (hperm.cons q).trans (.swap p q rest)⟩
      · have hstep : insertArrival p.arrival (q.arrival :: rest.map Parcel.arrival)
            = q.arrival :: insertArrival p.arrival (rest.map Parcel.arrival) := if_neg hearly
        rw [List.map_cons, hstep, hinsert, List.map_cons]
      · intro r hr
        rcases List.mem_cons.mp (hperm.subset hr) with rfl | hr
        · exact Nat.not_lt.mp hearly
        · exact hfirst r hr

/-- A reply adds its parcels to those that arrive. -/
theorem exists_scheduleAll (harrives : s.incoming = parcels.map Parcel.arrival)
    (hsorted : parcels.Pairwise fun p q => p.time ≤ q.time) (reply : List Parcel) :
    ∃ parcels' : List Parcel, s.scheduleAll (reply.map Parcel.delayed)
        = { s with incoming := parcels'.map Parcel.arrival }
      ∧ parcels'.Pairwise (fun p q => p.time ≤ q.time)
      ∧ parcels'.Perm (reply.map (Parcel.after s.now) ++ parcels) := by
  induction reply generalizing s parcels with
  | nil => exact ⟨parcels, by rw [← harrives]; rfl, hsorted, .refl _⟩
  | cons p rest ih =>
    obtain ⟨parcels₁, hinsert, hsorted₁, hperm₁⟩ := exists_insertArrival (p.after s.now) hsorted
    have hschedule : s.schedule p.delayed
        = { s with incoming := parcels₁.map Parcel.arrival } := by
      rw [schedule, ← hinsert, ← harrives]
      rfl
    obtain ⟨parcels₂, hall, hsorted₂, hperm₂⟩ :=
      ih (s := { s with incoming := parcels₁.map Parcel.arrival }) rfl hsorted₁
    refine ⟨parcels₂, ?_, hsorted₂, hperm₂.trans ?_⟩
    · rw [← hall, ← hschedule]
      rfl
    · exact (hperm₁.append_left _).trans List.perm_middle

/-! ### Writing -/

/-- The script after some writes of the same bytes, before it answers any. -/
def wrote (s : Script) (n : Nat) (data : List UInt8) : Script :=
  { s with writes := s.writes + n, written := s.written ++ List.replicate n data }

theorem wrote_wrote (s : Script) (m n : Nat) (data : List UInt8) :
    (s.wrote m data).wrote n data = s.wrote (m + n) data := by
  simp only [wrote, Nat.add_assoc, List.append_assoc, List.replicate_append_replicate]

/-- A write that cannot fail is recorded, and answered where it is heard. -/
theorem write_of_writable (h : s.failWrite = none) (data : List UInt8) :
    write data s
      = (.ok (), if s.isHeard then (s.wrote 1 data).respond data else s.wrote 1 data) := by
  have hgoes : ¬s.failWrite.any (· ≤ s.writes + 1) = true := by simp [h]
  unfold write
  dsimp only
  rw [if_neg hgoes]
  rfl

/-- The script once it took some bytes and replied, which leaves it these rules. -/
def replied (s : Script) (data : List UInt8) (rules : List Rule) : Script :=
  { s with writes := s.writes + 1, written := s.written ++ [data], rules }

/-- A reply is put among what arrives. -/
theorem write_of_reply {data : List UInt8} {id : MessageId} {reply : List Parcel}
    {rules : List Rule} (hwritable : s.failWrite = none) (hheard : s.isHeard = true)
    (hid : idOf? data = some id) (htake : takeReply id s.rules = (reply.map Parcel.delayed, rules))
    (harrives : s.incoming = parcels.map Parcel.arrival)
    (hsorted : parcels.Pairwise fun p q => p.time ≤ q.time) :
    ∃ parcels' : List Parcel, write data s
        = (.ok (), { s.replied data rules with incoming := parcels'.map Parcel.arrival })
      ∧ parcels'.Pairwise (fun p q => p.time ≤ q.time)
      ∧ parcels'.Perm (reply.map (Parcel.after s.now) ++ parcels) := by
  obtain ⟨parcels', hall, hsorted', hperm⟩ :=
    exists_scheduleAll (s := s.replied data rules) harrives hsorted reply
  refine ⟨parcels', ?_, hsorted', hperm⟩
  have hrespond : (s.wrote 1 data).respond data
      = (s.replied data rules).scheduleAll (reply.map Parcel.delayed) := by
    have hrules : (s.wrote 1 data).rules = s.rules := rfl
    rw [respond, hid]
    dsimp only
    rw [hrules, htake]
    rfl
  rw [write_of_writable hwritable, if_pos hheard, hrespond, hall]

end Script
end GnssLink
