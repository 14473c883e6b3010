import GnssLink.Dump.Run
import GnssLink.Proofs.Dump.Shown
import GnssLink.Proofs.Session.Rounds
/-!
# GnssLink.Proofs.Dump.Delivered

**The dump command prints what the stream says** (`execute_of_delivered`). What is delivered at
once, before the connection ends, is cut into messages as a new stream would cut it. The command
shows these in order, up to as many as it was asked for. If it has them all it shows the statistics
of those and no others, and otherwise the end of the connection is a failure.

A session that was delivered everything (`Playing`) gives the messages that wait one by one and then
fails. So the rounds of a dump follow these messages.
-/

namespace GnssLink.Dump

open GnssLink.Stream (Demux Message Output Tally)

variable (stamp : Message → Int)

/-! ### Sessions that were delivered everything -/

/-- The session was delivered `input`, of which it has given the messages `given`, and its
connection has ended. -/
structure Playing (input : List UInt8) (given : List Message) (s : Session Capture) : Prop where
  phase : s.phase = .ready
  pending : s.pending = []
  active : s.aborted = false
  ended : s.link = ⟨[]⟩
  booked : Demux.Booked input (given.map .message) s.demux

theorem messages_map_message (ms : List Message) :
    Stream.messages (ms.map Output.message) = ms := by
  rw [Stream.messages, List.filterMap_map]
  exact List.filterMap_some

/-- Every message takes at least one byte. -/
theorem length_le_size {ms : List Message} (h : ∀ m ∈ ms, m.data ≠ []) :
    ms.length ≤ Stream.size ms := by
  induction ms with
  | nil => exact Nat.le_refl _
  | cons m rest ih =>
    obtain ⟨hm, hrest⟩ := List.forall_mem_cons.mp h
    have hpos := List.length_pos_iff.mpr hm
    have hle := ih hrest
    rw [List.length_cons, Stream.size_cons]
    omega

namespace Playing

variable {input : List UInt8} {given : List Message} {s : Session Capture}

theorem counts (h : Playing input given s) (hsize : input.length ≤ readSize) :
    Counts s.demux.tally given := by
  have hbooked := h.booked
  have hbytes : Stream.size given + s.demux.buffer.length = input.length := by
    rw [← hbooked.bytes, List.length_append, List.flatMap_map]
    rfl
  have hnonempty := hbooked.nonempty
  have hshort := hbooked.short
  rw [messages_map_message] at hnonempty hshort
  have hfew : given.length < UInt32.size := by
    have hle := length_le_size hnonempty
    simp only [readSize, UInt32.size] at hsize ⊢
    omega
  constructor
  · intro p
    have hpart := List.filter_sublist (p := fun m => m.protocol = p) (l := given)
    rw [hbooked.rows p, messages_map_message]
    exact Demux.toNat_ofMessages (fun m hm => hshort m (hpart.subset hm))
      (Nat.lt_of_le_of_lt hpart.length_le hfew)
  · rw [hbooked.total, messages_map_message]
    exact Demux.toNat_ofMessages hshort hfew

/-- The messages that wait are given first. -/
theorem of_next? (h : Playing input given s) {m : Message} {demux : Demux}
    (hnext : s.demux.next? = some (m, demux)) :
    Playing input (given ++ [m]) { s with demux } := by
  have hbooked := h.booked.message (Demux.cutsOff_next? hnext)
  refine ⟨h.phase, h.pending, h.active, h.ended, ?_⟩
  rw [List.map_append]
  exact hbooked

theorem nextMessage_eq (h : Playing input given s) {timeout : Nat} :
    s.nextMessage timeout = s.receive (s.now + timeout) false := by
  have hopen : s.phase.isOpen = true := by
    rw [h.phase]
    rfl
  rw [Session.nextMessage, Session.whenOpen, if_pos hopen, h.pending]

/-- Then the connection has ended, however often it was read before. -/
theorem receive_of_nothing (h : Playing input given s) (hnext : s.demux.next? = none)
    {deadline : Nat} (htime : 0 < deadline) (attempted : Bool) :
    s.receive deadline attempted = s.fail Capture.ended := by
  have hwait : ¬(attempted = true ∧ deadline ≤ s.now) := fun hover =>
    Nat.lt_irrefl _ (Nat.lt_of_lt_of_le htime hover.2)
  have hread : Link.read s.link = (.error Capture.ended, s.link) := by
    rw [h.ended]
    rfl
  rw [Session.receive_eq, hnext]
  dsimp only
  rw [if_neg hwait, if_neg (ne_true_of_eq_false h.active), hread]

/-- It makes no difference whether the connection was read before. -/
theorem receive_attempted (h : Playing input given s) {deadline : Nat} (htime : 0 < deadline) :
    s.receive deadline true = s.receive deadline false := by
  cases hnext : s.demux.next? with
  | none => rw [h.receive_of_nothing hnext htime, h.receive_of_nothing hnext htime]
  | some found => rw [Session.receive_of_next? hnext, Session.receive_of_next? hnext]

end Playing

/-! ### Rounds -/

/-- The dump has printed the messages `given` so far. -/
structure Dumping (input : List UInt8) (given : List Message) (p : Progress Capture) : Prop where
  playing : Playing input given p.session
  received : p.received = given.length

section Rounds

variable {input : List UInt8} {given : List Message} {args : Arguments} {p : Progress Capture}

/-- A dump without a time limit is done as soon as it has as many messages as were asked for. -/
theorem Dumping.isDone_eq (h : Dumping input given p) (hduration : args.duration = none) :
    p.isDone args = args.count.any fun c => c ≤ given.length := by
  rw [Progress.isDone, hduration, h.received]
  rfl

/-- The next message is printed, and the gap after it begins. -/
theorem round_of_next? (h : Dumping input given p) (hmore : p.isDone args = false)
    {m : Message} {demux : Demux} (hnext : p.session.demux.next? = some (m, demux)) :
    ∃ p' : Progress Capture,
      round stamp args p = (listing args.hexdump p.last (stamp m) m, .inl p')
        ∧ Dumping input (given ++ [m]) p' ∧ p'.session.demux = demux
        ∧ p'.last = some (stamp m) := by
  have hr : p.session.nextMessage roundTime = (.ok (some m), { p.session with demux }) := by
    rw [h.playing.nextMessage_eq, Session.receive_of_next? hnext]
  have hreceived : p.received + 1 = (given ++ [m]).length := by
    rw [h.received, List.length_append, List.length_singleton]
  unfold round
  rw [if_neg (ne_true_of_eq_false hmore), hr]
  exact ⟨_, rfl, ⟨h.playing.of_next? hnext, hreceived⟩, rfl, rfl⟩

/-- Without a message to come the dump fails. -/
theorem round_of_nothing (h : Dumping input given p) (hmore : p.isDone args = false)
    (hnext : p.session.demux.next? = none) : round stamp args p = ("", .inr .failure) := by
  have htime : 0 < p.session.now + roundTime :=
    Nat.lt_of_lt_of_le (by decide : 0 < roundTime) (Nat.le_add_left _ _)
  unfold round
  rw [if_neg (ne_true_of_eq_false hmore), h.playing.nextMessage_eq,
    h.playing.receive_of_nothing hnext htime]
  rfl

/-- What a dump prints with its next message first. -/
theorem rounds_of_next? (h : Dumping input given p) (hmore : p.isDone args = false)
    {m : Message} {demux : Demux} (hnext : p.session.demux.next? = some (m, demux)) :
    ∃ p' : Progress Capture, Dumping input (given ++ [m]) p' ∧ p'.session.demux = demux
      ∧ p'.last = some (stamp m)
      ∧ ∀ {n text exit}, rounds stamp args n p' = (text, exit) →
        rounds stamp args (n + 1) p
          = (listing args.hexdump p.last (stamp m) m ++ text, exit) := by
  obtain ⟨p', hround, hdumping, hdemux, hlast⟩ := round_of_next? stamp h hmore hnext
  refine ⟨p', hdumping, hdemux, hlast, ?_⟩
  intro n text exit hrest
  rw [rounds, hround]
  dsimp only
  rw [hrest]

/-- Where enough messages are left, as many are printed as are missing. -/
theorem rounds_of_enough {missing n : Nat} (hsize : input.length ≤ readSize)
    (hduration : args.duration = none) (hcount : args.count = some (given.length + missing))
    (h : Dumping input given p) (henough : missing ≤ p.session.demux.drain.1.length)
    (hn : p.session.demux.drain.1.length < n) :
    ∃ tally, Counts tally (given ++ p.session.demux.drain.1.take missing)
      ∧ rounds stamp args n p
        = (listings stamp args.hexdump p.last (p.session.demux.drain.1.take missing)
            ++ statistics tally,
          some (if given.length + missing = 0 then .noData else .success)) := by
  -- what is given grows by the message that is printed, so that the tally counts both in the end
  induction missing generalizing p given n with
  | zero =>
    obtain ⟨n, rfl⟩ : ∃ k, n = k + 1 := ⟨n - 1, by omega⟩
    have hdone : p.isDone args = true := by
      rw [h.isDone_eq hduration, hcount]
      exact decide_eq_true (Nat.le_refl _)
    have hround : round stamp args p = (statistics p.session.demux.tally, .inr p.exit) :=
      if_pos hdone
    refine ⟨p.session.demux.tally, ?_, ?_⟩
    · rw [List.take_zero, List.append_nil]
      exact h.playing.counts hsize
    · rw [rounds, hround, List.take_zero, Progress.exit, h.received]
      rfl
  | succ missing ih =>
    have hmore : p.isDone args = false := by
      rw [h.isDone_eq hduration, hcount, Option.any_some, decide_eq_false]
      omega
    obtain ⟨n, rfl⟩ : ∃ k, n = k + 1 := ⟨n - 1, by omega⟩
    cases hnext : p.session.demux.next? with
    | none =>
      rw [Demux.drain_of_next?_eq_none hnext] at henough
      exact absurd henough (Nat.not_succ_le_zero _)
    | some found =>
      obtain ⟨m, demux⟩ := found
      obtain ⟨p', hdumping, rfl, hlast, hrounds⟩ := rounds_of_next? stamp h hmore hnext
      have hwanted : given.length + (missing + 1) = (given ++ [m]).length + missing := by
        rw [List.length_append, List.length_singleton]
        omega
      rw [Demux.drain_of_next? hnext, List.length_cons] at henough hn
      obtain ⟨tally, hcounts, hrest⟩ := ih (hwanted ▸ hcount) hdumping
        (Nat.le_of_succ_le_succ henough) (Nat.lt_of_succ_lt_succ hn)
      rw [Demux.drain_of_next? hnext, List.take_succ_cons, hwanted]
      refine ⟨tally, ?_, ?_⟩
      · rwa [List.append_assoc] at hcounts
      · rw [hrounds hrest, hlast, listings, String.append_assoc]

/-- Where messages are missing, those that are left are printed, and the dump fails. -/
theorem rounds_of_few {n : Nat} (hduration : args.duration = none) (h : Dumping input given p)
    (hfew : ∀ k ∈ args.count, given.length + p.session.demux.drain.1.length < k)
    (hn : p.session.demux.drain.1.length < n) :
    rounds stamp args n p
      = (listings stamp args.hexdump p.last p.session.demux.drain.1, some .failure) := by
  induction n generalizing p given with
  | zero => exact absurd hn (Nat.not_lt_zero _)
  | succ n ih =>
    have hmore : p.isDone args = false := by
      rw [h.isDone_eq hduration]
      cases hcount : args.count with
      | none => rfl
      | some k =>
        have hlt := hfew k hcount
        rw [Option.any_some, decide_eq_false]
        omega
    cases hnext : p.session.demux.next? with
    | none =>
      rw [rounds, round_of_nothing stamp h hmore hnext, Demux.drain_of_next?_eq_none hnext]
      rfl
    | some found =>
      obtain ⟨m, demux⟩ := found
      obtain ⟨p', hdumping, rfl, hlast, hrounds⟩ := rounds_of_next? stamp h hmore hnext
      rw [Demux.drain_of_next? hnext, List.length_cons] at hfew hn
      have hfew' : ∀ k ∈ args.count,
          (given ++ [m]).length + p'.session.demux.drain.1.length < k := by
        intro k hk
        have hlt := hfew k hk
        rw [List.length_append, List.length_singleton]
        omega
      have hrest := ih hdumping hfew' (Nat.lt_of_succ_lt_succ hn)
      rw [hrounds hrest, hlast, Demux.drain_of_next? hnext, listings]

end Rounds

/-! ### The whole dump -/

/-- There are no more messages than bytes. -/
theorem length_drain_le (d : Demux) : d.drain.1.length ≤ d.buffer.length := by
  fun_induction Demux.drain d with
  | case1 => exact Nat.zero_le _
  | case2 d m d' hnext hlt ih => exact Nat.lt_of_le_of_lt ih hlt

section Start

variable {args : Arguments} {host : String} {number : UInt16} {input : List UInt8}

/-- The session that the command has with a network address at first. -/
def fresh (args : Arguments) (host : String) (number : UInt16) (input : List UInt8) :
    Session Capture where
  name := args.endpoint
  options := sessionOptions args (.tcp host number)
  link := ⟨input⟩

/-- The session once it is open. -/
def opened (args : Arguments) (host : String) (number : UInt16) (input : List UInt8) :
    Session Capture :=
  { fresh args host number input with phase := .ready }

/-- The session once it was delivered everything. -/
def delivered (args : Arguments) (host : String) (number : UInt16) (input : List UInt8) :
    Session Capture :=
  { opened args host number input with link := ⟨[]⟩, demux := ({} : Demux).add input }

theorem playing_delivered (args : Arguments) (host : String) (number : UInt16)
    (input : List UInt8) : Playing input [] (delivered args host number input) :=
  ⟨rfl, rfl, rfl, rfl, Demux.booked_apply Demux.booked_new (.add input)⟩

/-- The command does not look for the receiver. -/
theorem establish_fresh (hprobe : args.noProbe = true) :
    (fresh args host number input).establish = (.ok (), opened args host number input) := by
  have hdetect : (sessionOptions args (.tcp host number)).detect = false := by
    rw [sessionOptions, hprobe]
    rfl
  obtain ⟨s, hs⟩ : ∃ s, s = { fresh args host number input with phase := .detecting } := ⟨_, rfl⟩
  have hready : s.detect = (.ok (), s) := by
    have hrate : s.applyFixedRate = (.ok (), s) := by
      rw [hs]
      rfl
    have hoff : ¬s.options.detect = true := by
      rw [hs]
      exact ne_true_of_eq_false hdetect
    rw [Session.detect, hrate, Outcome.andThen_ok, if_neg hoff]
  have hnew : ¬(fresh args host number input).phase = .closed := nofun
  rw [Session.establish, if_neg hnew, ← hs, hready, hs]
  rfl

/-- The first wait for a message reads all that is delivered. -/
theorem nextMessage_opened (hsize : input.length ≤ readSize) :
    (opened args host number input).nextMessage roundTime
      = (delivered args host number input).nextMessage roundTime := by
  have htime : 0 < roundTime := by decide
  have hwait : (delivered args host number input).nextMessage roundTime
      = (delivered args host number input).receive (0 + roundTime) false := rfl
  rw [hwait, Nat.zero_add, ← (playing_delivered args host number input).receive_attempted htime]
  show (opened args host number input).receive (0 + roundTime) false = _
  rw [Nat.zero_add]
  cases input with
  -- a connection that ends without a byte has ended before it is read
  | nil => exact ((playing_delivered args host number []).receive_attempted htime).symm
  | cons first rest =>
    have hread : Link.read (opened args host number (first :: rest)).link
        = (.ok (first :: rest), ⟨[]⟩) := by
      show (Except.ok ((first :: rest).take readSize), Capture.mk ((first :: rest).drop readSize))
        = _
      rw [List.take_of_length_le hsize, List.drop_of_length_le hsize]
    have hempty : (opened args host number (first :: rest)).demux.next? = none := rfl
    have hactive : (opened args host number (first :: rest)).aborted = false := rfl
    rw [Session.receive_eq, hempty]
    dsimp only
    rw [if_neg (fun h => Bool.false_ne_true h.1), if_neg (ne_true_of_eq_false hactive), hread]
    rfl

/-- So a dump prints what it would if all were delivered when it starts. -/
theorem rounds_opened (hsize : input.length ≤ readSize) (n : Nat) :
    rounds stamp args n { session := opened args host number input, started := 0 }
      = rounds stamp args n { session := delivered args host number input, started := 0 } := by
  cases n with
  | zero => rfl
  | succ n =>
    have hround : round stamp args { session := opened args host number input, started := 0 }
        = round stamp args { session := delivered args host number input, started := 0 } := by
      have hdone : Progress.isDone args { session := opened args host number input, started := 0 }
          = Progress.isDone args
            { session := delivered args host number input, started := 0 } := rfl
      unfold round
      rw [hdone]
      dsimp only
      rw [nextMessage_opened hsize]
      rfl
    rw [rounds, rounds, hround]

/-- A dump of what is delivered at once consists of its rounds. -/
theorem execute_eq {receivable : Endpoint → Option Capture} (hprobe : args.noProbe = true)
    (hendpoint : Endpoint.parse args.endpoint = .ok (.tcp host number))
    (hdelivers : receivable (.tcp host number) = some ⟨input⟩) (hsize : input.length ≤ readSize)
    {text : String} {exit : Exit}
    (hrounds : rounds stamp args (input.length + 1)
      { session := delivered args host number input, started := 0 } = (text, some exit)) :
    execute stamp receivable args = (heading ++ text, exit) := by
  have hdump : dump stamp args (.tcp host number) (⟨input⟩ : Capture) (input.length + 1)
      = (heading ++ text, some exit) := by
    have hopen : (fresh args host number input).establish
        = (.ok (), opened args host number input) := establish_fresh hprobe
    unfold fresh at hopen
    unfold dump
    dsimp only
    rw [hopen]
    dsimp only
    have hnow : (opened args host number input).now = 0 := rfl
    rw [hnow, rounds_opened stamp hsize, hrounds]
  unfold execute
  rw [hendpoint]
  dsimp only
  rw [hdelivers]
  dsimp only
  rw [play, hdump]
  rfl

/-- **The dump command prints what the stream says.** Of the messages in what a network address
delivers at once it shows as many as were asked for, with their statistics, or all if there are not
so many, and then it fails. -/
theorem execute_of_delivered {receivable : Endpoint → Option Capture}
    (hprobe : args.noProbe = true) (hduration : args.duration = none)
    (hendpoint : Endpoint.parse args.endpoint = .ok (.tcp host number))
    (hdelivers : receivable (.tcp host number) = some ⟨input⟩)
    (hsize : input.length ≤ readSize) :
    let messages := (({} : Demux).add input).drain.1
    (∀ k, args.count = some k → k ≤ messages.length →
        ∃ listed stats : String, Lists stamp args.hexdump none (messages.take k) listed
          ∧ ShowsStatistics (messages.take k) stats
          ∧ (execute stamp receivable args).1 = "Dumping received data...\n" ++ listed ++ stats
          ∧ (execute stamp receivable args).2.code = if k = 0 then 3 else 0)
      ∧ ((∀ k, args.count = some k → messages.length < k) →
        ∃ listed : String, Lists stamp args.hexdump none messages listed
          ∧ (execute stamp receivable args).1 = "Dumping received data...\n" ++ listed
          ∧ (execute stamp receivable args).2.code = 1) := by
  intro messages
  have hdumping : Dumping input []
      { session := delivered args host number input, started := 0 } :=
    ⟨playing_delivered args host number input, rfl⟩
  have hn : messages.length < input.length + 1 :=
    Nat.lt_succ_of_le (length_drain_le (({} : Demux).add input))
  constructor
  · intro k hcount henough
    have hwanted : args.count = some (([] : List Message).length + k) := by
      rw [List.length_nil, Nat.zero_add, hcount]
    obtain ⟨tally, hcounts, hrounds⟩ :=
      rounds_of_enough stamp hsize hduration hwanted hdumping henough hn
    rw [List.length_nil, Nat.zero_add] at hrounds
    rw [execute_eq stamp hprobe hendpoint hdelivers hsize hrounds]
    refine ⟨_, _, lists_iff.mpr rfl, (showsStatistics_iff hcounts).mpr rfl, ?_, ?_⟩
    · exact (String.append_assoc).symm
    · dsimp only
      split <;> rfl
  · intro hfew
    have hmissing : ∀ k ∈ args.count, ([] : List Message).length + messages.length < k := by
      intro k hk
      rw [List.length_nil, Nat.zero_add]
      exact hfew k hk
    have hrounds := rounds_of_few stamp hduration hdumping hmissing hn
    rw [execute_eq stamp hprobe hendpoint hdelivers hsize hrounds]
    exact ⟨_, lists_iff.mpr rfl, rfl, rfl⟩

end Start

/-! ### Three messages

The third of four messages is the last one that is asked for. The clock is set back before it. -/

/-- An acknowledgement, some bytes of no frame, and the ends of two epochs. -/
def mixedBytes : List UInt8 :=
  Frame.encode ⟨.ackAck, [0x06, 0x8a]⟩
    ++ [0x48, 0x65, 0x6c, 0x6c, 0x6f, 0x2c, 0x20, 0x77, 0x6f, 0x72, 0x6c, 0x64, 0x21, 0x0d, 0x0a,
      0x7e, 0x7f, 0x80]
    ++ Frame.encode ⟨⟨0x01, 0x61⟩, []⟩ ++ Frame.encode ⟨⟨0x01, 0x61⟩, []⟩

/-- Whatever is opened delivers them. -/
def mixedBytesFrom (_ : Endpoint) : Option Capture := some ⟨mixedBytes⟩

/-- When the messages are received. -/
def mixedTimes (m : Message) : Int := [0, 0, 12900000, 11300000].getD m.seq.toNat 0

/-- Three messages are asked for, with their bytes. -/
def threeWanted : Arguments := ⟨"tcp://localhost:2101", true, true, none, some 3⟩

/-- The three messages. -/
def threeGiven : List Message :=
  [⟨.ubx, Frame.encode ⟨.ackAck, [0x06, 0x8a]⟩, 1⟩,
    ⟨.garbage, [0x48, 0x65, 0x6c, 0x6c, 0x6f, 0x2c, 0x20, 0x77, 0x6f, 0x72, 0x6c, 0x64, 0x21, 0x0d,
      0x0a, 0x7e, 0x7f, 0x80], 2⟩,
    ⟨.ubx, Frame.encode ⟨⟨0x01, 0x61⟩, []⟩, 3⟩]

/-- Their tally. -/
def threeCounted : Tally where
  total := ⟨3, 36⟩
  ubx := ⟨2, 18⟩
  garbage := ⟨1, 18⟩

/-- What is printed about them. -/
def threeListed : String :=
  "message    1, dt    0, size   10, UBX      UBX-ACK-ACK          acknowledgement UBX-CFG-VALSET\n"
    ++ "    0x0000 00000  b5 62 05 01 02 00 06 8a 98 c1                    |.b........|\n"
    ++ "message    2, dt   12, size   18, GARBAGE  GARBAGE              n/a\n"
    ++ "    0x0000 00000  48 65 6c 6c 6f 2c 20 77 6f 72 6c 64 21 0d 0a 7e  |Hello, world!..~|\n"
    ++ "    0x0010 00016  7f 80                                            |..|\n"
    ++ "message    3, dt   -1, size    8, UBX      UBX-NAV-EOE          empty message / poll request\n"
    ++ "    0x0000 00000  b5 62 01 61 00 00 62 27                          |.b.a..b'|\n"

/-- Their statistics as they are printed. -/
def threeStats : String :=
  "stats UBX      count      2 ( 66.7%)  size         18 ( 50.0%)\n"
    ++ "stats NMEA     count      0 (  0.0%)  size          0 (  0.0%)\n"
    ++ "stats RTCM3    count      0 (  0.0%)  size          0 (  0.0%)\n"
    ++ "stats GARBAGE  count      1 ( 33.3%)  size         18 ( 50.0%)\n"
    ++ "stats Total    count      3 (100.0%)  size         36 (100.0%)\n"

theorem take_drain_mixedBytes :
    3 ≤ (({} : Demux).add mixedBytes).drain.1.length
      ∧ (({} : Demux).add mixedBytes).drain.1.take 3 = threeGiven := by
  obtain ⟨d₁, d₂, d₃, h₁, h₂, h₃⟩ : ∃ d₁ d₂ d₃ : Demux,
      (({} : Demux).add mixedBytes).next?
        = some (⟨.ubx, Frame.encode ⟨.ackAck, [0x06, 0x8a]⟩, 1⟩, d₁)
      ∧ d₁.next? = some (⟨.garbage, _, 2⟩, d₂)
      ∧ d₂.next? = some (⟨.ubx, Frame.encode ⟨⟨0x01, 0x61⟩, []⟩, 3⟩, d₃) :=
    ⟨_, _, _, rfl, rfl, rfl⟩
  rw [Demux.drain_of_next? h₁, Demux.drain_of_next? h₂, Demux.drain_of_next? h₃]
  exact ⟨Nat.le_add_left 3 _, rfl⟩

theorem counts_threeGiven : Counts threeCounted threeGiven :=
  ⟨fun p => by cases p <;> decide +kernel, by decide +kernel⟩

theorem listings_threeGiven : listings mixedTimes true none threeGiven = threeListed := by
  decide +kernel

theorem statistics_threeCounted : statistics threeCounted = threeStats := by decide +kernel

theorem execute_ofMixedBytes :
    Endpoint.parse "tcp://localhost:2101" = .ok (.tcp "localhost" 2101)
      ∧ mixedBytes.length ≤ readSize
      ∧ (execute mixedTimes mixedBytesFrom threeWanted).1
        = "Dumping received data...\n" ++ threeListed ++ threeStats
      ∧ (execute mixedTimes mixedBytesFrom threeWanted).2.code = 0 := by
  have hendpoint : Endpoint.parse "tcp://localhost:2101" = .ok (.tcp "localhost" 2101) := rfl
  have hdelivers : mixedBytesFrom (.tcp "localhost" 2101) = some ⟨mixedBytes⟩ := rfl
  have hsize : mixedBytes.length ≤ readSize := by decide
  obtain ⟨henough, hgiven⟩ := take_drain_mixedBytes
  have hprobe : threeWanted.noProbe = true := rfl
  obtain ⟨hshown, -⟩ := execute_of_delivered mixedTimes hprobe rfl hendpoint hdelivers hsize
  obtain ⟨listed, stats, hlists, hstats, htext, hcode⟩ := hshown 3 rfl henough
  rw [hgiven] at hlists hstats
  have hlisted : listed = threeListed := (lists_iff.mp hlists).trans listings_threeGiven
  have hprinted : stats = threeStats :=
    ((showsStatistics_iff counts_threeGiven).mp hstats).trans statistics_threeCounted
  rw [hlisted, hprinted] at htext
  exact ⟨hendpoint, hsize, htext, hcode⟩

end GnssLink.Dump
