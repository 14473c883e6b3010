import GnssLink.Link.Basic
import GnssLink.MessageId
/-!
# GnssLink.Link.Script

**A link that follows a script.** What arrives and when is laid down beforehand (`incoming`), or by
rules that answer what is written (`rules`). The clock is part of the script: it advances by
`idleTime` whenever a read finds nothing, and at no other time.

Design points:

* Arrivals are kept in order of time, those of one instant in order of their insertion. A read
  takes bytes of the first arrival only and never joins two.
* A fault that has arrived stays: every later read fails too.
* The supply counts the bytes of all arrivals and of all replies not yet used, and one more for
  each of them.
-/

namespace GnssLink

/-- What a script lets happen on the receiving side. -/
inductive Event where
  | data (bytes : List UInt8)
  | fault
  deriving DecidableEq, Repr

/-- An event and its time. -/
structure Arrival where
  time : Nat
  event : Event
  deriving DecidableEq, Repr

/-- An event that follows something by some time. -/
structure Delayed where
  /-- How much later the event arrives. -/
  delay : Nat
  event : Event
  deriving DecidableEq, Repr

/-- The replies to one kind of message. -/
structure Rule where
  /-- The message that is answered. -/
  id : MessageId
  /-- The answers to it, each to be used once. -/
  replies : List (List Delayed)
  deriving DecidableEq, Repr

/-- The state of a scripted link. -/
structure Script where
  now : Nat := 0
  /-- The baud rate, if the link has one. -/
  baud : Option UInt32 := none
  /-- The only baud rate at which rules answer, if there is such. -/
  goodBaud : Option UInt32 := none
  /-- How messages are answered. -/
  rules : List Rule := []
  /-- What arrives, in order. -/
  incoming : List Arrival := []
  /-- The number of the write from which on writes fail. -/
  failWrite : Option Nat := none
  /-- A baud rate that cannot be set. -/
  failBaud : Option UInt32 := none
  /-- Whether what has arrived cannot be forgotten. -/
  failClear : Bool := false
  /-- How many writes there were. -/
  writes : Nat := 0
  /-- What was written, by write. -/
  written : List (List UInt8) := []
  /-- The baud rates that were set. -/
  bauds : List UInt32 := []
  deriving DecidableEq, Repr

namespace Script

/-- The fault of every failure. -/
def unplugged : Fault := ⟨"unplugged"⟩

/-- The fault of a link without baud rate when one is set. -/
def noBaudRate : Fault := ⟨"transport has no baud rate"⟩

/-- How long a read waits for an arrival. -/
def idleTime : Nat := millis 10

/-- Puts an arrival behind those that are not later. -/
def insertArrival (a : Arrival) : List Arrival → List Arrival
  | [] => [a]
  | b :: rest => if a.time < b.time then a :: b :: rest else b :: insertArrival a rest

/-- Lets an event follow the present. -/
def schedule (s : Script) (d : Delayed) : Script :=
  { s with incoming := insertArrival ⟨s.now + d.delay, d.event⟩ s.incoming }

/-- Lets some events follow the present. -/
def scheduleAll (s : Script) (events : List Delayed) : Script := events.foldl schedule s

/-- Lets time pass. -/
def wait (s : Script) (d : Nat) : Script := { s with now := s.now + d }

/-- The message that written bytes are taken for, from the place where a frame names it. -/
def idOf? : List UInt8 → Option MessageId
  | _ :: _ :: cls :: num :: _ => some ⟨cls, num⟩
  | _ => none

/-- The next reply to a message and the rules without it. Only the first rule for the message
counts. -/
def takeReply (id : MessageId) : List Rule → List Delayed × List Rule
  | [] => ([], [])
  | rule :: rest =>
    if rule.id = id then (rule.replies.headD [], { rule with replies := rule.replies.tail } :: rest)
    else
      let (reply, rest) := takeReply id rest
      (reply, rule :: rest)

/-- Answers written bytes. -/
def respond (s : Script) (data : List UInt8) : Script :=
  match idOf? data with
  | none => s
  | some id =>
    let (reply, rules) := takeReply id s.rules
    { s with rules }.scheduleAll reply

/-- Whether what is written is heard at the present baud rate. -/
def isHeard (s : Script) : Bool := s.goodBaud.isNone || s.baud == s.goodBaud

/-- Takes bytes of the first arrival, or waits if nothing has arrived. -/
def read (s : Script) : Except Fault (List UInt8) × Script :=
  match s.incoming with
  | [] => (.ok [], s.wait idleTime)
  | first :: rest =>
    if s.now < first.time then (.ok [], s.wait idleTime)
    else
      match first.event with
      | .fault => (.error unplugged, s)
      | .data bytes =>
        let left := bytes.drop readSize
        let incoming := if left.isEmpty then rest else { first with event := .data left } :: rest
        (.ok (bytes.take readSize), { s with incoming })

/-- Records what is written and answers it. -/
def write (data : List UInt8) (s : Script) : Except Fault Unit × Script :=
  let s := { s with writes := s.writes + 1 }
  if s.failWrite.any (· ≤ s.writes) then (.error unplugged, s)
  else
    let s := { s with written := s.written ++ [data] }
    (.ok (), if s.isHeard then s.respond data else s)

/-- Sets and records the baud rate. -/
def setBaudRate (baud : UInt32) (s : Script) : Except Fault Unit × Script :=
  if s.baud.isNone then (.error noBaudRate, s)
  else if s.failBaud = some baud then (.error unplugged, s)
  else (.ok (), { s with baud := some baud, bauds := s.bauds ++ [baud] })

/-- Drops all that has arrived. -/
def clearInput (s : Script) : Except Fault Unit × Script :=
  if s.failClear then (.error unplugged, s)
  else (.ok (), { s with incoming := s.incoming.filter fun a => s.now < a.time })

/-! ### What is left to arrive -/

/-- What an event counts for: its bytes and one more. -/
def weight : Event → Nat
  | .data bytes => bytes.length + 1
  | .fault => 1

/-- The sum of some weights. -/
def total (weights : List Nat) : Nat := weights.foldr (· + ·) 0

@[simp] theorem total_nil : total [] = 0 := rfl

@[simp] theorem total_cons (n : Nat) (weights : List Nat) :
    total (n :: weights) = n + total weights := rfl

/-- The weight of a reply. -/
def replyWeight (reply : List Delayed) : Nat := total (reply.map fun d => weight d.event)

/-- The weight of all replies of a rule. -/
def ruleWeight (rule : Rule) : Nat := total (rule.replies.map replyWeight)

/-- The weight of all arrivals. -/
def incomingWeight (incoming : List Arrival) : Nat := total (incoming.map fun a => weight a.event)

/-- A bound on the bytes that the script still lets arrive. -/
def supply (s : Script) : Nat := incomingWeight s.incoming + total (s.rules.map ruleWeight)

theorem incomingWeight_insertArrival (a : Arrival) (l : List Arrival) :
    incomingWeight (insertArrival a l) = weight a.event + incomingWeight l := by
  induction l with
  | nil => rfl
  | cons b rest ih =>
    unfold insertArrival
    split
    · rfl
    · simp only [incomingWeight, List.map_cons, total_cons] at ih ⊢
      omega

theorem supply_schedule (s : Script) (d : Delayed) :
    (s.schedule d).supply = weight d.event + s.supply := by
  simp only [supply, schedule, incomingWeight_insertArrival]
  omega

theorem supply_scheduleAll (s : Script) (events : List Delayed) :
    (s.scheduleAll events).supply = replyWeight events + s.supply := by
  induction events generalizing s with
  | nil => simp [scheduleAll, replyWeight]
  | cons d rest ih =>
    have h := ih (s.schedule d)
    rw [supply_schedule] at h
    simp only [scheduleAll, List.foldl_cons, replyWeight, List.map_cons, total_cons] at h ⊢
    omega

/-- A reply is taken out of the rules. -/
theorem weight_takeReply (id : MessageId) (rules : List Rule) :
    replyWeight (takeReply id rules).1 + total ((takeReply id rules).2.map ruleWeight)
      = total (rules.map ruleWeight) := by
  induction rules with
  | nil => rfl
  | cons rule rest ih =>
    unfold takeReply
    split
    · cases hr : rule.replies with
      | nil => simp [ruleWeight, replyWeight, hr]
      | cons reply more =>
        simp only [ruleWeight, hr, List.headD_cons, List.tail_cons, List.map_cons, total_cons]
        omega
    · simp only [List.map_cons, total_cons]
      omega

theorem supply_respond (s : Script) (data : List UInt8) : (s.respond data).supply = s.supply := by
  unfold respond
  split
  · rfl
  · next id _ =>
    have h := weight_takeReply id s.rules
    simp only [supply_scheduleAll]
    simp only [supply]
    omega

theorem supply_write_le (data : List UInt8) (s : Script) : (write data s).2.supply ≤ s.supply := by
  unfold write
  simp only
  split
  · exact Nat.le_refl _
  · split
    · exact Nat.le_of_eq (supply_respond _ _)
    · exact Nat.le_refl _

theorem supply_setBaudRate_le (baud : UInt32) (s : Script) :
    (setBaudRate baud s).2.supply ≤ s.supply := by
  unfold setBaudRate
  split
  · exact Nat.le_refl _
  · split <;> exact Nat.le_refl _

theorem incomingWeight_filter_le (p : Arrival → Bool) (l : List Arrival) :
    incomingWeight (l.filter p) ≤ incomingWeight l := by
  induction l with
  | nil => exact Nat.le_refl _
  | cons a rest ih =>
    rw [List.filter_cons]
    split
    · simp only [incomingWeight, List.map_cons, total_cons] at ih ⊢
      omega
    · simp only [incomingWeight, List.map_cons, total_cons] at ih ⊢
      omega

theorem supply_clearInput_le (s : Script) : (clearInput s).2.supply ≤ s.supply := by
  unfold clearInput
  split
  · exact Nat.le_refl _
  · have := incomingWeight_filter_le (fun a => s.now < a.time) s.incoming
    simp only [supply]
    omega

/-- A read takes from the supply at least what it answers, or it takes time. -/
theorem supply_of_read {s s' : Script} {data : List UInt8} (h : s.read = (.ok data, s')) :
    data.length + s'.supply ≤ s.supply ∧ (s'.supply < s.supply ∨ s.now < s'.now) := by
  have hidle : s.now < (s.wait idleTime).now := by
    simp [wait, idleTime, millis]
  unfold read at h
  split at h
  · cases h
    exact ⟨by simp [supply, wait], Or.inr hidle⟩
  · next first rest hincoming =>
    split at h
    · cases h
      exact ⟨by simp [supply, wait], Or.inr hidle⟩
    · split at h
      · cases h
      · next bytes hevent =>
        cases h
        simp only [supply, hincoming, incomingWeight, List.map_cons, total_cons, hevent, weight,
          List.length_take]
        split
        · omega
        · next hleft =>
          have hpos : 0 < (bytes.drop readSize).length :=
            List.length_pos_iff.mpr fun h => hleft (by simp [h])
          have hsize : readSize = 4096 := rfl
          simp only [List.map_cons, total_cons, List.length_drop] at hpos ⊢
          omega

instance : Link Script where
  now := Script.now
  baudRate := Script.baud
  read := read
  write := write
  setBaudRate := setBaudRate
  clearInput := clearInput
  supply := supply
  supply_of_read h := (supply_of_read h).1
  progress_of_read h := (supply_of_read h).2
  supply_write_le := supply_write_le
  supply_setBaudRate_le := supply_setBaudRate_le
  supply_clearInput_le := supply_clearInput_le

end Script
end GnssLink
