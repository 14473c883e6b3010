import GnssLink.Link.Script
import GnssLink.Proofs.Link.Logged
/-!
# GnssLink.Proofs.Link.IdleClock

**Clocks that idle reads move.** The clock of a scripted link stands still unless a read finds
nothing, and then it moves by `Script.idleTime`. So the time that passes tells how many reads found
nothing, and the supply bounds how many found something.
-/

namespace GnssLink

/-- Whether something was read. -/
def Use.isRead : Use → Bool
  | read _ => true
  | write .. | setBaudRate .. | clearInput _ => false

namespace Script

/-- How many idle reads it takes until a time is over. -/
def idleReads (timeout : Nat) : Nat := (timeout + idleTime - 1) / idleTime

/-- How many reads a wait makes that finds nothing: those until the time is over, at least one. -/
def waitReads (timeout : Nat) : Nat := max 1 (idleReads timeout)

/-- How long a wait takes that finds nothing: the timeout, rounded up to a multiple of `idleTime`,
but at least once that time. -/
def waitTime (timeout : Nat) : Nat := max idleTime (idleReads timeout * idleTime)

theorem idleTime_pos : 0 < idleTime := by decide

theorem waitTime_eq (timeout : Nat) : waitTime timeout = waitReads timeout * idleTime := by
  rw [waitTime, waitReads, ← Nat.mul_max_mul_right, Nat.one_mul]

/-- The rounding is upwards, and to the next multiple. -/
theorem idleReads_bounds (timeout : Nat) :
    timeout ≤ idleReads timeout * idleTime
      ∧ idleReads timeout * idleTime < timeout + idleTime := by
  have hmod := Nat.div_add_mod (timeout + idleTime - 1) idleTime
  have hlt := Nat.mod_lt (timeout + idleTime - 1) idleTime_pos
  have hpos := idleTime_pos
  rw [Nat.mul_comm] at hmod
  rw [idleReads]
  omega

theorem idleReads_pos {timeout : Nat} (h : 0 < timeout) : 0 < idleReads timeout := by
  rw [idleReads]
  exact Nat.div_pos (by omega) idleTime_pos

/-- An idle read that does not end the wait leaves one less to make. -/
theorem idleReads_add_idleTime (timeout : Nat) :
    idleReads (timeout + idleTime) = idleReads timeout + 1 := by
  have hpos := idleTime_pos
  have hsum : timeout + idleTime + idleTime - 1 = timeout + idleTime - 1 + idleTime := by omega
  rw [idleReads, hsum, Nat.add_div_right _ hpos, ← idleReads]

end Script

/-- A link whose clock is moved by idle reads only. `reads` is a number that a read raises by at
most one and nothing else raises, such as how many reads there were. -/
structure IdleClock (σ : Type) [Link σ] where
  reads : σ → Nat
  /-- A read finds nothing and waits, or it takes no time and uses up some of the supply, or it
  fails. -/
  read : ∀ {l l' : σ} {r : Except Fault (List UInt8)}, Link.read l = (r, l') →
    reads l' ≤ reads l + 1 ∧
      ((r = .ok [] ∧ Link.now l' = Link.now l + Script.idleTime ∧ Link.supply l' ≤ Link.supply l)
        ∨ (Link.now l' = Link.now l ∧ Link.supply l' < Link.supply l)
        ∨ (∃ f, r = .error f) ∧ Link.now l' = Link.now l ∧ Link.supply l' ≤ Link.supply l)
  write : ∀ (data : List UInt8) (l : σ), Link.now (Link.write data l).2 = Link.now l
    ∧ reads (Link.write data l).2 ≤ reads l

namespace Script

/-- All that a read can do. -/
theorem read_cases {s s' : Script} {r : Except Fault (List UInt8)} (h : s.read = (r, s')) :
    (r = .ok [] ∧ s' = s.wait idleTime)
      ∨ (s'.now = s.now ∧ s'.supply < s.supply)
      ∨ (r = .error unplugged ∧ s' = s) := by
  have hsupply (data : List UInt8) (hdata : r = .ok data) := supply_of_read (hdata ▸ h)
  unfold read at h
  split at h
  · cases h
    exact .inl ⟨rfl, rfl⟩
  · split at h
    · cases h
      exact .inl ⟨rfl, rfl⟩
    · split at h
      · cases h
        exact .inr (.inr ⟨rfl, rfl⟩)
      · cases h
        -- the clock stands still, so the read used up some of the supply
        rcases (hsupply _ rfl).2 with hless | hlater
        · exact .inr (.inl ⟨rfl, hless⟩)
        · exact absurd hlater (Nat.lt_irrefl _)

theorem now_scheduleAll (s : Script) (events : List Delayed) :
    (s.scheduleAll events).now = s.now := by
  induction events generalizing s with
  | nil => rfl
  | cons d rest ih => exact ih (s.schedule d)

theorem now_write (data : List UInt8) (s : Script) : (s.write data).2.now = s.now := by
  unfold write
  dsimp only
  split
  · rfl
  · split
    · unfold respond
      split
      · rfl
      · exact now_scheduleAll _ _
    · rfl

/-- The clock of a script. -/
def idleClock : IdleClock Script where
  reads _ := 0
  read h := by
    refine ⟨Nat.zero_le _, ?_⟩
    rcases read_cases h with ⟨hr, rfl⟩ | hdata | ⟨hr, rfl⟩
    · exact .inl ⟨hr, rfl, Nat.le_refl _⟩
    · exact .inr (.inl hdata)
    · exact .inr (.inr ⟨⟨_, hr⟩, rfl, Nat.le_refl _⟩)
  write data s := ⟨now_write data s, Nat.le_refl _⟩

end Script

/-- A link with a log has the clock of the link, and its log tells the number of reads. -/
def IdleClock.logged {σ : Type} [Link σ] (clock : IdleClock σ) : IdleClock (Logged σ) where
  reads l := l.uses.countP Use.isRead
  read h := by
    obtain ⟨hread, huses⟩ := Logged.eq_of_enter h
    refine ⟨?_, (clock.read hread).2⟩
    rw [huses, List.countP_append]
    exact Nat.le_refl _
  write data l := by
    refine ⟨(clock.write data l.link).1, ?_⟩
    show (l.uses ++ [_]).countP Use.isRead ≤ _
    rw [List.countP_append]
    exact Nat.le_refl _

end GnssLink
