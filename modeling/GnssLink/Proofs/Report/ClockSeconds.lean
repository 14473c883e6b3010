import GnssLink.Proofs.Report.Rounding
import GnssLink.Proofs.Report.WithinPayload
import GnssLink.Proofs.Text.Decimals
/-!
# GnssLink.Proofs.Report.ClockSeconds

**A fix shows the seconds of a clock, unless it lies before a full minute** (`seconds_of_fix`).

A fix has a second and nanoseconds to add, which may be negative. What is carried when they are
rounded is added to the second, up to the second 60, and not to the minute. So half a millisecond or
more before a full minute the second is shown as `-1`, where a clock shows two digits
(`exists_second_before_zero`).
-/

namespace GnssLink.Report

open LittleEndian
open Text (lastDigits)

namespace Fix

/-! ### The parts of the line -/

/-- The line up to the seconds. -/
def untilSeconds (f : Fix) : String :=
  weekTime (scaled f.itow 1e-3) ++ " " ++ f.date ++ " " ++ Text.zeroPadded 2 f.hour ++ ":"
    ++ Text.zeroPadded 2 f.minute ++ ":"

/-- The seconds as they are shown. -/
def secondsText (f : Fix) : String := Text.zeroPaddedInt 2 (roundToMillis f.second f.nano).1

/-- The milliseconds as they are shown. -/
def millisText (f : Fix) : String := Text.zeroPaddedInt 3 (roundToMillis f.second f.nano).2

/-- The line from the milliseconds on. -/
def afterMillis (f : Fix) : String :=
  " (" ++ validity (hasBit f.valid 1) (hasBit f.confirmed 7) ++ ") " ++ f.quality ++ " "
    ++ Text.column 2 f.satellites ++ " "
    ++ Number.FixedFormat.render { places := 2, width := 4 } (scaled f.dilution 1e-2) ++ " "
    ++ f.position

theorem render_eq (f : Fix) :
    f.render = f.untilSeconds ++ f.secondsText ++ "." ++ f.millisText ++ f.afterMillis := by
  simp [render, time, seconds, untilSeconds, secondsText, millisText, afterMillis,
    String.append_assoc]

/-- The time is shown as on a clock, with two digits for the seconds, at most 60, and three for the
milliseconds. -/
def ShowsClock (f : Fix) : Prop :=
  (∃ s ≤ 60, f.secondsText = String.ofList (lastDigits 2 s))
    ∧ ∃ ms < 1000, f.millisText = String.ofList (lastDigits 3 ms)

/-! ### Reading the fields -/

/-- A payload of this size has all fields of a fix, the second and the nanoseconds among them. -/
theorem exists_ofPayload? {p : List UInt8} {sec : UInt8} {nano : Int} (h : p.length = size)
    (hsec : p[10]? = some sec) (hnano : signed? p 16 4 = some nano) :
    ∃ f, ofPayload? p = some f ∧ f.second = sec.toNat ∧ f.nano = nano := by
  have hlength : p.length = 92 := h
  have hsecond := unsigned?_of_getElem? hsec
  unfold ofPayload?
  simp (disch := omega) only [hsecond, hnano, unsigned?_eq_some, signed?_eq_some,
    Option.bind_eq_bind, Option.bind_some]
  exact ⟨_, rfl, rfl, rfl⟩

theorem describe_eq {p : List UInt8} {f : Fix} (hsize : p.length = size)
    (hf : ofPayload? p = some f) : describe ⟨0x01, 0x07⟩ p = some f.render := by
  have hsome : p ≠ [] := by
    rintro rfl
    cases hsize
  have hknown : known.find? (fun entry => entry.1 = ⟨0x01, 0x07⟩) = some (⟨0x01, 0x07⟩, fix) := rfl
  rw [describe_of_known hsome (by decide) hknown, fix, if_neg (not_not_intro hsize), hf]
  rfl

/-! ### The seconds -/

variable {f : Fix}

theorem exists_millisText (f : Fix) :
    ∃ ms < 1000, f.millisText = String.ofList (lastDigits 3 ms) := by
  obtain ⟨hleast, hmost⟩ := roundToMillis_snd_bounds f.second f.nano
  obtain ⟨ms, hms⟩ := Int.eq_ofNat_of_zero_le hleast
  have hlt : ms < 1000 := by omega
  refine ⟨ms, hlt, ?_⟩
  rw [millisText, hms, Text.zeroPaddedInt_natCast, Text.zeroPadded_eq (by decide) hlt]

/-- Less than a second before or after the full second, at most one is carried. -/
theorem secondsText_eq (hsecond : f.second ≤ 59) (hlow : -1000000000 < f.nano)
    (hhigh : f.nano < 1000000000) :
    f.secondsText = Text.zeroPaddedInt 2 (f.second + carry f.nano)
      ∧ f.second + carry f.nano ≤ 60
      ∧ (f.second + carry f.nano < 0 ↔ f.second = 0 ∧ f.nano < -500000)
      ∧ -1 ≤ f.second + carry f.nano := by
  have hcarry : carry f.nano = (f.nano + 500000) / 1000000 / 1000 := rfl
  have hword : IsWord 32 (f.second + carry f.nano) := isWord_32_iff.mpr (by omega)
  have hshown : (roundToMillis f.second f.nano).1 = f.second + carry f.nano :=
    saturate_of_isWord hword
  refine ⟨by rw [secondsText, hshown], ?_⟩
  omega

theorem showsClock_iff (hsecond : f.second ≤ 59) (hlow : -1000000000 < f.nano)
    (hhigh : f.nano < 1000000000) :
    f.ShowsClock ↔ ¬(f.second = 0 ∧ f.nano < -500000) := by
  obtain ⟨htext, hmost, hnegative, -⟩ := secondsText_eq hsecond hlow hhigh
  rw [ShowsClock, htext, ← hnegative]
  constructor
  · rintro ⟨⟨s, -, hs⟩, -⟩ hlt
    exact Text.zeroPaddedInt_ne_lastDigits hlt 2 2 s hs
  · intro hnot
    obtain ⟨s, hs⟩ := Int.eq_ofNat_of_zero_le (Int.not_lt.mp hnot)
    have hle : s ≤ 60 := by omega
    refine ⟨⟨s, hle, ?_⟩, f.exists_millisText⟩
    rw [hs, Text.zeroPaddedInt_natCast, Text.zeroPadded_eq (by decide) (by omega)]

theorem secondsText_of_before (hzero : f.second = 0) (hlow : -1000000000 < f.nano)
    (hbefore : f.nano < -500000) : f.secondsText = "-1" := by
  obtain ⟨htext, -, hnegative, hleast⟩ := secondsText_eq (by omega) hlow (by omega)
  have hlt := hnegative.mpr ⟨hzero, hbefore⟩
  have hone : f.second + carry f.nano = -1 := by omega
  rw [htext, hone]
  decide

end Fix

/-- **A fix shows the seconds of a clock, unless it lies before a full minute.** The report on a fix
whose second is at most 59, with less than a second to add or to take away, shows the milliseconds
with three digits. It shows the seconds with two digits, at most 60, unless half a millisecond or
more is to be taken away from the second 0; there it shows `-1`. -/
theorem seconds_of_fix {p : List UInt8} {sec : UInt8} {nano : Int} (hsize : p.length = Fix.size)
    (hsec : p[10]? = some sec) (hnano : signed? p 16 4 = some nano) (hmost : sec ≤ 59)
    (hlow : -1000000000 < nano) (hhigh : nano < 1000000000) :
    ∃ f, Fix.ofPayload? p = some f
      ∧ describe ⟨0x01, 0x07⟩ p
          = some (f.untilSeconds ++ f.secondsText ++ "." ++ f.millisText ++ f.afterMillis)
      ∧ (∃ ms < 1000, f.millisText = String.ofList (lastDigits 3 ms))
      ∧ (f.ShowsClock ↔ ¬(sec = 0 ∧ nano < -500000))
      ∧ (sec = 0 ∧ nano < -500000 → f.secondsText = "-1") := by
  obtain ⟨f, hf, hsecond, rfl⟩ := Fix.exists_ofPayload? hsize hsec hnano
  have hle : f.second ≤ 59 := by
    rw [hsecond]
    exact UInt8.le_iff_toNat_le.mp hmost
  have hzero : sec = 0 ↔ f.second = 0 := by rw [hsecond, ← UInt8.toNat_inj, UInt8.toNat_zero]
  rw [hzero]
  refine ⟨f, hf, ?_, f.exists_millisText, Fix.showsClock_iff hle hlow hhigh, ?_⟩
  · rw [Fix.describe_eq hsize hf, Fix.render_eq]
  · rintro ⟨hfirst, hbefore⟩
    exact Fix.secondsText_of_before hfirst hlow hbefore

/-- A fix at the second 59 that is rounded to the second 60. -/
def endOfMinute : List UInt8 :=
  List.replicate 10 0 ++ [59] ++ List.replicate 5 0 ++ [0x80, 0xaf, 0x94, 0x3b]
    ++ List.replicate 72 0

theorem seconds_of_fix_endOfMinute :
    endOfMinute.length = Fix.size ∧ endOfMinute[10]? = some 59
      ∧ signed? endOfMinute 16 4 = some 999600000
      ∧ ∃ f, Fix.ofPayload? endOfMinute = some f ∧ f.ShowsClock := by
  have hsize : endOfMinute.length = Fix.size := by decide
  have hsec : endOfMinute[10]? = some 59 := by decide
  have hnano : signed? endOfMinute 16 4 = some 999600000 := by decide
  obtain ⟨f, hf, -, -, hshows, -⟩ :=
    seconds_of_fix hsize hsec hnano (by decide) (by decide) (by decide)
  exact ⟨hsize, hsec, hnano, f, hf, hshows.mpr (by decide)⟩

/-- A fix 600 microseconds before a full minute. -/
def beforeMinute : List UInt8 :=
  List.replicate 16 0 ++ [0x40, 0xd8, 0xf6, 0xff] ++ List.replicate 72 0

/-- There is a fix whose second is shown as `-1`. -/
theorem exists_second_before_zero :
    beforeMinute.length = Fix.size ∧ beforeMinute[10]? = some 0
      ∧ signed? beforeMinute 16 4 = some (-600000)
      ∧ ∃ f : Fix, describe ⟨0x01, 0x07⟩ beforeMinute
            = some (f.untilSeconds ++ "-1" ++ "." ++ "999" ++ f.afterMillis)
          ∧ f.secondsText = "-1" ∧ ¬f.ShowsClock := by
  have hsize : beforeMinute.length = Fix.size := by decide
  have hsec : beforeMinute[10]? = some 0 := by decide
  have hnano : signed? beforeMinute 16 4 = some (-600000) := by decide
  obtain ⟨f, hf, hsecond, hnanos⟩ := Fix.exists_ofPayload? hsize hsec hnano
  have hseconds : f.secondsText = "-1" :=
    Fix.secondsText_of_before hsecond (by omega) (by omega)
  have hmillis : f.millisText = "999" := by
    rw [Fix.millisText, hsecond, hnanos]
    decide
  refine ⟨hsize, hsec, hnano, f, ?_, hseconds, ?_⟩
  · rw [Fix.describe_eq hsize hf, Fix.render_eq, hseconds, hmillis]
  · rw [Fix.showsClock_iff (hsecond ▸ by decide) (by omega) (by omega)]
    exact not_not_intro ⟨hsecond, by omega⟩

end GnssLink.Report
