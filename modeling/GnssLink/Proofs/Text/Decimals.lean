import Mathlib.Tactic.IntervalCases
import GnssLink.Text.Numeral
import GnssLink.Text.Pad
/-!
# GnssLink.Proofs.Text.Decimals

**Decimal numerals, written and read.** A number that is written reads back as itself
(`natural?_toString`), and a number with leading zeros is written with the digits of its places
(`zeroPadded_eq`).
-/

namespace GnssLink.Text

/-! ### The digits of a number -/

/-- A character that is no digit does not occur in a number. -/
theorem notMem_toString {c : Char} (h : ¬c.isDigit) (n : Nat) : c ∉ (toString n).toList := by
  rw [Nat.toString_eq_repr, Nat.toList_repr]
  intro hmem
  exact h (Nat.isDigit_of_mem_toDigits (by decide) (by decide) hmem)

/-- The last `width` digits of a number. -/
def lastDigits : Nat → Nat → List Char
  | 0, _ => []
  | width + 1, n => lastDigits width (n / 10) ++ [Nat.digitChar (n % 10)]

/-- The digits of a number behind the zeros that fill the width are its last digits. -/
theorem replicate_append_toDigits {width n : Nat} (h : n < 10 ^ (width + 1)) :
    List.replicate (width + 1 - (Nat.toDigits 10 n).length) '0' ++ Nat.toDigits 10 n
      = lastDigits (width + 1) n := by
  induction width generalizing n with
  | zero =>
    have hdigit : n < 10 := by simpa using h
    rw [Nat.toDigits_of_lt_base hdigit]
    simp [lastDigits, Nat.mod_eq_of_lt hdigit]
  | succ width ih =>
    have hrest : n / 10 < 10 ^ (width + 1) := by
      rw [Nat.pow_succ] at h
      omega
    have hmore := ih hrest
    rw [lastDigits, ← hmore]
    by_cases hdigit : n < 10
    · -- One digit: the number before it is zero, which stands in the width as one more zero.
      rw [Nat.toDigits_of_lt_base hdigit, Nat.div_eq_of_lt hdigit, Nat.mod_eq_of_lt hdigit]
      simp [List.replicate_succ']
    · rw [Nat.toDigits_eq_if (by decide), if_neg hdigit]
      simp

theorem zeroPadded_eq {width n : Nat} (hwidth : 0 < width) (h : n < 10 ^ width) :
    zeroPadded width n = String.ofList (lastDigits width n) := by
  obtain ⟨w, rfl⟩ := Nat.exists_eq_succ_of_ne_zero (Nat.ne_of_gt hwidth)
  rw [← replicate_append_toDigits h, String.ofList_append, zeroPadded, padLeft,
    Nat.toString_eq_repr, ← Nat.toList_repr, String.ofList_toList, String.length_toList]

@[simp] theorem zeroPaddedInt_natCast (width n : Nat) :
    zeroPaddedInt width n = zeroPadded width n := by
  rw [zeroPaddedInt, if_neg (by omega), Int.natAbs_natCast]

theorem isDigit_of_mem_lastDigits {c : Char} {width n : Nat} (h : c ∈ lastDigits width n) :
    c.isDigit := by
  induction width generalizing n with
  | zero => simp [lastDigits] at h
  | succ width ih =>
    rw [lastDigits, List.mem_append, List.mem_singleton] at h
    rcases h with hbefore | rfl
    · exact ih hbefore
    · have hlast : n % 10 < 10 := Nat.mod_lt n (by decide)
      simp [hlast]

/-- A sign is no digit. -/
theorem zeroPaddedInt_ne_lastDigits {n : Int} (h : n < 0) (width width' m : Nat) :
    zeroPaddedInt width n ≠ String.ofList (lastDigits width' m) := by
  rw [zeroPaddedInt, if_pos h]
  intro heq
  have hlists := congrArg String.toList heq
  simp only [String.toList_append, String.toList_ofList] at hlists
  have hsign : '-' ∈ lastDigits width' m := by
    rw [← hlists]
    exact List.mem_append_left _ (List.mem_singleton_self _)
  exact absurd (isDigit_of_mem_lastDigits hsign) (by decide)

/-! ### Reading a number that was written -/

theorem Hex.digit?_digitChar {d : Nat} (h : d < 10) : digit? (Nat.digitChar d) = some d := by
  interval_cases d <;> rfl

namespace Numeral

theorem value?_append (base n : Nat) (front back : List Char) :
    value? base n (front ++ back)
      = (value? base n front).bind fun m => value? base m back := by
  induction front generalizing n with
  | nil => rfl
  | cons c rest ih =>
    rw [List.cons_append, value?, value?]
    cases Hex.digit? c with
    | none => rfl
    | some d =>
      by_cases hd : d < base
      · simp only [hd, if_true, ih]
      · simp [hd]

theorem value?_toDigits (n : Nat) : value? 10 0 (Nat.toDigits 10 n) = some n := by
  induction n using Nat.strongRecOn with
  | _ n ih =>
    rw [Nat.toDigits_eq_if (by decide)]
    by_cases hdigit : n < 10
    · simp [hdigit, value?, Hex.digit?_digitChar]
    · have hlast : n % 10 < 10 := Nat.mod_lt n (by decide)
      have hbefore : n / 10 < n := Nat.div_lt_self (by omega) (by decide)
      rw [if_neg hdigit, value?_append, ih (n / 10) hbefore]
      simp [value?, Hex.digit?_digitChar hlast, hlast, Nat.div_add_mod]

/-- Text without a plus sign is read as it is. -/
theorem withoutPlus_of_notMem {text : List Char} (h : '+' ∉ text) : withoutPlus text = text := by
  unfold withoutPlus
  split
  · next rest => simp at h
  · rfl

/-- **A number that is written reads back**, up to the limit of its field. -/
theorem natural?_toString {n limit : Nat} (h : n ≤ limit) :
    natural? 10 limit (toString n).toList = some n := by
  have hplus : '+' ∉ (toString n).toList := notMem_toString (by decide) n
  have hsome : (Nat.toDigits 10 n).isEmpty = false := by simp [Nat.toDigits_ne_nil]
  rw [natural?, withoutPlus_of_notMem hplus, Nat.toString_eq_repr, Nat.toList_repr, digits?,
    hsome]
  simp [value?_toDigits, h]

end Numeral
end GnssLink.Text
