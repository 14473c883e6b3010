import GnssLink.Proofs.Stream.Segments
/-!
# GnssLink.Proofs.Stream.Sentences

**Up to the length limit exactly the sentences are recognised**
(`Nmea.recognize_eq_frame_iff_isSentence`). What a sentence is says a grammar (`Nmea.IsSentence`),
which knows neither buffers nor positions.

The recogniser finds the first byte that is no text and looks back from there. A sentence has no
such byte before its end, even if a dollar sign or a star stands in its body, so it is found as a
whole; and what is found is a sentence, because the line that was passed is text
(`exists_line_of_frame`).
-/

namespace GnssLink.Stream.Nmea

/-- A hexadecimal digit of either case, and what it stands for. -/
inductive IsHexDigit : UInt8 → Nat → Prop where
  | decimal {k : Nat} (h : k < 10) : IsHexDigit (UInt8.ofNat (0x30 + k)) k
  | upper {k : Nat} (h : k < 6) : IsHexDigit (UInt8.ofNat (0x41 + k)) (k + 10)
  | lower {k : Nat} (h : k < 6) : IsHexDigit (UInt8.ofNat (0x61 + k)) (k + 10)

/-- A sentence: its body is printable, and two digits give the exclusive or of the bytes in it. -/
inductive IsSentence : List UInt8 → Prop where
  | intro {body : List UInt8} {high low : UInt8} {x y : Nat}
      (text : ∀ b ∈ body, 0x20 ≤ b ∧ b ≤ 0x7e) (first : IsHexDigit high x)
      (second : IsHexDigit low y) (check : 16 * x + y = (body.foldl (· ^^^ ·) 0).toNat) :
      IsSentence (dollar :: (body ++ [star, high, low, cr, lf]))

/-! ### Digits -/

theorem isHexDigit_of_digit? {b : UInt8} {v : Nat}
    (h : Text.Hex.digit? (Char.ofNat b.toNat) = some v) : IsHexDigit b v := by
  have hb := b.toNat_lt
  have hchar : (Char.ofNat b.toNat).toNat = b.toNat := by
    have hvalid : b.toNat.isValidChar := .inl (by omega)
    rw [Char.ofNat, dif_pos hvalid]
    rfl
  have hle (c d : Char) : c ≤ d ↔ c.toNat ≤ d.toNat := by
    rw [Char.le_def, UInt32.le_iff_toNat_le, Char.toNat_val, Char.toNat_val]
  have hbyte {base : Nat} (hbase : base ≤ b.toNat) :
      UInt8.ofNat (base + (b.toNat - base)) = b := by
    rw [Nat.add_sub_cancel' hbase, UInt8.ofNat_toNat]
  simp only [Text.Hex.digit?, hle, hchar, Char.reduceToNat] at h
  split at h
  · next hdecimal =>
    have hdigit := IsHexDigit.decimal (k := b.toNat - 48) (by omega)
    rw [hbyte hdecimal.1] at hdigit
    cases h
    exact hdigit
  · split at h
    · next hlower =>
      have hdigit := IsHexDigit.lower (k := b.toNat - 97) (by omega)
      rw [hbyte hlower.1] at hdigit
      cases h
      exact hdigit
    · split at h
      · next hupper =>
        have hdigit := IsHexDigit.upper (k := b.toNat - 65) (by omega)
        rw [hbyte hupper.1] at hdigit
        cases h
        exact hdigit
      · cases h

theorem digit?_of_isHexDigit {b : UInt8} {v : Nat} (h : IsHexDigit b v) :
    Text.Hex.digit? (Char.ofNat b.toNat) = some v := by
  have hdecimal : ∀ k < 10,
      Text.Hex.digit? (Char.ofNat (UInt8.ofNat (0x30 + k)).toNat) = some k := by decide
  have hletter : ∀ k < 6,
      Text.Hex.digit? (Char.ofNat (UInt8.ofNat (0x41 + k)).toNat) = some (k + 10)
        ∧ Text.Hex.digit? (Char.ofNat (UInt8.ofNat (0x61 + k)).toNat) = some (k + 10) := by decide
  cases h with
  | decimal h => exact hdecimal _ h
  | upper h => exact (hletter _ h).1
  | lower h => exact (hletter _ h).2

theorem digits?_eq_some_iff {high low : UInt8} {n : Nat} :
    digits? high low = some n
      ↔ ∃ x y, IsHexDigit high x ∧ IsHexDigit low y ∧ 16 * x + y = n := by
  simp only [digits?, Option.bind_eq_bind, Option.bind_eq_some_iff, Option.pure_def,
    Option.some.injEq]
  constructor
  · intro h
    obtain ⟨x, hx, y, hy, hn⟩ := h
    exact ⟨x, y, isHexDigit_of_digit? hx, isHexDigit_of_digit? hy, hn⟩
  · intro h
    obtain ⟨x, y, hx, hy, hn⟩ := h
    exact ⟨x, digit?_of_isHexDigit hx, y, digit?_of_isHexDigit hy, hn⟩

/-! ### Lines -/

theorem isText_iff {b : UInt8} : isText b = true ↔ 0x20 ≤ b ∧ b ≤ 0x7e := by
  simp [isText]

theorem isSealed_iff {line : List UInt8} :
    isSealed line = true ↔ ∃ body high low, line = body ++ [star, high, low]
      ∧ digits? high low = some (parity body).toNat := by
  constructor
  · intro h
    unfold isSealed at h
    split at h
    · next mark high low hlast =>
      simp only [Bool.and_eq_true, beq_iff_eq] at h
      obtain ⟨rfl, hcheck⟩ := h
      exact ⟨line.take (line.length - 3), high, low, by rw [← hlast, List.take_append_drop], hcheck⟩
    · cases h
  · intro h
    obtain ⟨body, high, low, rfl, hcheck⟩ := h
    exact isSealed_append hcheck

/-- What is recognised is a line of text with its end. -/
theorem exists_line_of_frame {tail : List UInt8} {n : Nat}
    (h : recognizeTail tail = .frame .nmea n) :
    ∃ line after, tail = line ++ cr :: lf :: after ∧ (∀ b ∈ line, isText b = true)
      ∧ minLine ≤ line.length ∧ isSealed line = true ∧ n = line.length + 3 := by
  obtain ⟨line, hline⟩ : ∃ line, line = (tail.take maxLine).takeWhile isText := ⟨_, rfl⟩
  have htext : ∀ b ∈ line, isText b = true := by
    rw [hline]
    exact List.all_eq_true.mp List.all_takeWhile
  obtain ⟨rest, hrest⟩ : line <+: tail := by
    rw [hline]
    exact (List.takeWhile_prefix isText).trans (List.take_prefix maxLine tail)
  simp only [recognizeTail, ← hline] at h
  rw [← hrest, List.drop_left' rfl] at h
  match rest, h with
  | stop :: after, h =>
    by_cases hend : line.length = maxLine ∨ stop ≠ cr
    · simp only [if_pos hend] at h
      cases h
    · simp only [if_neg hend] at h
      match after, h with
      | last :: after, h =>
        by_cases hsealed : last = lf ∧ minLine ≤ line.length ∧ isSealed line = true
        · simp only [if_pos hsealed] at h
          cases h
          obtain ⟨rfl, hmin, hseal⟩ := hsealed
          obtain rfl : stop = cr := Decidable.not_not.mp fun hstop => hend (.inr hstop)
          exact ⟨line, after, hrest.symm, htext, hmin, hseal, rfl⟩
        · simp only [if_neg hsealed] at h
          cases h

/-! ### Sentences -/

/-- What is recognised is a sentence. -/
theorem isSentence_of_recognize {tail : List UInt8} {n : Nat}
    (h : recognize (dollar :: tail) = .frame .nmea n) :
    11 ≤ n ∧ n ≤ (dollar :: tail).length ∧ IsSentence ((dollar :: tail).take n) := by
  obtain ⟨line, after, rfl, htext, hmin, hsealed, rfl⟩ := exists_line_of_frame h
  obtain ⟨body, high, low, rfl, hcheck⟩ := isSealed_iff.mp hsealed
  obtain ⟨x, y, hx, hy, hsum⟩ := digits?_eq_some_iff.mp hcheck
  have hbody : ∀ b ∈ body, 0x20 ≤ b ∧ b ≤ 0x7e := by
    intro b hb
    exact isText_iff.mp (htext b (List.mem_append_left _ hb))
  have hwhole : dollar :: (body ++ [star, high, low] ++ cr :: lf :: after)
      = dollar :: (body ++ [star, high, low, cr, lf]) ++ after := by simp
  have hlength : (dollar :: (body ++ [star, high, low, cr, lf])).length
      = (body ++ [star, high, low]).length + 3 := by simp
  refine ⟨?_, (of_recognize_frame h).2, ?_⟩
  · rw [minLine] at hmin
    omega
  · rw [hwhole, List.take_left' hlength]
    exact .intro hbody hx hy hsum

/-- A sentence that is not too long is recognised, whatever follows it. -/
theorem recognize_of_isSentence {s : List UInt8} (h : IsSentence s) (hmin : 11 ≤ s.length)
    (hmax : s.length ≤ 83) (after : List UInt8) :
    recognize (s ++ after) = .frame .nmea s.length := by
  cases h with
  | @intro body high low x y text first second check =>
    have hcheck : digits? high low = some (parity body).toNat :=
      digits?_eq_some_iff.mpr ⟨x, y, first, second, check⟩
    obtain ⟨hhigh, hlow⟩ := isText_of_digits? hcheck
    have htext : ∀ b ∈ body ++ [star, high, low], isText b = true := by
      have hbody : ∀ b ∈ body, isText b = true := fun b hb => isText_iff.mpr (text b hb)
      have hstar : isText star = true := rfl
      simpa [or_imp, forall_and, hhigh, hlow, hstar] using hbody
    have hlength : (dollar :: (body ++ [star, high, low, cr, lf])).length
        = (body ++ [star, high, low]).length + 3 := by simp
    have hline : recognize (dollar :: (body ++ [star, high, low, cr, lf]))
        = .frame .nmea ((body ++ [star, high, low]).length + 3) := by
      have hmin' : minLine ≤ (body ++ [star, high, low]).length := by
        rw [minLine]
        omega
      have hmax' : (body ++ [star, high, low]).length < maxLine := by
        rw [maxLine]
        omega
      have hframe := recognizeTail_line htext hmin' hmax' (isSealed_append hcheck)
      rwa [List.append_assoc] at hframe
    -- the sentence is recognised by itself, and what follows does not change that
    rw [recognize_append after (List.cons_ne_nil _ _) (by rw [hline]; exact Verdict.noConfusion),
      hline, hlength]

/-- Whether a buffer starts with a sentence that is not too long. -/
theorem recognize_eq_frame_iff {tail : List UInt8} {n : Nat} (hn : n ≤ 82) :
    recognize (dollar :: tail) = .frame .nmea n
      ↔ 11 ≤ n ∧ n ≤ (dollar :: tail).length ∧ IsSentence ((dollar :: tail).take n) := by
  constructor
  · exact isSentence_of_recognize
  · intro h
    obtain ⟨hmin, hlen, hsentence⟩ := h
    have hlength : ((dollar :: tail).take n).length = n := List.length_take_of_le hlen
    have hframe := recognize_of_isSentence hsentence (by omega) (by omega)
      ((dollar :: tail).drop n)
    rwa [List.take_append_drop, hlength] at hframe

/-- **Up to the length limit exactly the sentences are recognised**, at the start of any buffer, and
what follows a sentence has no influence: the answer is the same for every buffer that starts with
the same bytes. -/
theorem recognize_eq_frame_iff_isSentence (tail : List UInt8) (n : Nat) (hn : n ≤ 82) :
    (recognize (dollar :: tail) = .frame .nmea n
        ↔ 11 ≤ n ∧ n ≤ (dollar :: tail).length ∧ IsSentence ((dollar :: tail).take n))
      ∧ ∀ other, (dollar :: other).take n = (dollar :: tail).take n →
        (recognize (dollar :: other) = .frame .nmea n
          ↔ recognize (dollar :: tail) = .frame .nmea n) := by
  refine ⟨recognize_eq_frame_iff hn, ?_⟩
  intro other hsame
  have hreach : n ≤ (dollar :: other).length ↔ n ≤ (dollar :: tail).length := by
    have hlength := congrArg List.length hsame
    rw [List.length_take, List.length_take] at hlength
    omega
  rw [recognize_eq_frame_iff hn, recognize_eq_frame_iff hn, hsame, hreach]

/-- A sentence whose body holds a dollar sign and a star, and which ends in a lower case digit. -/
def markedSentence : List UInt8 :=
  [dollar, 0x41, dollar, 0x42, star, 0x43, star, 0x34, 0x65, cr, lf]

theorem recognize_markedSentence :
    11 ≤ 82 ∧ IsSentence markedSentence
      ∧ recognize (markedSentence ++ [star, 0xb5]) = .frame .nmea 11
      ∧ recognize (markedSentence ++ markedSentence) = .frame .nmea 11 := by
  have htext : ∀ b ∈ [0x41, dollar, 0x42, star, 0x43], 0x20 ≤ b ∧ b ≤ 0x7e := by
    simp [dollar, star]
  have hsentence : IsSentence markedSentence :=
    .intro htext (.decimal (k := 4) (by decide)) (.lower (k := 4) (by decide)) (by decide)
  have hlimit : 11 ≤ 82 := by simp
  have hexact := recognize_eq_frame_iff_isSentence (markedSentence.tail ++ [star, 0xb5]) 11 hlimit
  have hframe := hexact.1.mpr ⟨Nat.le_refl 11, by simp [markedSentence], hsentence⟩
  exact ⟨hlimit, hsentence, hframe,
    (hexact.2 (markedSentence.tail ++ markedSentence) rfl).mpr hframe⟩

end GnssLink.Stream.Nmea
