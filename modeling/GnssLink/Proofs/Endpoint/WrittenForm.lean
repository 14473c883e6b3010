import Mathlib.Data.List.Infix
import GnssLink.Endpoint
import GnssLink.Proofs.Text.Decimals
/-!
# GnssLink.Proofs.Endpoint.WrittenForm

**An endpoint that was read is read back from its written form** (`written_form_of_endpoints`).

Not every endpoint is: a device may have no name, a scheme in its name, or, without a baud rate, an
`@` that would be taken for the start of one. `IsWritable` says which endpoints are read back, and
reading gives no others.
-/

namespace GnssLink

/-- What stands before and after a mark is found if the mark is the last. -/
theorem Text.Split.atLast?_append {mark : Char} (before : List Char) {after : List Char}
    (h : mark ∉ after) : atLast? mark (before ++ mark :: after) = some (before, after) := by
  induction before with
  | nil =>
    rw [List.nil_append, atLast?, atLast?_eq_none_iff.mpr h]
    exact if_pos rfl
  | cons c rest ih => rw [List.cons_append, atLast?, ih]

namespace Endpoint

open Text (notMem_toString)

/-- The endpoint is read back from its written form. -/
def IsWritable : Endpoint → Prop
  | serial path baud =>
    path ≠ "" ∧ ¬"://".toList <:+: path.toList ∧ (baud = none → '@' ∉ path.toList)
  | tcp host _ => host ≠ ""

theorem hasSchemeMark_iff (text : List Char) : hasSchemeMark text ↔ "://".toList <:+: text := by
  induction text with
  | nil => decide
  | cons c rest ih =>
    rw [hasSchemeMark, Bool.or_eq_true, ih, List.infix_cons_iff, List.isPrefixOf_iff_prefix]
    rfl

/-! ### Network addresses -/

/-- An address is read from the number behind its last colon. -/
theorem ofAddress?_written {host : String} (h : host ≠ "") (number : UInt16) :
    ofAddress? (host.toList ++ ':' :: (toString number.toNat).toList)
      = some (tcp host number) := by
  have hcut := Text.Split.atLast?_append host.toList
    (notMem_toString (c := ':') (by decide) number.toNat)
  have hnumber : Text.Numeral.natural? 10 (UInt16.size - 1) (toString number.toNat).toList
      = some number.toNat :=
    Text.Numeral.natural?_toString (Nat.le_sub_one_of_lt number.toNat_lt)
  simp only [ofAddress?, hcut, hnumber, Option.bind_eq_bind, Option.bind_some]
  simp [h]

theorem isWritable_of_ofAddress? {address : List Char} {e : Endpoint}
    (h : ofAddress? address = some e) : e.IsWritable := by
  unfold ofAddress? at h
  simp only [Option.bind_eq_bind, Option.bind_eq_some_iff] at h
  obtain ⟨⟨host, digits⟩, -, n, -, h⟩ := h
  split at h
  · cases h
  · next hhost =>
    obtain rfl := Option.some.inj h
    simpa [IsWritable] using hhost

/-! ### Devices -/

/-- The number behind the last `@` is a baud rate. -/
theorem splitBaud?_written (path : List Char) (baud : UInt32) :
    splitBaud? (path ++ '@' :: (toString baud.toNat).toList) = some (path, some baud) := by
  have hcut := Text.Split.atLast?_append path
    (notMem_toString (c := '@') (by decide) baud.toNat)
  have hbaud : Text.Numeral.natural? 10 (UInt32.size - 1) (toString baud.toNat).toList
      = some baud.toNat :=
    Text.Numeral.natural?_toString (Nat.le_sub_one_of_lt baud.toNat_lt)
  simp only [splitBaud?, hcut, hbaud, Option.map_some, UInt32.ofNat_toNat]

theorem splitBaud?_of_notMem {device : List Char} (h : '@' ∉ device) :
    splitBaud? device = some (device, none) := by
  rw [splitBaud?, Text.Split.atLast?_eq_none_iff.mpr h]

/-- No `@` is left in a device for which no baud rate was found. -/
theorem notMem_of_splitBaud? {device path : List Char}
    (h : splitBaud? device = some (path, none)) : '@' ∉ path := by
  unfold splitBaud? at h
  split at h
  · next hnone =>
    cases h
    exact Text.Split.atLast?_eq_none_iff.mp hnone
  · simp at h

theorem ofDevice?_of_splitBaud? {device : List Char} {path : String} {baud : Option UInt32}
    (h : splitBaud? device = some (path.toList, baud)) (hpath : path ≠ "")
    (hmark : ¬"://".toList <:+: path.toList) : ofDevice? device = some (serial path baud) := by
  rw [← hasSchemeMark_iff] at hmark
  rw [ofDevice?, h]
  simp [hpath, hmark]

theorem isWritable_of_ofDevice? {device : List Char} {e : Endpoint}
    (h : ofDevice? device = some e) : e.IsWritable := by
  unfold ofDevice? at h
  simp only [Option.bind_eq_bind, Option.bind_eq_some_iff] at h
  obtain ⟨⟨path, baud⟩, hsplit, h⟩ := h
  split at h
  · cases h
  · next hpath =>
    obtain rfl := Option.some.inj h
    simp only [Bool.or_eq_true, not_or, hasSchemeMark_iff, List.isEmpty_iff] at hpath
    refine ⟨by simpa using hpath.1, by simpa using hpath.2, ?_⟩
    rintro rfl
    simpa using notMem_of_splitBaud? hsplit

/-! ### Endpoints -/

theorem ofChars?_tcp (address : List Char) :
    ofChars? ("tcp://".toList ++ address) = ofAddress? address := by
  have hscheme : tcpScheme.isPrefixOf? ("tcp://".toList ++ address) = some address :=
    List.isPrefixOf?_eq_some_iff_append_eq.mpr rfl
  rw [ofChars?, hscheme]

theorem ofChars?_serial (device : List Char) :
    ofChars? ("ser://".toList ++ device) = ofDevice? device := by
  have hnotTcp : tcpScheme.isPrefixOf? ("ser://".toList ++ device) = none := rfl
  have hscheme : serialScheme.isPrefixOf? ("ser://".toList ++ device) = some device :=
    List.isPrefixOf?_eq_some_iff_append_eq.mpr rfl
  rw [ofChars?, hnotTcp, hscheme]
  rfl

theorem parse_eq_ok_iff {text : String} {e : Endpoint} :
    parse text = .ok e ↔ ofChars? text.toList = some e := by
  unfold parse
  cases ofChars? text.toList <;> simp

/-- What is read can be written. -/
theorem isWritable_of_parse {text : String} {e : Endpoint} (h : parse text = .ok e) :
    e.IsWritable := by
  rw [parse_eq_ok_iff] at h
  unfold ofChars? at h
  split at h
  · exact isWritable_of_ofAddress? h
  · exact isWritable_of_ofDevice? h

/-- What can be written is read back. -/
theorem parse_toString {e : Endpoint} (h : e.IsWritable) : parse e.toString = .ok e := by
  rw [parse_eq_ok_iff]
  cases e with
  | tcp host number =>
    have htext : (Endpoint.toString (tcp host number)).toList
        = "tcp://".toList ++ (host.toList ++ ':' :: (toString number.toNat).toList) := by
      simp [Endpoint.toString]
    rw [htext, ofChars?_tcp, ofAddress?_written h]
  | serial path baud =>
    obtain ⟨hpath, hmark, hat⟩ := h
    cases baud with
    | none =>
      have htext : (Endpoint.toString (serial path none)).toList
          = "ser://".toList ++ path.toList := by
        simp [Endpoint.toString]
      rw [htext, ofChars?_serial,
        ofDevice?_of_splitBaud? (splitBaud?_of_notMem (hat rfl)) hpath hmark]
    | some baud =>
      have htext : (Endpoint.toString (serial path (some baud))).toList
          = "ser://".toList ++ (path.toList ++ '@' :: (toString baud.toNat).toList) := by
        simp [Endpoint.toString]
      rw [htext, ofChars?_serial,
        ofDevice?_of_splitBaud? (splitBaud?_written path.toList baud) hpath hmark]

/-- **An endpoint that was read is read back from its written form.** The endpoints that are read
back are those with a host, and those with a device that has a name without `://` and, if it has no
baud rate, without `@`. A text that names no endpoint is answered as it is. -/
theorem written_form_of_endpoints :
    (∀ text e, parse text = .ok e → parse e.toString = .ok e)
      ∧ (∀ e : Endpoint, parse e.toString = .ok e ↔ e.IsWritable)
      ∧ ∀ text error, parse text = .error error → error = ⟨text⟩ := by
  refine ⟨?_, ?_, ?_⟩
  · intro text e h
    exact parse_toString (isWritable_of_parse h)
  · intro e
    exact ⟨isWritable_of_parse, parse_toString⟩
  · intro text error h
    unfold parse at h
    split at h
    · cases h
    · exact (Except.error.inj h).symm

/-- Only the last `@` stands before a baud rate: `a@b@+05` is the device `a@b` at 5 baud. -/
theorem written_form_of_endpoints_twoMarks :
    parse "a@b@+05" = .ok (serial "a@b" (some 5))
      ∧ parse (Endpoint.toString (serial "a@b" (some 5))) = .ok (serial "a@b" (some 5)) := by
  have hread : parse "a@b@+05" = .ok (serial "a@b" (some 5)) := by decide
  exact ⟨hread, written_form_of_endpoints.1 _ _ hread⟩

end Endpoint
end GnssLink
