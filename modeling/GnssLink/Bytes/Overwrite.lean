/-!
# GnssLink.Bytes.Overwrite

**Writing over a part of a buffer**, byte by byte from a place on. The buffer keeps its length: what
would stand beyond its end is not written, and `overwrite?` has no result there.

A part that fits is all that changes (`overwrite_append`).
-/

namespace GnssLink

/-- Writes a part over a buffer from `start` on. -/
def overwrite (buffer : List UInt8) (start : Nat) : List UInt8 → List UInt8
  | [] => buffer
  | b :: part => overwrite (buffer.set start b) (start + 1) part

/-- Writes a part over a buffer that reaches as far as the part. -/
def overwrite? (buffer : List UInt8) (start : Nat) (part : List UInt8) : Option (List UInt8) :=
  if start + part.length ≤ buffer.length then some (overwrite buffer start part) else none

theorem overwrite_append (done part : List UInt8) {rest : List UInt8}
    (h : part.length ≤ rest.length) :
    overwrite (done ++ rest) done.length part = done ++ part ++ rest.drop part.length := by
  induction part generalizing done rest with
  | nil => simp [overwrite]
  | cons b part ih =>
    cases rest with
    | nil => simp at h
    | cons old rest =>
      have hset : (done ++ old :: rest).set done.length b = (done ++ [b]) ++ rest := by simp
      have hfits : part.length ≤ rest.length := by simpa using h
      have hmore := ih (done ++ [b]) hfits
      rw [List.length_append, List.length_singleton] at hmore
      rw [overwrite, hset, hmore]
      simp

theorem overwrite?_append (done part : List UInt8) {rest : List UInt8}
    (h : part.length ≤ rest.length) :
    overwrite? (done ++ rest) done.length part
      = some (done ++ part ++ rest.drop part.length) := by
  have hroom : done.length + part.length ≤ (done ++ rest).length := by
    rw [List.length_append]
    omega
  rw [overwrite?, if_pos hroom, overwrite_append done part h]

theorem overwrite_of_overwrite? {buffer part after : List UInt8} {start : Nat}
    (h : overwrite? buffer start part = some after) : overwrite buffer start part = after := by
  unfold overwrite? at h
  split at h
  · exact Option.some.inj h
  · cases h

end GnssLink
