/-!
# GnssLink.Text.Split

**Cutting text** at a character, at its last place (`atLast?`) or at every place (`pieces`), or at
an offset (`at?`).
-/

namespace GnssLink.Text.Split

/-- What stands before and after the last `mark`. -/
def atLast? (mark : Char) : List Char → Option (List Char × List Char)
  | [] => none
  | c :: rest =>
    match atLast? mark rest with
    | some (before, after) => some (c :: before, after)
    | none => if c = mark then some ([], rest) else none

/-- There is no place to cut exactly when the mark does not occur. -/
theorem atLast?_eq_none_iff {mark : Char} {text : List Char} :
    atLast? mark text = none ↔ mark ∉ text := by
  induction text with
  | nil => simp [atLast?]
  | cons c rest ih =>
    unfold atLast?
    cases h : atLast? mark rest with
    | some p => simp_all
    | none =>
      by_cases hc : c = mark
      · simp [hc]
      · simp_all [eq_comm]

/-- The pieces between the places where `mark` stands, one more than there are such places. -/
def pieces (mark : Char) : List Char → List (List Char)
  | [] => [[]]
  | c :: rest =>
    if c = mark then [] :: pieces mark rest
    else
      match pieces mark rest with
      | [] => [[c]]
      | piece :: more => (c :: piece) :: more

example : pieces '|' "a||b".toList = ["a".toList, [], "b".toList] := by decide

/-! ### Offsets -/

/-- How many bytes text has in UTF-8. -/
def size (text : List Char) : Nat := text.foldr (fun c bytes => c.utf8Size + bytes) 0

theorem size_cons (c : Char) (rest : List Char) : size (c :: rest) = c.utf8Size + size rest := rfl

/-- Cuts text at an offset in its bytes, if a character starts there or the text ends there. -/
def at? : Nat → List Char → Option (List Char × List Char)
  | 0, text => some ([], text)
  | _ + 1, [] => none
  | offset + 1, c :: rest =>
    if c.utf8Size ≤ offset + 1 then
      (at? (offset + 1 - c.utf8Size) rest).map fun (before, after) => (c :: before, after)
    else none

/-- The offset of a character is one. -/
theorem at?_size (before after : List Char) :
    at? (size before) (before ++ after) = some (before, after) := by
  induction before with
  | nil => rw [List.nil_append, at?.eq_def]; rfl
  | cons c rest ih =>
    have hpos := c.utf8Size_pos
    obtain ⟨offset, hoffset⟩ : ∃ offset, size (c :: rest) = offset + 1 :=
      Nat.exists_eq_succ_of_ne_zero (by rw [size_cons]; omega)
    have hrest : offset + 1 - c.utf8Size = size rest := by
      rw [← hoffset, size_cons, Nat.add_sub_cancel_left]
    have hle : c.utf8Size ≤ offset + 1 := by
      rw [← hoffset, size_cons]
      exact Nat.le_add_right _ _
    rw [hoffset, List.cons_append, at?, if_pos hle, hrest, ih]
    rfl

end GnssLink.Text.Split
