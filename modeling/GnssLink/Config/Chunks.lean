/-!
# GnssLink.Config.Chunks

**Lists in runs of equal length.** `chunksOf size l` cuts a list into runs of `size` elements, the
last of which may be shorter. Joined, the runs give the list back (`flatten_chunksOf`), and full
runs that are joined are found again (`chunksOf_flatten`).
-/

namespace GnssLink.Config

/-- The runs of `size` elements of a list; the size zero counts as one. -/
def chunksOf {α : Type} (size : Nat) (l : List α) : List (List α) :=
  match l with
  | [] => []
  | a :: rest => (a :: rest.take (size - 1)) :: chunksOf size (rest.drop (size - 1))
termination_by l.length
decreasing_by simp only [List.length_drop, List.length_cons]; omega

variable {α : Type} {size : Nat}

@[simp] theorem chunksOf_nil : chunksOf size ([] : List α) = [] := by
  rw [chunksOf]

theorem chunksOf_cons (a : α) (rest : List α) :
    chunksOf size (a :: rest)
      = (a :: rest.take (size - 1)) :: chunksOf size (rest.drop (size - 1)) := by
  rw [chunksOf]

/-- Nothing is lost and the order is kept. -/
@[simp] theorem flatten_chunksOf (l : List α) : (chunksOf size l).flatten = l := by
  fun_induction chunksOf size l with
  | case1 => rfl
  | case2 a rest ih => simp [ih]

/-- Every run holds an element and at most `size` of them. -/
theorem length_of_mem_chunksOf {l run : List α} (h : run ∈ chunksOf size l) :
    0 < run.length ∧ run.length ≤ max 1 size := by
  fun_induction chunksOf size l with
  | case1 => cases h
  | case2 a rest ih =>
    rcases List.mem_cons.mp h with rfl | h
    · simp only [List.length_cons, List.length_take]
      omega
    · exact ih h

theorem chunksOf_eq_nil_iff {l : List α} : chunksOf size l = [] ↔ l = [] := by
  cases l with
  | nil => simp
  | cons a rest => simp [chunksOf_cons]

/-- What fits into one run is not divided. -/
theorem length_chunksOf_le_one_iff {l : List α} :
    (chunksOf size l).length ≤ 1 ↔ l.length ≤ max 1 size := by
  cases l with
  | nil => simp
  | cons a rest =>
    have hrest : (chunksOf size (rest.drop (size - 1))).length = 0 ↔ rest.length ≤ size - 1 := by
      rw [List.length_eq_zero_iff, chunksOf_eq_nil_iff, List.drop_eq_nil_iff]
    rw [chunksOf_cons, List.length_cons, List.length_cons]
    omega

/-- The run at a place begins where all runs before it are full. -/
theorem getElem?_chunksOf (l : List α) (i : Nat) :
    (chunksOf size l)[i]?
      = if i * max 1 size < l.length then some ((l.drop (i * max 1 size)).take (max 1 size))
        else none := by
  have hsize : max 1 size = size - 1 + 1 := by omega
  induction i generalizing l with
  | zero =>
    cases l with
    | nil => simp
    | cons a rest => simp [chunksOf_cons, hsize]
  | succ i ih =>
    cases l with
    | nil => simp
    | cons a rest =>
      have hstart : (i + 1) * max 1 size = size - 1 + i * max 1 size + 1 := by
        rw [Nat.succ_mul]
        omega
      rw [chunksOf_cons, List.getElem?_cons_succ, ih, List.drop_drop, List.length_drop, hstart,
        List.drop_succ_cons, List.length_cons]
      by_cases hlt : i * max 1 size < rest.length - (size - 1)
      · rw [if_pos hlt, if_pos (by omega)]
      · rw [if_neg hlt, if_neg (by omega)]

theorem lt_length_chunksOf_iff {l : List α} {i : Nat} :
    i < (chunksOf size l).length ↔ i * max 1 size < l.length := by
  have hrun : (chunksOf size l)[i]? = _ := getElem?_chunksOf l i
  by_cases h : i * max 1 size < l.length
  · rw [if_pos h] at hrun
    exact iff_of_true (List.getElem?_eq_some_iff.mp hrun).1 h
  · rw [if_neg h] at hrun
    exact iff_of_false (Nat.not_lt.mpr (List.getElem?_eq_none_iff.mp hrun)) h

/-- The number of runs is that of full ones, rounded up. -/
theorem length_chunksOf (l : List α) :
    (chunksOf size l).length = (l.length + max 1 size - 1) / max 1 size := by
  have hpos : 0 < max 1 size := by omega
  have hall : l.length ≤ (chunksOf size l).length * max 1 size :=
    Nat.not_lt.mp (mt lt_length_chunksOf_iff.mpr (Nat.lt_irrefl _))
  symm
  rw [Nat.div_eq_iff hpos]
  cases hlength : (chunksOf size l).length with
  | zero =>
    rw [hlength] at hall
    omega
  | succ n =>
    have hlast : n * max 1 size < l.length := lt_length_chunksOf_iff.mp (by omega)
    rw [hlength] at hall
    rw [Nat.succ_mul] at hall ⊢
    omega

/-- A list that is a whole number of runs long has full runs only. -/
theorem length_of_mem_chunksOf_of_dvd {l run : List α} (hsize : 0 < size) (h : size ∣ l.length)
    (hrun : run ∈ chunksOf size l) : run.length = size := by
  obtain ⟨i, hi⟩ := List.mem_iff_getElem?.mp hrun
  obtain ⟨k, hk⟩ := h
  have hmax : max 1 size = size := by omega
  rw [getElem?_chunksOf, hmax] at hi
  split at hi
  · next hlt =>
    cases hi
    -- the run begins before the end, and so a whole run is left there
    have hlast : i + 1 ≤ k := by
      rw [hk, Nat.mul_comm] at hlt
      exact Nat.lt_of_mul_lt_mul_left hlt
    have hroom : i * size + size ≤ l.length := by
      rw [hk, ← Nat.succ_mul, Nat.mul_comm]
      exact Nat.mul_le_mul_left size hlast
    rw [List.length_take, List.length_drop]
    omega
  · cases hi

/-- Full runs that are joined are found again. -/
theorem chunksOf_flatten {runs : List (List α)} (hsize : 0 < size)
    (h : ∀ run ∈ runs, run.length = size) : chunksOf size runs.flatten = runs := by
  induction runs with
  | nil => simp
  | cons run rest ih =>
    obtain ⟨hrun, hrest⟩ := List.forall_mem_cons.mp h
    obtain ⟨a, tail, rfl⟩ := List.exists_cons_of_length_pos (hrun.symm ▸ hsize)
    have htail : tail.length = size - 1 := by
      rw [← hrun, List.length_cons, Nat.add_sub_cancel]
    rw [List.flatten_cons, List.cons_append, chunksOf_cons, List.take_left' htail,
      List.drop_left' htail, ih hrest]

end GnssLink.Config
