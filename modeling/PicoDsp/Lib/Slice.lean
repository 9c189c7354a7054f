/-
Slices of a buffer and its division into chunks, as `no_std` code takes them.

`slice` is `&xs[lo..hi]`, which panics (`none`) when the range is not one of
the buffer; `chunks` is `xs.chunks(n)`. A chunk is determined by its number, and
a loop over the chunks is an induction on the list with `n` entries at a time
(`chunks_of_ne_nil`).

The last chunk may be shorter than the others, and code that treats it like them reads
past its end. So the division is by recursion and nothing is assumed about the length,
and a chunk is described both ways: by its place (`mem_chunks`) and by what the
chunks are together (`flatten_chunks`).
-/
import Mathlib.Data.List.Basic
import Mathlib.Algebra.Order.Group.Nat

set_option autoImplicit false

namespace PicoDsp.Lib

variable {α : Type}

/-! ## Ranges -/

/-- `&xs[lo..hi]` -/
def slice (xs : List α) (lo hi : ℕ) : Option (List α) :=
  if lo ≤ hi ∧ hi ≤ xs.length then some ((xs.take hi).drop lo) else none

/-- The range is one of the buffer. -/
theorem slice_of_le {xs : List α} {lo hi : ℕ} (h : lo ≤ hi) (hlen : hi ≤ xs.length) :
    slice xs lo hi = some ((xs.take hi).drop lo) := if_pos ⟨h, hlen⟩

/-- A slice has the length that was asked for. -/
theorem length_of_slice {xs ys : List α} {lo hi : ℕ} (h : slice xs lo hi = some ys) :
    ys.length = hi - lo := by
  unfold slice at h
  split at h
  · rename_i hrange
    cases h
    rw [List.length_drop, List.length_take]
    omega
  · cases h

/-- The range between two parts of a list. -/
theorem slice_append (as bs cs : List α) :
    slice (as ++ (bs ++ cs)) as.length (as.length + bs.length) = some bs := by
  have hlen : as.length + bs.length ≤ (as ++ (bs ++ cs)).length := by
    simp only [List.length_append]
    omega
  rw [slice_of_le (Nat.le_add_right _ _) hlen, List.take_length_add_append, List.take_left',
    List.drop_left]
  rfl

/-! ## Chunks -/

/-- `xs.chunks(n)`: pieces of `n` entries, and the rest as a shorter one. -/
def chunks (n : ℕ) (xs : List α) : List (List α) :=
  (List.range ((xs.length + n - 1) / n)).map fun k => (xs.drop (k * n)).take n

/-- A chunk, by its number. -/
theorem mem_chunks {n : ℕ} (hn : 0 < n) {xs c : List α} :
    c ∈ chunks n xs ↔ ∃ k, k * n < xs.length ∧ c = (xs.drop (k * n)).take n := by
  have hcount : ∀ k, k < (xs.length + n - 1) / n ↔ k * n < xs.length := by
    intro k
    rw [Nat.lt_div_iff_mul_lt hn]
    constructor
    · intro h
      omega
    · intro h
      omega
  unfold chunks
  simp only [List.mem_map, List.mem_range, hcount]
  constructor
  · rintro ⟨k, hk, rfl⟩
    exact ⟨k, hk, rfl⟩
  · rintro ⟨k, hk, rfl⟩
    exact ⟨k, hk, rfl⟩

@[simp] theorem chunks_nil (n : ℕ) : chunks n ([] : List α) = [] := by
  have hcount : (n - 1) / n = 0 := by
    rcases Nat.eq_zero_or_pos n with rfl | hn
    · rfl
    · exact Nat.div_eq_of_lt (by omega)
  rw [chunks, List.length_nil, Nat.zero_add, hcount]
  rfl

/-- The first chunk, and the chunks of what follows it. -/
theorem chunks_of_ne_nil {n : ℕ} (hn : 0 < n) {xs : List α} (hxs : xs ≠ []) :
    chunks n xs = xs.take n :: chunks n (xs.drop n) := by
  have hpos : 0 < xs.length := List.length_pos_iff.mpr hxs
  have hcount : (xs.length + n - 1) / n = ((xs.drop n).length + n - 1) / n + 1 := by
    rw [List.length_drop, ← Nat.add_div_right _ hn]
    rcases Nat.le_total n xs.length with h | h
    · congr 1
      omega
    · rw [Nat.sub_eq_zero_of_le h, Nat.zero_add]
      have hlow : (xs.length + n - 1) / n = 1 := Nat.div_eq_of_lt_le (by omega) (by omega)
      have hhigh : (n - 1 + n) / n = 1 := Nat.div_eq_of_lt_le (by omega) (by omega)
      rw [hlow, hhigh]
  unfold chunks
  rw [hcount, List.range_succ_eq_map, List.map_cons, List.map_map, Nat.zero_mul, List.drop_zero]
  congr 1
  apply List.map_congr_left
  intro k _
  rw [Function.comp_apply, List.drop_drop, Nat.succ_mul, Nat.add_comm]

/-- The chunks one after the other are the buffer. -/
theorem flatten_chunks {n : ℕ} (hn : 0 < n) (xs : List α) : (chunks n xs).flatten = xs := by
  induction hlen : xs.length using Nat.strong_induction_on generalizing xs with
  | _ len ih =>
      rcases eq_or_ne xs [] with rfl | hxs
      · rw [chunks_nil, List.flatten_nil]
      · have hpos : 0 < xs.length := List.length_pos_iff.mpr hxs
        have hshort : (xs.drop n).length < len := by
          rw [List.length_drop]
          omega
        rw [chunks_of_ne_nil hn hxs, List.flatten_cons, ih _ hshort _ rfl, List.take_append_drop]

/-- The number of chunks depends on the length alone. -/
theorem map_const_chunks {β : Type} (n : ℕ) {xs ys : List α} (h : xs.length = ys.length) (b : β) :
    (chunks n xs).map (fun _ => b) = (chunks n ys).map fun _ => b := by
  unfold chunks
  rw [h, List.map_map, List.map_map]
  rfl

example : chunks 3 [1, 2, 3, 4, 5, 6, 7] = [[1, 2, 3], [4, 5, 6], [7]] := by decide

end PicoDsp.Lib
