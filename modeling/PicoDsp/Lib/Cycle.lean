/-
A switch that steps around a cycle.

`falls` counts how often a stream of switch positions goes from on to off, and `walk`
lists the positions that are reached from `s` by steps of one modulo `n`. Any `n` of
these in a row are the numbers below `n`, each once (`walk_window`).

A button is used that way when its release selects the next of `n` things. The stream may
repeat a position any number of times, as a controller does that is sampled, and only
the falls count; the position held before the stream began stands in front of it. The
walk begins behind `s`, and where it begins makes no difference to a window of `n`: the
remainders of `n` numbers in a row are all remainders (`mods_perm`).
-/
import Mathlib.Data.List.Range
import Mathlib.Data.List.Nodup
import Mathlib.Data.List.Perm.Subperm
import Mathlib.Data.Nat.ModEq

set_option autoImplicit false

namespace PicoDsp.Lib

/-- The number of times that a position which is on is followed by one which is off. -/
def falls (bs : List Bool) : ℕ := (bs.zip bs.tail).countP fun p => p.1 && !p.2

/-- One position more, in front. -/
theorem falls_cons_cons (a b : Bool) (bs : List Bool) :
    falls (a :: b :: bs) = falls (b :: bs) + if a && !b then 1 else 0 :=
  List.countP_cons

/-- The `k` positions behind `s`, modulo `n`. -/
def walk (n s k : ℕ) : List ℕ := (List.range k).map fun j => (s + 1 + j) % n

@[simp] theorem walk_length (n s k : ℕ) : (walk n s k).length = k := by
  rw [walk, List.length_map, List.length_range]

/-- The first step, and the walk from there. -/
theorem walk_succ (n s k : ℕ) : walk n s (k + 1) = (s + 1) % n :: walk n ((s + 1) % n) k := by
  unfold walk
  rw [List.range_succ_eq_map, List.map_cons, List.map_map]
  congr 1
  apply List.map_congr_left
  intro j _
  show (s + 1 + (j + 1)) % n = ((s + 1) % n + 1 + j) % n
  rw [Nat.add_assoc ((s + 1) % n), Nat.mod_add_mod, Nat.add_comm j 1]

/-- `n` positions in a row are all different. -/
theorem mods_nodup (n c : ℕ) : ((List.range n).map fun j => (c + j) % n).Nodup := by
  apply List.Nodup.map_on ?_ List.nodup_range
  intro i hi j hj hij
  have hmod : i ≡ j [MOD n] := Nat.ModEq.add_left_cancel' c hij
  exact hmod.eq_of_lt_of_lt (List.mem_range.mp hi) (List.mem_range.mp hj)

/-- The remainders of `n` numbers in a row are all there are, in some order. -/
theorem mods_perm (n c : ℕ) : ((List.range n).map fun j => (c + j) % n).Perm (List.range n) := by
  have hsub : ((List.range n).map fun j => (c + j) % n) ⊆ List.range n := by
    intro x hx
    obtain ⟨j, hj, rfl⟩ := List.mem_map.mp hx
    have hpos : 0 < n := Nat.zero_lt_of_lt (List.mem_range.mp hj)
    exact List.mem_range.mpr (Nat.mod_lt _ hpos)
  apply (List.subperm_of_subset (mods_nodup n c) hsub).perm_of_length_le
  rw [List.length_map]

/-- Any `n` positions in a row are the numbers below `n`. -/
theorem walk_window {n s k : ℕ} {pre w post : List ℕ} (h : walk n s k = pre ++ w ++ post)
    (hw : w.length = n) : w.Perm (List.range n) := by
  have heq : w = (List.range n).map fun j => (s + 1 + pre.length + j) % n := by
    apply List.ext_getElem (by rw [List.length_map, List.length_range, hw])
    intro j hj hj'
    have hlen : pre.length + j < (walk n s k).length := by
      rw [h, List.length_append, List.length_append]
      omega
    have hget : (walk n s k)[pre.length + j] = w[j] := by
      simp only [h]
      rw [List.getElem_append_left (by rw [List.length_append]; omega),
        List.getElem_append_right (Nat.le_add_right _ _)]
      simp only [Nat.add_sub_cancel_left]
    rw [← hget, List.getElem_map, List.getElem_range]
    simp only [walk, List.getElem_map, List.getElem_range, Nat.add_assoc]
  rw [heq]
  exact mods_perm n _

end PicoDsp.Lib
