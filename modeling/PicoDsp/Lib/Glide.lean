/-
A value that glides to a target: a part of the way at each step, and all of it
once the target is near.

A step multiplies the distance by the part that is left, so that the value
approaches from one side, and a distance below the threshold is closed at once.
Together this gives an arrival after a number of steps that the first distance
and the smallest part bound (`glide_arrives`).

The factor may differ from step to step, since a player can turn the knob that it is
computed from while the glide goes on. All that is asked of the factors is that each
takes at least some part of the way and none goes past the target (`Bounded`); the distance
then goes down geometrically until it is closed (`glide_distance`).

How many steps that takes is said without logarithms: Bernoulli's inequality bounds a power
of the part that is left from above by a fraction (`pow_mul_le`), and so names a
number of steps that is enough (`pow_mul_lt`). The number is larger than necessary, and
it is explicit.

`approach_eq_iff` is about two values on the way to one target. One step brings
them together exactly if they are one already, if both are near, or if the step goes all
of the way; from a distance a glide never lets two values meet.
-/
import Mathlib.Algebra.Order.Floor.Semiring
import Mathlib.Algebra.Order.Field.Basic
import Mathlib.Algebra.Order.Ring.Pow
import Mathlib.Data.List.Induction
import Mathlib.Tactic.Linarith
import Mathlib.Tactic.LinearCombination
import Mathlib.Tactic.Ring

set_option autoImplicit false

namespace PicoDsp.Lib

variable {K : Type} [Field K] [LinearOrder K] [IsStrictOrderedRing K]

/-- `x.clamp(lo, hi)` -/
def clamp {K : Type} [LinearOrder K] (x lo hi : K) : K :=
  if x < lo then lo else if hi < x then hi else x

/-- What is clamped lies between the bounds. -/
theorem clamp_bounds {K : Type} [LinearOrder K] {x lo hi : K} (h : lo ≤ hi) :
    lo ≤ clamp x lo hi ∧ clamp x lo hi ≤ hi := by
  unfold clamp
  split
  · exact ⟨le_refl lo, h⟩
  · rename_i hlow
    split
    · exact ⟨h, le_refl hi⟩
    · rename_i hhigh
      exact ⟨not_lt.mp hlow, not_lt.mp hhigh⟩

/-- A value is clamped to the lower bound exactly from there down. -/
theorem clamp_eq_low_iff {K : Type} [LinearOrder K] {x lo hi : K} (h : lo < hi) :
    clamp x lo hi = lo ↔ x ≤ lo := by
  unfold clamp
  split
  · rename_i hlow
    exact iff_of_true rfl hlow.le
  · split
    · rename_i hhigh
      exact iff_of_false h.ne' (not_le.mpr (h.trans hhigh))
    · rename_i hlow hhigh
      constructor
      · intro heq
        exact heq.le
      · intro hle
        exact le_antisymm hle (not_lt.mp hlow)

namespace Glide

/-- One step: the part `factor` of the way, or all of it from within `snap`. -/
def approach (snap factor target cur : K) : K :=
  if |target - cur| < snap then target else cur + (target - cur) * factor

variable {snap factor target cur : K}

omit [IsStrictOrderedRing K] in
/-- From near the step goes all of the way. -/
theorem approach_near (h : |target - cur| < snap) : approach snap factor target cur = target :=
  if_pos h

omit [IsStrictOrderedRing K] in
/-- From afar the part `1 - factor` of the way is left. -/
theorem approach_far (h : snap ≤ |target - cur|) :
    target - approach snap factor target cur = (1 - factor) * (target - cur) := by
  rw [approach, if_neg (not_lt.mpr h)]
  ring

/-- A step from afar leaves the part `1 - factor` of the distance. -/
theorem abs_sub_approach (hfactor : factor ≤ 1) (h : snap ≤ |target - cur|) :
    |target - approach snap factor target cur| = (1 - factor) * |target - cur| := by
  rw [approach_far h, abs_mul, abs_of_nonneg (sub_nonneg.mpr hfactor)]

/-- The distance does not grow. -/
theorem abs_sub_approach_le (hpos : 0 ≤ factor) (hfactor : factor ≤ 1) :
    |target - approach snap factor target cur| ≤ |target - cur| := by
  rcases lt_or_ge |target - cur| snap with hnear | hfar
  · rw [approach_near hnear, sub_self, abs_zero]
    exact abs_nonneg _
  · rw [abs_sub_approach hfactor hfar]
    have hnonneg : 0 ≤ |target - cur| := abs_nonneg _
    nlinarith only [hpos, hnonneg]

/-- The target is not crossed. -/
theorem approach_same_side (hfactor : factor ≤ 1) :
    0 ≤ (target - cur) * (target - approach snap factor target cur) := by
  rcases lt_or_ge |target - cur| snap with hnear | hfar
  · rw [approach_near hnear, sub_self, mul_zero]
  · rw [approach_far hfar]
    have hleft : 0 ≤ 1 - factor := sub_nonneg.mpr hfactor
    have hsquare : 0 ≤ (target - cur) * (target - cur) := mul_self_nonneg _
    nlinarith only [mul_nonneg hleft hsquare]

/-- A target that is reached is kept. -/
theorem approach_target (hsnap : 0 < snap) : approach snap factor target target = target := by
  apply approach_near
  rw [sub_self, abs_zero]
  exact hsnap

/-- Two values meet in one step exactly if they are one, if both are near, or if
the step goes all of the way. -/
theorem approach_eq_iff {cur' : K} (hsnap : 0 < snap) :
    approach snap factor target cur = approach snap factor target cur'
      ↔ factor = 1 ∨ cur = cur' ∨ (|target - cur| < snap ∧ |target - cur'| < snap) := by
  have hfull : ∀ c, factor = 1 → approach snap factor target c = target := by
    rintro c rfl
    unfold approach
    split
    · rfl
    · ring
  -- a near value goes to the target, a far one only if the step goes all of the way
  have hmixed : ∀ c, snap ≤ |target - c| → approach snap factor target c = target → factor = 1 := by
    intro c hfar heq
    have hzero : target - approach snap factor target c = (1 - factor) * (target - c) :=
      approach_far hfar
    rw [heq, sub_self] at hzero
    have hne : target - c ≠ 0 := by
      intro hc
      rw [hc, abs_zero] at hfar
      exact absurd hfar (not_le.mpr hsnap)
    have hfactor := (mul_eq_zero.mp hzero.symm).resolve_right hne
    linarith only [hfactor]
  constructor
  · intro heq
    rcases lt_or_ge |target - cur| snap with hnear | hfar
    · rcases lt_or_ge |target - cur'| snap with hnear' | hfar'
      · exact Or.inr (Or.inr ⟨hnear, hnear'⟩)
      · rw [approach_near hnear] at heq
        exact Or.inl (hmixed cur' hfar' heq.symm)
    · rcases lt_or_ge |target - cur'| snap with hnear' | hfar'
      · rw [approach_near hnear'] at heq
        exact Or.inl (hmixed cur hfar heq)
      · have h : target - approach snap factor target cur = (1 - factor) * (target - cur) :=
          approach_far hfar
        rw [heq, approach_far hfar'] at h
        have hprod : (1 - factor) * (cur - cur') = 0 := by linear_combination h
        rcases mul_eq_zero.mp hprod with hone | hsame
        · exact Or.inl (by linarith only [hone])
        · exact Or.inr (Or.inl (sub_eq_zero.mp hsame))
  · rintro (hone | rfl | ⟨hnear, hnear'⟩)
    · rw [hfull cur hone, hfull cur' hone]
    · rfl
    · rw [approach_near hnear, approach_near hnear']

/-! ## Many steps -/

/-- Steps with the given factors. -/
def glide (snap target : K) (factors : List K) (cur : K) : K :=
  factors.foldl (fun c factor => approach snap factor target c) cur

omit [IsStrictOrderedRing K] in
/-- More steps. -/
theorem glide_append (fs gs : List K) (c : K) :
    glide snap target (fs ++ gs) c = glide snap target gs (glide snap target fs c) :=
  List.foldl_append

omit [IsStrictOrderedRing K] in
/-- One step more, at the end. -/
theorem glide_snoc (fs : List K) (f c : K) :
    glide snap target (fs ++ [f]) c = approach snap f target (glide snap target fs c) := by
  rw [glide_append]
  rfl

/-- Each step takes at least the part `1 - rest` of the way, and none too much. -/
def Bounded (rest : K) (factors : List K) : Prop := ∀ f ∈ factors, 1 - rest ≤ f ∧ f ≤ 1

/-- The distance goes down geometrically until the target is reached. -/
theorem glide_distance {rest : K} {fs : List K} (hsnap : 0 < snap) (hrest : 0 ≤ rest)
    (h : Bounded rest fs) (c : K) :
    glide snap target fs c = target
      ∨ |target - glide snap target fs c| ≤ rest ^ fs.length * |target - c| := by
  induction fs using List.reverseRecOn with
  | nil =>
      right
      rw [List.length_nil, pow_zero, one_mul]
      rfl
  | append_singleton fs f ih =>
      obtain ⟨hlow, hhigh⟩ := h f (List.mem_append_right _ (List.mem_singleton_self f))
      rw [glide_snoc]
      rcases ih fun g hg => h g (List.mem_append_left _ hg) with heq | hle
      · left
        rw [heq, approach_target hsnap]
      · -- near the target a step lands on it, and elsewhere it takes its part of the way
        rcases lt_or_ge |target - glide snap target fs c| snap with hnear | hfar
        · exact Or.inl (approach_near hnear)
        · right
          have hpart : 1 - f ≤ rest := by linarith only [hlow]
          have hnonneg : 0 ≤ |target - glide snap target fs c| := abs_nonneg _
          rw [abs_sub_approach hhigh hfar, List.length_append, List.length_singleton, pow_succ]
          calc (1 - f) * |target - glide snap target fs c|
              ≤ rest * |target - glide snap target fs c| :=
                mul_le_mul_of_nonneg_right hpart hnonneg
            _ ≤ rest * (rest ^ fs.length * |target - c|) := mul_le_mul_of_nonneg_left hle hrest
            _ = rest ^ fs.length * rest * |target - c| := by ring

/-- **Arrival.** Once the bound is below the threshold, one more step is enough. -/
theorem glide_arrives {rest : K} {fs : List K} {c : K} {n : ℕ} (hsnap : 0 < snap)
    (hrest : 0 ≤ rest) (hone : rest ≤ 1) (h : Bounded rest fs)
    (hn : rest ^ n * |target - c| < snap) (hlen : n < fs.length) :
    glide snap target fs c = target := by
  have hsplit : fs = fs.dropLast ++ [fs.getLast (List.ne_nil_of_length_pos (by omega))] :=
    (List.dropLast_concat_getLast _).symm
  have hshort : n ≤ fs.dropLast.length := by
    rw [List.length_dropLast]
    omega
  rw [hsplit, glide_snoc]
  rcases glide_distance hsnap hrest (fun f hf => h f (List.dropLast_subset _ hf)) c
    with heq | hle
  · rw [heq, approach_target hsnap]
  · apply approach_near
    have hpow : rest ^ fs.dropLast.length ≤ rest ^ n := pow_le_pow_of_le_one hrest hone hshort
    exact (hle.trans (mul_le_mul_of_nonneg_right hpow (abs_nonneg _))).trans_lt hn

/-- Bernoulli's inequality for a part below one. -/
theorem pow_mul_le {rest : K} (hrest : 0 < rest) (n : ℕ) :
    rest ^ n * (rest + n * (1 - rest)) ≤ rest := by
  have hlow : (-2 : K) ≤ rest⁻¹ - 1 := by
    have hinv : 0 < rest⁻¹ := inv_pos.mpr hrest
    linarith only [hinv]
  have hbernoulli := one_add_mul_le_pow hlow n
  rw [add_sub_cancel, inv_pow] at hbernoulli
  have hpow : 0 < rest ^ n := pow_pos hrest n
  have hmul := mul_le_mul_of_nonneg_left hbernoulli (mul_pos hrest hpow).le
  calc rest ^ n * (rest + n * (1 - rest))
      = rest * rest ^ n * (1 + n * (rest⁻¹ - 1)) := by
        have hinv : rest * rest⁻¹ = 1 := mul_inv_cancel₀ hrest.ne'
        linear_combination -(rest ^ n * n) * hinv
    _ ≤ rest * rest ^ n * (rest ^ n)⁻¹ := hmul
    _ = rest := by rw [mul_assoc, mul_inv_cancel₀ hpow.ne', mul_one]

/-- A number of steps that closes the distance `d`, in the sense of
`glide_arrives`. -/
theorem pow_mul_lt {rest d : K} {n : ℕ} (hrest : 0 < rest) (hsnap : 0 < snap)
    (hn : rest * d < snap * (rest + n * (1 - rest))) : rest ^ n * d < snap := by
  have hpow : 0 < rest ^ n := pow_pos hrest n
  have hle := mul_le_mul_of_nonneg_left (pow_mul_le hrest n) hsnap.le
  have hlt := mul_lt_mul_of_pos_left hn hpow
  apply lt_of_mul_lt_mul_left _ hrest.le
  calc rest * (rest ^ n * d)
      = rest ^ n * (rest * d) := by ring
    _ < rest ^ n * (snap * (rest + n * (1 - rest))) := hlt
    _ = snap * (rest ^ n * (rest + n * (1 - rest))) := by ring
    _ ≤ snap * rest := hle
    _ = rest * snap := mul_comm _ _

end Glide

end PicoDsp.Lib
