/-
The longest run of places that pass.

One pass over the places keeps the run that ends here and the best one so far; a longer
run replaces the best one, an equally long one does not. So what is left at the end
belongs to the first of the longest runs (`scan_longest`). What is kept of the best run
is any function `pick` of its start and its length.

This is how a window of good settings is found by trial: every setting is tested in
order, and the middle of the longest stretch that passes is the safest choice. Which of
several equally long stretches is taken should not be left to chance, so the
statement names it.

`Knows` is the invariant at place `n`: the run that ends here is as long as it can be, and
the best one is a first longest one among the places so far. A place that passes makes the
run longer and may make it the best one (`Knows.better`, `Knows.not_better`); a place that
fails ends the run, and every run among the places is then one of those before
(`Knows.fail`). With nothing that passes the length is zero and the initial choice is
kept (`scan_eq_zero_iff`).
-/
import Mathlib.Data.List.Range

set_option autoImplicit false

namespace PicoDsp.Lib.LongestRun

variable {β : Type}

/-- The `len` places from `start` on pass. -/
def Passes (pass : ℕ → Bool) (start len : ℕ) : Prop :=
  ∀ i, start ≤ i → i < start + len → pass i = true

/-- Among the first `n` places the run is a longest one, and the first of these. -/
structure FirstLongest (pass : ℕ → Bool) (n start len : ℕ) : Prop where
  inside : start + len ≤ n
  passes : Passes pass start len
  longest : ∀ s l, s + l ≤ n → Passes pass s l → l ≤ len
  first : ∀ s, 0 < len → s + len ≤ n → Passes pass s len → start ≤ s

/-- The run that ends here, and the best one. -/
structure Scan (β : Type) where
  run_start : ℕ
  run_len : ℕ
  best_len : ℕ
  best : β

/-- One place. -/
def step (pick : ℕ → ℕ → β) (pass : ℕ → Bool) (s : Scan β) (i : ℕ) : Scan β :=
  if pass i then
    let run_start := if s.run_len = 0 then i else s.run_start
    let run_len := s.run_len + 1
    if s.best_len < run_len then ⟨run_start, run_len, run_len, pick run_start run_len⟩
    else ⟨run_start, run_len, s.best_len, s.best⟩
  else { s with run_len := 0 }

/-- The first `n` places. -/
def scan (pick : ℕ → ℕ → β) (pass : ℕ → Bool) (n : ℕ) (best : β) : Scan β :=
  (List.range n).foldl (step pick pass) ⟨0, 0, 0, best⟩

/-- What the pass knows at place `n`. -/
structure Knows (pick : ℕ → ℕ → β) (pass : ℕ → Bool) (n : ℕ) (s : Scan β) : Prop where
  run_le : s.run_len ≤ n
  run_passes : Passes pass (n - s.run_len) s.run_len
  run_maximal : s.run_len < n → pass (n - s.run_len - 1) = false
  run_start : 0 < s.run_len → s.run_start = n - s.run_len
  run_best : s.run_len ≤ s.best_len
  best : ∃ start, FirstLongest pass n start s.best_len
    ∧ (0 < s.best_len → s.best = pick start s.best_len)

variable {pick : ℕ → ℕ → β} {pass : ℕ → Bool} {n : ℕ} {s : Scan β}

/-- A run that ends with the last place is a part of the run that is kept. -/
theorem Knows.le_run (h : Knows pick pass n s) {start len : ℕ} (hend : start + len = n + 1)
    (hpass : Passes pass start len) : len ≤ s.run_len + 1 := by
  by_contra hlong
  have hlen := h.run_le
  have hfail := h.run_maximal (by omega)
  have htrue := hpass (n - s.run_len - 1) (by omega) (by omega)
  rw [htrue] at hfail
  cases hfail

/-- A place that passes makes the run longer. -/
theorem Knows.run_pass (h : Knows pick pass n s) (hn : pass n = true) :
    Passes pass (n - s.run_len) (s.run_len + 1) := by
  intro i hi hlt
  have hlen := h.run_le
  rcases Nat.lt_or_ge i n with hbefore | hhere
  · exact h.run_passes i hi (by omega)
  · have hi : i = n := by omega
    rw [hi]
    exact hn

/-- The run is the new best one. -/
theorem Knows.better (h : Knows pick pass n s) (hn : pass n = true)
    (hbetter : s.best_len < s.run_len + 1) :
    FirstLongest pass (n + 1) (n - s.run_len) (s.run_len + 1) := by
  obtain ⟨start, hbest, -⟩ := h.best
  have hlen := h.run_le
  refine ⟨by omega, h.run_pass hn, ?_, ?_⟩
  · intro a l hin hpass
    rcases Nat.lt_or_ge n (a + l) with hlast | hbefore
    · exact h.le_run (by omega) hpass
    · have hold := hbest.longest a l hbefore hpass
      omega
  · intro a _ hin hpass
    rcases Nat.lt_or_ge n (a + (s.run_len + 1)) with hlast | hbefore
    · omega
    · have hold := hbest.longest a _ hbefore hpass
      omega

/-- The best run stays. -/
theorem Knows.not_better (h : Knows pick pass n s) (hother : s.run_len + 1 ≤ s.best_len)
    {start : ℕ} (hbest : FirstLongest pass n start s.best_len) :
    FirstLongest pass (n + 1) start s.best_len := by
  have hin := hbest.inside
  refine ⟨by omega, hbest.passes, ?_, ?_⟩
  · intro a l hin hpass
    rcases Nat.lt_or_ge n (a + l) with hlast | hbefore
    · exact (h.le_run (by omega) hpass).trans hother
    · exact hbest.longest a l hbefore hpass
  · intro a hpos hin hpass
    rcases Nat.lt_or_ge n (a + s.best_len) with hlast | hbefore
    · omega
    · exact hbest.first a hpos hbefore hpass

/-- A place that fails ends the run. -/
theorem Knows.fail (hn : pass n = false) {start len : ℕ} (hbest : FirstLongest pass n start len) :
    FirstLongest pass (n + 1) start len := by
  have hin := hbest.inside
  have hout : ∀ a l, n < a + l → a + l ≤ n + 1 → 0 < l → ¬ Passes pass a l := by
    intro a l hlast hle hpos hpass
    have htrue := hpass n (by omega) (by omega)
    rw [hn] at htrue
    cases htrue
  refine ⟨by omega, hbest.passes, ?_, ?_⟩
  · intro a l hle hpass
    rcases Nat.eq_zero_or_pos l with rfl | hpos
    · exact Nat.zero_le len
    · rcases Nat.lt_or_ge n (a + l) with hlast | hbefore
      · exact absurd hpass (hout a l hlast hle hpos)
      · exact hbest.longest a l hbefore hpass
  · intro a hpos hle hpass
    rcases Nat.lt_or_ge n (a + len) with hlast | hbefore
    · exact absurd hpass (hout a len hlast hle hpos)
    · exact hbest.first a hpos hbefore hpass

/-- Before the first place. -/
theorem knows_zero (best : β) : Knows pick pass 0 ⟨0, 0, 0, best⟩ := by
  refine ⟨Nat.le_refl 0, ?_, fun h => ?_, fun h => ?_, Nat.le_refl 0, 0, ⟨Nat.le_refl 0, ?_, ?_, ?_⟩,
    fun h => ?_⟩
  · intro i _ hlt
    exact absurd hlt (Nat.not_lt_zero i)
  · exact absurd h (Nat.lt_irrefl 0)
  · exact absurd h (Nat.lt_irrefl 0)
  · intro i _ hlt
    exact absurd hlt (Nat.not_lt_zero i)
  · intro a l hle _
    omega
  · intro a hpos
    exact absurd hpos (Nat.lt_irrefl 0)
  · exact absurd h (Nat.lt_irrefl 0)

/-- **The step lemma.** -/
theorem Knows.step (h : Knows pick pass n s) :
    Knows pick pass (n + 1) (LongestRun.step pick pass s n) := by
  have hlen := h.run_le
  obtain ⟨start, hbest, hpick⟩ := h.best
  unfold LongestRun.step
  cases hn : pass n with
  -- the run is over, and the best one stays
  | false =>
      refine ⟨Nat.zero_le _, ?_, ?_, fun h => absurd h (Nat.lt_irrefl 0), Nat.zero_le _,
        start, Knows.fail hn hbest, hpick⟩
      · intro i hi hlt
        exact absurd hi (Nat.not_le.mpr hlt)
      · intro _
        exact hn
  | true =>
      -- the run goes on, and is compared with the best one
      have hrun := h.run_pass hn
      have hfirst : (if s.run_len = 0 then n else s.run_start) = n - s.run_len := by
        split
        · rename_i hzero
          rw [hzero, Nat.sub_zero]
        · rename_i hsome
          exact h.run_start (Nat.pos_of_ne_zero hsome)
      have hplace : n + 1 - (s.run_len + 1) = n - s.run_len := by omega
      -- it begins where it began, so in front of it there is still a failure
      have hmaximal : s.run_len + 1 < n + 1 → pass (n + 1 - (s.run_len + 1) - 1) = false := by
        intro hlt
        rw [hplace]
        exact h.run_maximal (by omega)
      simp only [if_true, hfirst]
      split
      · rename_i hbetter
        refine ⟨Nat.succ_le_succ hlen, ?_, hmaximal, fun _ => hplace.symm, Nat.le_refl _,
          n - s.run_len, h.better hn hbetter, fun _ => rfl⟩
        rw [hplace]
        exact hrun
      · rename_i hworse
        refine ⟨Nat.succ_le_succ hlen, ?_, hmaximal, fun _ => hplace.symm, Nat.le_of_not_lt hworse,
          start, h.not_better (Nat.le_of_not_lt hworse) hbest, hpick⟩
        rw [hplace]
        exact hrun

/-- What the pass knows in the end. -/
theorem knows_scan (pick : ℕ → ℕ → β) (pass : ℕ → Bool) (n : ℕ) (best : β) :
    Knows pick pass n (scan pick pass n best) := by
  induction n with
  | zero => exact knows_zero best
  | succ n ih =>
      rw [scan, List.range_succ, List.foldl_append]
      exact ih.step

/-- **The pass finds the first of the longest runs.** -/
theorem scan_longest (pick : ℕ → ℕ → β) (pass : ℕ → Bool) (n : ℕ) (best : β) :
    ∃ start, FirstLongest pass n start (scan pick pass n best).best_len
      ∧ (0 < (scan pick pass n best).best_len →
        (scan pick pass n best).best = pick start (scan pick pass n best).best_len) :=
  (knows_scan pick pass n best).best

/-- Nothing is found when nothing passes. -/
theorem scan_eq_zero_iff (pick : ℕ → ℕ → β) (pass : ℕ → Bool) (n : ℕ) (best : β) :
    (scan pick pass n best).best_len = 0 ↔ ∀ i < n, pass i = false := by
  obtain ⟨start, hbest, -⟩ := scan_longest pick pass n best
  constructor
  · intro hzero i hi
    by_contra hpass
    rw [Bool.not_eq_false] at hpass
    have hone := hbest.longest i 1 hi ?_
    · omega
    · intro j hj hlt
      have hsame : j = i := by omega
      rw [hsame]
      exact hpass
  · intro hnone
    by_contra hsome
    have hin := hbest.inside
    have htrue := hbest.passes start (Nat.le_refl start) (by omega)
    rw [hnone start (by omega)] at htrue
    cases htrue

end PicoDsp.Lib.LongestRun
