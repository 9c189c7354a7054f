/-
The filter of a voice (`effects/filter/predictive_ladder.rs` of `vendor/infinitedsp-core`).

Four one-pole stages in a row, with what comes out of the last fed back to the first
through a saturation. The feedback is `k` times a number of size at most one, whatever the
predictor makes of the state. So the resonance cannot make the filter run away, not even
where it oscillates by itself, and neither can any motion of the cutoff.

The saturation is a quotient of polynomials that looks like a hyperbolic tangent. That it
is at most one is a third power (`fast_tanh_le`), and no other property of it is used: in
particular nothing about the stability of the linearised loop, which at full resonance is
not stable. A stage may amplify, since its coefficient jumps with the cutoff, by a factor
`G_MAX` at most that comes from the clamp of the cutoff (`calc_coeffs_g`). Four stages give the fourth power of it, and that is the 58 of the
result. The bound on the state is a tower of four such factors, one for each stage
(`InBound`), since a stage is only as quiet as the one in front of it.

The cutoff and the resonance of a block come from other nodes; here they are the buffers
that these fill, or one value. Where one of them is a buffer, the samples go through
vectors of four as far as they reach. Three ways through a block therefore compute one
thing, and `process_run` says so before anything else is proved: every sample is filtered
with the coefficients of its own parameters. So how a stream is cut, or which of its
parameters are constant, cannot be heard (`same_however_cut`), and the bound is proved
for one sample.
-/
import PicoDsp.Control.MidiControl
import PicoDsp.Lib.Glide
import PicoDsp.Lib.Stable
import Mathlib.Algebra.Order.Field.Basic
import Mathlib.Data.Fin.VecNotation
import Mathlib.Tactic.FieldSimp
import Mathlib.Tactic.NormNum
import Mathlib.Tactic.Positivity

set_option autoImplicit false

namespace PicoDsp

open Lib Lib.Machine

/-- A parameter in a block: `Static`, or the buffer that a `Dynamic` one has filled. -/
inductive BlockParam (K : Type)
  | static (v : K)
  | dynamic (buffer : List K)

/-- The values of the samples. -/
def BlockParam.values {K : Type} (len : ℕ) : BlockParam K → List K
  | .static v => List.replicate len v
  | .dynamic buffer => buffer

structure PredictiveLadderFilter (K : Type) where
  sample_rate : K
  s : Fin 4 → K

namespace PredictiveLadderFilter

/-- The stages are numbered from 0. -/
local instance stages_ne_zero : NeZero 4 := ⟨by decide⟩

section

variable {K : Type} [Field K] [LinearOrder K]

/-- The cutoff and the resonance of a sample, and the sample. -/
abbrev Input (K : Type) : Type := K × K × K

structure Coeffs (K : Type) where
  g : K
  k : K
  beta : K

omit [LinearOrder K] in
def fast_tan (x : K) : K :=
  let x2 := x * x
  x * (1 + 0.333333 * x2)

def fast_tanh (x : K) : K :=
  let x_clamped := clamp x (-3.0) 3.0
  let x2_c := x_clamped * x_clamped
  x_clamped * (27.0 + x2_c) / (27.0 + 9.0 * x2_c)

def calc_coeffs (c r sample_rate : K) : Coeffs K :=
  let max_f := sample_rate * 0.49
  let fc := clamp c 10.0 max_f
  let g := fast_tan (PI * fc / sample_rate)
  let k := r * 4.0
  let beta := 1 / (1 + g)
  ⟨g, k, beta⟩

/-- A lane of `calc_coeffs_simd`; `recip` is the exact reciprocal. -/
def calc_coeffs_simd (c r sample_rate : K) : Coeffs K :=
  let max_f := sample_rate * 0.49
  let fc := min (max c 10.0) max_f
  let g := fast_tan (fc * (PI / sample_rate))
  let k := r * 4.0
  let beta := (1 + g)⁻¹
  ⟨g, k, beta⟩

def step (x : K) (c : Coeffs K) (s : Fin 4 → K) : K × (Fin 4 → K) :=
  let g_val := c.g * c.beta
  let s0 := s 0 * c.beta
  let s1 := s 1 * c.beta
  let s2 := s 2 * c.beta
  let s3 := s 3 * c.beta
  let g2 := g_val * g_val
  let gamma := g2 * g2
  let sigma := s3 + g_val * (s2 + g_val * (s1 + g_val * s0))
  let y_est := (gamma * x + sigma) / (1 + c.k * gamma)
  let u := x - c.k * fast_tanh y_est
  let v1 := g_val * u + s0
  let v2 := g_val * v1 + s1
  let v3 := g_val * v2 + s2
  let v4 := g_val * v3 + s3
  (v4, ![2.0 * v1 - s 0, 2.0 * v2 - s 1, 2.0 * v3 - s 2, 2.0 * v4 - s 3])

/-- A sample whose coefficients are its own. -/
def sample (sample_rate : K) : Machine (Fin 4 → K) (Input K) K := fun i s =>
  step i.2.2 (calc_coeffs i.1 i.2.1 sample_rate) s

/-- Four samples at a time, and then the remainder. -/
def samples (sample_rate : K) : List (Input K) → (Fin 4 → K) → List K × (Fin 4 → K)
  | i₀ :: i₁ :: i₂ :: i₃ :: is, s =>
      let (y₀, s) := step i₀.2.2 (calc_coeffs_simd i₀.1 i₀.2.1 sample_rate) s
      let (y₁, s) := step i₁.2.2 (calc_coeffs_simd i₁.1 i₁.2.1 sample_rate) s
      let (y₂, s) := step i₂.2.2 (calc_coeffs_simd i₂.1 i₂.2.1 sample_rate) s
      let (y₃, s) := step i₃.2.2 (calc_coeffs_simd i₃.1 i₃.2.1 sample_rate) s
      let (ys, s) := samples sample_rate is s
      (y₀ :: y₁ :: y₂ :: y₃ :: ys, s)
  | is, s => run (sample sample_rate) is s

def process (cutoff resonance : BlockParam K) (buffer : List K)
    (self : PredictiveLadderFilter K) : List K × PredictiveLadderFilter K :=
  match cutoff, resonance with
  | .static c, .static r =>
      let coeffs := calc_coeffs c r self.sample_rate
      let (out, s) := run (fun x s => step x coeffs s) buffer self.s
      (out, { self with s := s })
  | cutoff, resonance =>
      let cutoffs := cutoff.values buffer.length
      let resonances := resonance.values buffer.length
      let (out, s) := samples self.sample_rate (cutoffs.zip (resonances.zip buffer)) self.s
      (out, { self with s := s })

omit [LinearOrder K] in
def new : PredictiveLadderFilter K where
  sample_rate := 44100.0
  s := fun _ => 0

omit [Field K] [LinearOrder K] in
def set_sample_rate (sample_rate : K) (self : PredictiveLadderFilter K) :
    PredictiveLadderFilter K := { self with sample_rate := sample_rate }

omit [LinearOrder K] in
def reset (self : PredictiveLadderFilter K) : PredictiveLadderFilter K :=
  { self with s := fun _ => 0 }

end

/-! ## The vectors compute what a sample does -/

section

variable {K : Type} [Field K] [LinearOrder K] [IsStrictOrderedRing K] {sample_rate : K}

omit [Field K] [IsStrictOrderedRing K] in
/-- The vectors clamp by minimum and maximum. -/
theorem min_max_eq_clamp {c lo hi : K} (h : lo ≤ hi) : min (max c lo) hi = clamp c lo hi := by
  unfold clamp
  split
  · rename_i hlow
    rw [max_eq_right hlow.le, min_eq_left h]
  · rename_i hlow
    rw [max_eq_left (not_lt.mp hlow)]
    split
    · rename_i hhigh
      rw [min_eq_right hhigh.le]
    · rename_i hhigh
      rw [min_eq_left (not_lt.mp hhigh)]

omit [IsStrictOrderedRing K] in
/-- A lane computes the coefficients of its sample. -/
theorem calc_coeffs_simd_eq (hrate : 10.0 ≤ sample_rate * 0.49) (c r : K) :
    calc_coeffs_simd c r sample_rate = calc_coeffs c r sample_rate := by
  unfold calc_coeffs_simd calc_coeffs
  dsimp only
  rw [min_max_eq_clamp hrate, one_div, mul_comm _ (PI / sample_rate), div_mul_eq_mul_div]

omit [IsStrictOrderedRing K] in
/-- **Four at a time is one after the other.** -/
theorem samples_eq (hrate : 10.0 ≤ sample_rate * 0.49) (is : List (Input K)) (s : Fin 4 → K) :
    samples sample_rate is s = run (sample sample_rate) is s := by
  induction is, s using samples.induct sample_rate with
  | case1 i₀ i₁ i₂ i₃ is s y₀ s₀ h₀ y₁ s₁ h₁ y₂ s₂ h₂ y₃ s₃ h₃ _ _ _ ih =>
      rw [calc_coeffs_simd_eq hrate] at h₀ h₁ h₂ h₃
      simp only [samples, calc_coeffs_simd_eq hrate, h₀, h₁, h₂, h₃, ih, run_cons, sample]
  | case2 is s h =>
      rw [samples]
      exact h

/-! ## A stage -/

variable {g u v B C G : K}

/-- **The saturation is one at most**: the difference to it is a third power. -/
theorem fast_tanh_le (x : K) : |fast_tanh x| ≤ 1 := by
  obtain ⟨hlow, hhigh⟩ := clamp_bounds (x := x) (show (-3.0 : K) ≤ 3.0 by norm_num)
  unfold fast_tanh
  generalize clamp x (-3.0) 3.0 = y at hlow hhigh
  dsimp only
  norm_num at hlow hhigh ⊢
  have hpos : 0 < 27 + 9 * (y * y) := by nlinarith [mul_self_nonneg y]
  have hup : 0 ≤ (3 - y) ^ 3 := pow_nonneg (by linarith) 3
  have hdown : 0 ≤ (3 + y) ^ 3 := pow_nonneg (by linarith) 3
  rw [abs_div, abs_of_pos hpos, div_le_one hpos, abs_le]
  constructor
  · linarith [hdown, (by ring : (3 + y) ^ 3 = 27 + 27 * y + 9 * (y * y) + y * (y * y))]
  · linarith [hup, (by ring : (3 - y) ^ 3 = 27 - 27 * y + 9 * (y * y) - y * (y * y))]

/-- What a stage puts out, and the state it leaves. -/
theorem stage_le (hg : 0 < g) (hgG : g ≤ G) (hG : 1 ≤ G) (hu : |u| ≤ B) (hs : |v| ≤ G * B) :
    |g * (1 / (1 + g)) * u + v * (1 / (1 + g))| ≤ G * B
      ∧ |2.0 * (g * (1 / (1 + g)) * u + v * (1 / (1 + g))) - v| ≤ G * B := by
  have hden : 0 < 1 + g := by linarith
  have hB : 0 ≤ B := (abs_nonneg u).trans hu
  rw [abs_le] at hu hs
  have hout : g * (1 / (1 + g)) * u + v * (1 / (1 + g)) = (g * u + v) / (1 + g) := by
    field_simp
  have hnext : 2.0 * ((g * u + v) / (1 + g)) - v = (2 * g * u + (1 - g) * v) / (1 + g) := by
    norm_num
    field_simp
    ring
  rw [hout, hnext, abs_div, abs_div, abs_of_pos hden, div_le_iff₀ hden, div_le_iff₀ hden]
  have hgu : |g * u| ≤ g * B := by
    rw [abs_mul, abs_of_pos hg]
    exact mul_le_mul_of_nonneg_left (abs_le.mpr hu) hg.le
  have hgB : g * B ≤ G * B := mul_le_mul_of_nonneg_right hgG hB
  have hgGB : g * B ≤ g * (G * B) := mul_le_mul_of_nonneg_left (le_mul_of_one_le_left hB hG) hg.le
  constructor
  · have hsum := abs_add_le (g * u) v
    have hv : |v| ≤ G * B := abs_le.mpr hs
    linarith
  · have hsum := abs_add_le (2 * g * u) ((1 - g) * v)
    have hmul : |(1 - g) * v| ≤ |1 - g| * (G * B) := by
      rw [abs_mul]
      exact mul_le_mul_of_nonneg_left (abs_le.mpr hs) (abs_nonneg _)
    have htwice : |2 * g * u| = 2 * |g * u| := by
      rw [mul_assoc, abs_mul, abs_of_pos (by norm_num : (0 : K) < 2)]
    -- a slow stage keeps its state, a fast one turns it around
    rcases le_total g 1 with hslow | hfast
    · rw [abs_of_nonneg (by linarith : 0 ≤ 1 - g)] at hmul
      linarith
    · rw [abs_of_nonpos (by linarith : 1 - g ≤ 0)] at hmul
      linarith

/-- The four stages, from the input `u` on. -/
def stages (g_val beta u : K) (s : Fin 4 → K) : K × (Fin 4 → K) :=
  let v1 := g_val * u + s 0 * beta
  let v2 := g_val * v1 + s 1 * beta
  let v3 := g_val * v2 + s 2 * beta
  let v4 := g_val * v3 + s 3 * beta
  (v4, ![2.0 * v1 - s 0, 2.0 * v2 - s 1, 2.0 * v3 - s 2, 2.0 * v4 - s 3])

/-- **What is fed back is `k` at most**, whatever the predictor says. -/
theorem step_eq (x : K) (c : Coeffs K) (s : Fin 4 → K) :
    ∃ sat, |sat| ≤ 1 ∧ step x c s = stages (c.g * c.beta) c.beta (x - c.k * sat) s :=
  ⟨_, fast_tanh_le _, rfl⟩

/-- A bound on the state behind an input within `B`. -/
def InBound (G B : K) (s : Fin 4 → K) : Prop :=
  |s 0| ≤ G * B ∧ |s 1| ≤ G * (G * B) ∧ |s 2| ≤ G * (G * (G * B))
    ∧ |s 3| ≤ G * (G * (G * (G * B)))

/-- The four stages: what comes out, and the state behind them. -/
theorem stages_le {s : Fin 4 → K} (hg : 0 < g) (hgG : g ≤ G) (hG : 1 ≤ G) (hu : |u| ≤ B)
    (hs : InBound G B s) :
    |(stages (g * (1 / (1 + g))) (1 / (1 + g)) u s).1| ≤ G * (G * (G * (G * B)))
      ∧ InBound G B (stages (g * (1 / (1 + g))) (1 / (1 + g)) u s).2 := by
  obtain ⟨h₀, h₁, h₂, h₃⟩ := hs
  obtain ⟨hv₁, hs₀⟩ := stage_le hg hgG hG hu h₀
  obtain ⟨hv₂, hs₁⟩ := stage_le hg hgG hG hv₁ h₁
  obtain ⟨hv₃, hs₂⟩ := stage_le hg hgG hG hv₂ h₂
  obtain ⟨hv₄, hs₃⟩ := stage_le hg hgG hG hv₃ h₃
  exact ⟨hv₄, hs₀, hs₁, hs₂, hs₃⟩

/-! ## The filter -/

omit [LinearOrder K] [IsStrictOrderedRing K] in
/-- The largest gain of a stage. -/
def G_MAX : K := 2.756

/-- A stage may amplify. -/
theorem one_le_G_MAX : (1 : K) ≤ G_MAX := by
  unfold G_MAX
  norm_num

/-- The clamp of the cutoff bounds the coefficient. -/
theorem calc_coeffs_g (hrate : 10.0 ≤ sample_rate * 0.49) (c r : K) :
    0 < (calc_coeffs c r sample_rate).g ∧ (calc_coeffs c r sample_rate).g ≤ G_MAX := by
  obtain ⟨hlow, hhigh⟩ := clamp_bounds (x := c) hrate
  unfold calc_coeffs fast_tan
  dsimp only
  generalize clamp c 10.0 (sample_rate * 0.49) = fc at hlow hhigh
  have hpos : 0 < sample_rate := by
    by_contra hneg
    linarith [not_lt.mp hneg]
  have hPI : (0 : K) < PI ∧ (PI : K) * 0.49 ≤ 1.5394 := by
    unfold PI
    constructor
    · norm_num
    · norm_num
  -- the cutoff is clamped below half the rate, which keeps the argument below π / 2
  have hx : 0 < PI * fc / sample_rate ∧ PI * fc / sample_rate ≤ 1.5394 := by
    refine ⟨div_pos (mul_pos hPI.1 (by linarith)) hpos, ?_⟩
    rw [div_le_iff₀ hpos]
    have hmul := mul_le_mul_of_nonneg_left hhigh hPI.1.le
    have hrest := mul_le_mul_of_nonneg_right hPI.2 hpos.le
    linarith
  generalize PI * fc / sample_rate = x at hx
  obtain ⟨hx, hle⟩ := hx
  have hsq : x * x ≤ 1.5394 * 1.5394 := mul_le_mul hle hle hx.le (by norm_num)
  have hnonneg := mul_self_nonneg x
  refine ⟨mul_pos hx (by linarith), ?_⟩
  calc x * (1 + 0.333333 * (x * x))
      ≤ 1.5394 * (1 + 0.333333 * (1.5394 * 1.5394)) :=
        mul_le_mul hle (by linarith) (by linarith) (by norm_num)
    _ ≤ G_MAX := by
        unfold G_MAX
        norm_num

/-- Any cutoff, a resonance in the unit interval, and a sample. -/
def input : Scale K (Input K) where
  within B i := 0 ≤ i.2.1 ∧ i.2.1 ≤ 1 ∧ |i.2.2| ≤ B
  mono h hi := ⟨hi.1, hi.2.1, hi.2.2.trans h⟩

/-- The input and what is fed back, and a gain for each stage. -/
def bound : Scale K (Fin 4 → K) where
  within B s := InBound G_MAX (B + 4.0) s
  mono := by
    rintro B C s h ⟨h₀, h₁, h₂, h₃⟩
    have hG : (0 : K) ≤ G_MAX := zero_le_one.trans one_le_G_MAX
    have hle₀ : G_MAX * (B + 4.0) ≤ G_MAX * (C + 4.0) := mul_le_mul_of_nonneg_left (by linarith) hG
    have hle₁ := mul_le_mul_of_nonneg_left hle₀ hG
    have hle₂ := mul_le_mul_of_nonneg_left hle₁ hG
    have hle₃ := mul_le_mul_of_nonneg_left hle₂ hG
    exact ⟨h₀.trans hle₀, h₁.trans hle₁, h₂.trans hle₂, h₃.trans hle₃⟩

/-- What comes out. -/
def output : Scale K K where
  within B y := |y| ≤ 58.0 * (B + 4.0)
  mono h hy := hy.trans (by linarith)

/-- **The filter is stable.** -/
theorem stable (hrate : 10.0 ≤ sample_rate * 0.49) :
    Stable (sample sample_rate) input bound output := by
  refine ⟨fun {B i s} hB hi hs => ?_⟩
  obtain ⟨hr, hr', hx⟩ := hi
  obtain ⟨hg, hgG⟩ := calc_coeffs_g hrate i.1 i.2.1
  obtain ⟨sat, hsat, hstep⟩ := step_eq i.2.2 (calc_coeffs i.1 i.2.1 sample_rate) s
  have hfed : |i.2.2 - i.2.1 * 4.0 * sat| ≤ B + 4.0 := by
    have hsum := abs_sub i.2.2 (i.2.1 * 4.0 * sat)
    have hmul : |i.2.1 * 4.0 * sat| ≤ 1 * 4.0 * 1 := by
      rw [abs_mul, abs_mul, abs_of_nonneg hr, abs_of_nonneg (by norm_num : (0 : K) ≤ 4.0)]
      exact mul_le_mul (mul_le_mul_of_nonneg_right hr' (by norm_num)) hsat (abs_nonneg _)
        (by norm_num)
    linarith
  obtain ⟨hout, hnext⟩ := stages_le hg hgG one_le_G_MAX hfed hs
  have hgain : G_MAX * (G_MAX * (G_MAX * (G_MAX * (B + 4.0)))) ≤ 58.0 * (B + 4.0) := by
    have hpow : (G_MAX * (G_MAX * (G_MAX * G_MAX)) : K) ≤ 58.0 := by
      unfold G_MAX
      norm_num
    have hmul := mul_le_mul_of_nonneg_right hpow (by linarith : 0 ≤ B + 4.0)
    linarith
  unfold sample
  rw [hstep]
  exact ⟨hout.trans hgain, hnext⟩

/-! ## Blocks -/

/-- A block: the two parameters, and the samples. -/
abbrev Block (K : Type) : Type := BlockParam K × BlockParam K × List K

/-- What the samples of a block find. -/
def inputs (b : Block K) : List (Input K) :=
  (b.1.values b.2.2.length).zip ((b.2.1.values b.2.2.length).zip b.2.2)

/-- The filter after a stream of blocks, and what came out. -/
def blocks : List (Block K) → PredictiveLadderFilter K → List (List K) × PredictiveLadderFilter K :=
  run fun b => process b.1 b.2.1 b.2.2

omit [Field K] [LinearOrder K] [IsStrictOrderedRing K] in
/-- Constant parameters, sample by sample. -/
theorem zip_replicate (c r : K) (xs : List K) :
    (List.replicate xs.length c).zip ((List.replicate xs.length r).zip xs)
      = xs.map fun x => (c, r, x) := by
  induction xs with
  | nil => rfl
  | cons x xs ih => exact congrArg ((c, r, x) :: ·) ih

omit [IsStrictOrderedRing K] in
/-- **A block, whichever way it goes**: with coefficients computed once, in fours, or one by
one, every sample is filtered with the coefficients of its own parameters. -/
theorem process_run (b : Block K) {self : PredictiveLadderFilter K}
    (hrate : 10.0 ≤ self.sample_rate * 0.49) :
    process b.1 b.2.1 b.2.2 self
      = ((run (sample self.sample_rate) (inputs b) self.s).1,
        { self with s := (run (sample self.sample_rate) (inputs b) self.s).2 }) := by
  obtain ⟨cutoff, resonance, buffer⟩ := b
  have hvector : ∀ cs rs : List K, samples self.sample_rate (cs.zip (rs.zip buffer)) self.s
      = run (sample self.sample_rate) (cs.zip (rs.zip buffer)) self.s :=
    fun cs rs => samples_eq hrate _ _
  cases cutoff with
  | dynamic cs =>
      unfold process inputs
      dsimp only
      rw [hvector]
  | static c =>
      cases resonance with
      | dynamic rs =>
          unfold process inputs
          dsimp only
          rw [hvector]
      | static r =>
          have honce := run_between (fun x => (c, r, x)) (sample self.sample_rate) id buffer self.s
          rw [List.map_id, ← zip_replicate] at honce
          unfold process
          dsimp only
          show ((run (between (fun x => (c, r, x)) (sample self.sample_rate) id) buffer self.s).1,
            { self with s :=
              (run (between (fun x => (c, r, x)) (sample self.sample_rate) id) buffer self.s).2 }) = _
          rw [honce]
          rfl

omit [IsStrictOrderedRing K] in
/-- **A stream of blocks is one run** of the filter of a sample. -/
theorem blocks_run {self : PredictiveLadderFilter K} (hrate : 10.0 ≤ self.sample_rate * 0.49)
    (bs : List (Block K)) :
    (blocks bs self).1.flatten
        = (run (sample self.sample_rate) (bs.flatMap inputs) self.s).1
      ∧ (blocks bs self).2
        = { self with s := (run (sample self.sample_rate) (bs.flatMap inputs) self.s).2 } := by
  induction bs generalizing self with
  | nil => exact ⟨rfl, rfl⟩
  | cons b bs ih =>
      have hblock := process_run b hrate
      have hnext : 10.0 ≤ (process b.1 b.2.1 b.2.2 self).2.sample_rate * 0.49 := by
        rw [hblock]
        exact hrate
      obtain ⟨hout, hlast⟩ := ih hnext
      unfold blocks at hout hlast ⊢
      rw [run_cons, List.flatMap_cons, run_append, List.flatten_cons, hout, hlast, hblock]
      exact ⟨rfl, rfl⟩

omit [IsStrictOrderedRing K] in
/-- **What a sample finds is all that counts**: not where the stream is cut into blocks, not
which of the parameters come as buffers, and not how many samples go through the vectors. -/
theorem same_however_cut {self : PredictiveLadderFilter K}
    (hrate : 10.0 ≤ self.sample_rate * 0.49) {bs cs : List (Block K)}
    (h : bs.flatMap inputs = cs.flatMap inputs) :
    (blocks bs self).1.flatten = (blocks cs self).1.flatten
      ∧ (blocks bs self).2 = (blocks cs self).2 := by
  obtain ⟨hout, hlast⟩ := blocks_run hrate bs
  obtain ⟨hout', hlast'⟩ := blocks_run hrate cs
  rw [hout, hout', hlast, hlast', h]
  exact ⟨rfl, rfl⟩

/-- A vector and a remainder on one side, two blocks of constant parameters on the other. -/
theorem same_however_cut_five :
    (blocks [(.dynamic [20, 20, 20, 20, 900], .static 1, [1, -1, 1, -1, 1])]
        ⟨(48000 : ℚ), fun _ => 0⟩).1.flatten
      = (blocks [(.static 20, .static 1, [1, -1, 1, -1]), (.static 900, .static 1, [1])]
        ⟨(48000 : ℚ), fun _ => 0⟩).1.flatten :=
  (@same_however_cut ℚ _ _ ⟨48000, fun _ => 0⟩ (by norm_num)
    [(.dynamic [20, 20, 20, 20, 900], .static 1, [1, -1, 1, -1, 1])]
    [(.static 20, .static 1, [1, -1, 1, -1]), (.static 900, .static 1, [1])] rfl).1

/-- Blocks whose resonances are in the unit interval, and whose samples are within `B`. -/
def Within (B : K) (bs : List (Block K)) : Prop :=
  ∀ b ∈ bs, (∀ r ∈ b.2.1.values b.2.2.length, 0 ≤ r ∧ r ≤ 1) ∧ ∀ x ∈ b.2.2, |x| ≤ B

omit [IsStrictOrderedRing K] in
/-- What the samples of a block find is within the bounds. -/
theorem inputs_within {b : Block K}
    (hr : ∀ r ∈ b.2.1.values b.2.2.length, 0 ≤ r ∧ r ≤ 1) (hx : ∀ x ∈ b.2.2, |x| ≤ B) :
    ∀ i ∈ inputs b, input.within B i := by
  rintro ⟨c, r, x⟩ hi
  have hrest := (List.of_mem_zip hi).2
  obtain ⟨hmem, hmem'⟩ := List.of_mem_zip hrest
  exact ⟨(hr r hmem).1, (hr r hmem).2, hx x hmem'⟩

/-- **A stream of blocks**, from a state within the bound. -/
theorem blocks_within {self : PredictiveLadderFilter K} (hrate : 10.0 ≤ self.sample_rate * 0.49)
    (hB : 0 ≤ B) (hself : bound.within B self.s) {bs : List (Block K)} (hbs : Within B bs) :
    ∀ out ∈ (blocks bs self).1, ∀ y ∈ out, |y| ≤ 58.0 * (B + 4.0) := by
  have hinputs : ∀ i ∈ bs.flatMap inputs, input.within B i := by
    intro i hi
    obtain ⟨b, hb, hi⟩ := List.mem_flatMap.mp hi
    exact inputs_within (hbs b hb).1 (hbs b hb).2 i hi
  intro out hout y hy
  have hmem := List.mem_flatten.mpr ⟨out, hout, hy⟩
  rw [(blocks_run hrate bs).1] at hmem
  exact ((stable hrate).run hB hinputs hself).1 y hmem

/-- **The filter never blows up.** Whatever the cutoff does from sample to sample, and however
high the resonance is: from the beginning on the output is bounded by the input, up to what
the filter can add by oscillating itself. -/
theorem never_blows_up (hrate : 10.0 ≤ sample_rate * 0.49) (hB : 0 ≤ B) {bs : List (Block K)}
    (hbs : Within B bs) :
    ∀ out ∈ (blocks bs (set_sample_rate sample_rate new)).1, ∀ y ∈ out,
      |y| ≤ 58.0 * (B + 4.0) := by
  have hG : (0 : K) ≤ G_MAX := zero_le_one.trans one_le_G_MAX
  have h₀ : 0 ≤ G_MAX * (B + 4.0) := mul_nonneg hG (by linarith)
  have h₁ := mul_nonneg hG h₀
  have h₂ := mul_nonneg hG h₁
  have h₃ := mul_nonneg hG h₂
  have hzero : bound.within B (fun _ => (0 : K)) := by
    refine ⟨?_, ?_, ?_, ?_⟩
    · exact abs_zero.trans_le h₀
    · exact abs_zero.trans_le h₁
    · exact abs_zero.trans_le h₂
    · exact abs_zero.trans_le h₃
  exact blocks_within hrate hB hzero hbs

/-- Two blocks at full resonance: five samples under a cutoff that jumps, and one that does
not know the cutoff of the block before. -/
theorem never_blows_up_jump : Within (1 : ℚ)
      [(.dynamic [20, 20000, 20, 20000, 5], .static 1, [1, -1, 1, -1, 1]),
        (.static 40000, .static 1, [1])] ∧
    ∀ out ∈ (blocks [(.dynamic [20, 20000, 20, 20000, 5], .static 1, [1, -1, 1, -1, 1]),
        (.static 40000, .static 1, [1])] (set_sample_rate (48000 : ℚ) new)).1, ∀ y ∈ out,
      |y| ≤ 58.0 * (1 + 4.0) := by
  have hbs : Within (1 : ℚ) [(.dynamic [20, 20000, 20, 20000, 5], .static 1, [1, -1, 1, -1, 1]),
      (.static 40000, .static 1, [1])] := by
    intro b hb
    simp only [List.mem_cons, List.not_mem_nil, or_false] at hb
    rcases hb with rfl | rfl
    · exact ⟨by decide +kernel, by decide +kernel⟩
    · exact ⟨by decide +kernel, by decide +kernel⟩
  exact ⟨hbs, never_blows_up (by norm_num) (by norm_num) hbs⟩

end

end PredictiveLadderFilter

end PicoDsp
