/-
The envelopes of a voice (`synthesis/envelope.rs` of `vendor/infinitedsp-core`).

An `Adsr` is processed sample by sample: its times are read along with the gate, an edge
of the gate changes the state, and the state says how the level moves. The scratch
buffers are left out; a block is the list of the five values that each sample finds.

Over the reals the level never leaves the unit interval, whatever the gate and the times
do; a gate that stays open brings the level up to one and then to the sustain level, and
one that stays closed brings it to exactly zero, each within a number of samples that
the longest time among the inputs bounds.

The steps that the level moves by are not computed for every sample. `recalc` takes over
a time only when it has moved by more than 0.0001 since it was last taken, so the step in
use may belong to an older time, at an older rate. `Sound` says no more than that: each
step belongs to some time close to the one last taken (`Computed`). All bounds on how long
something takes therefore have 0.0001 seconds added to the longest time, and the rate
in them is the larger of the rate and of 44100, at which a new envelope computes its
steps before it is told the rate.

One sample is seen in two ways. `Advances` lists what a movement of the level can be, one
constructor for each arm of the source's match, and is all that the invariant needs.
For the three phases of a note (`Release`, `Attack`, `Decay` below) `sample_reads` adds
which of them it is, from the state and the gate, and each phase has a lemma for a
sample, one for a run, and one for the time it ends.
-/
import PicoDsp.Dsp.MidiGate
import Mathlib.Analysis.SpecialFunctions.Log.Basic

set_option autoImplicit false

namespace PicoDsp

open Lib

/-- `libm::expf` -/
class Expf (F : Type) where
  expf : F → F

noncomputable instance : Expf ℝ := ⟨Real.exp⟩

inductive AdsrState
  | Idle
  | Attack
  | Decay
  | Sustain
  | Release
  deriving DecidableEq

/-- The gate is open in these states. -/
def AdsrState.Open : AdsrState → Prop
  | .Attack | .Decay | .Sustain => True
  | .Idle | .Release => False

structure Adsr (F : Type) where
  sample_rate : F
  state : AdsrState
  current_level : F
  last_gate : F
  attack_step : F
  decay_coeff : F
  release_coeff : F
  last_attack : F
  last_decay : F
  last_release : F
  retrigger : Bool

namespace Adsr

/-- What a sample finds in the five buffers. -/
structure Controls (F : Type) where
  gate : F
  attack : F
  decay : F
  sustain : F
  release : F

variable {F : Type} [F32 F]

/-- `f32::abs` -/
def fabs (x : F) : F := if F32.lt x (F32.lit 0) then F32.lit 0 - x else x

/-- The step of an attack of `attack` seconds. -/
def attack_step_of (sample_rate attack : F) : F :=
  let attack_samples := attack * sample_rate
  if F32.lt (F32.lit 0) attack_samples then F32.lit 1 / attack_samples else F32.lit 1

variable [Expf F]

/-- The factor of a decay or a release of `time` seconds. -/
def coeff_of (sample_rate time : F) : F :=
  let samples := time * sample_rate
  if F32.lt (F32.lit 0) samples then Expf.expf (F32.lit (-1) / (samples / F32.lit 3))
  else F32.lit 0

/-- The steps follow the times, where these have moved by more than 0.0001. -/
def recalc (attack decay release : F) (self : Adsr F) : Adsr F :=
  let self :=
    if F32.lt (F32.lit 0.0001) (fabs (attack - self.last_attack)) then
      { self with
        attack_step := attack_step_of self.sample_rate attack
        last_attack := attack }
    else self
  let self :=
    if F32.lt (F32.lit 0.0001) (fabs (decay - self.last_decay)) then
      { self with
        decay_coeff := coeff_of self.sample_rate decay
        last_decay := decay }
    else self
  if F32.lt (F32.lit 0.0001) (fabs (release - self.last_release)) then
    { self with
      release_coeff := coeff_of self.sample_rate release
      last_release := release }
  else self

def new : Adsr F :=
  recalc (F32.lit 0.01) (F32.lit 0.1) (F32.lit 0.1)
    { sample_rate := F32.lit 44100
      state := .Idle
      current_level := F32.lit 0
      last_gate := F32.lit 0
      attack_step := F32.lit 0
      decay_coeff := F32.lit 0
      release_coeff := F32.lit 0
      last_attack := F32.lit (-1)
      last_decay := F32.lit (-1)
      last_release := F32.lit (-1)
      retrigger := false }

omit [F32 F] [Expf F] in
/-- The steps are not computed again. -/
def set_sample_rate (sample_rate : F) (self : Adsr F) : Adsr F :=
  { self with sample_rate := sample_rate }

omit [Expf F] in
def reset (self : Adsr F) : Adsr F :=
  { self with state := .Idle, current_level := F32.lit 0, last_gate := F32.lit 0 }

omit [Expf F] in
/-- The edges of the gate. -/
def follow_gate (triggered : Bool) (gate_val : F) (self : Adsr F) : Adsr F :=
  let self :=
    if triggered then { self with state := .Attack, current_level := F32.lit 0 }
    else if starts_attack self.last_gate gate_val then { self with state := .Attack }
    else if F32.lt gate_val (F32.lit 0.5) && !F32.lt self.last_gate (F32.lit 0.5) then
      { self with state := .Release }
    else self
  { self with last_gate := gate_val }

omit [Expf F] in
/-- The level moves on. -/
def advance (sustain : F) (self : Adsr F) : Adsr F :=
  match self.state with
  | .Idle => { self with current_level := F32.lit 0 }
  | .Attack =>
      let level := self.current_level + self.attack_step
      if F32.lt level (F32.lit 1) then { self with current_level := level }
      else { self with current_level := F32.lit 1, state := .Decay }
  | .Decay =>
      let level := sustain + (self.current_level - sustain) * self.decay_coeff
      if F32.lt (fabs (level - sustain)) (F32.lit 0.001) then
        { self with current_level := sustain, state := .Sustain }
      else { self with current_level := level }
  | .Sustain => { self with current_level := sustain }
  | .Release =>
      let level := self.current_level * self.release_coeff
      if F32.lt level (F32.lit 0.0001) then
        { self with current_level := F32.lit 0, state := .Idle }
      else { self with current_level := level }

/-- The body of the loop: the sample is the level that is left. -/
def sample (triggered : Bool) (c : Controls F) (self : Adsr F) : Adsr F :=
  advance c.sustain (follow_gate triggered c.gate (recalc c.attack c.decay c.release self))

/-- The loop: a trigger counts for its first sample. -/
def samples : Bool → List (Controls F) → Adsr F → List F × Adsr F
  | _, [], self => ([], self)
  | triggered, c :: cs, self =>
      let self := sample triggered c self
      let (out, last) := samples false cs self
      (self.current_level :: out, last)

def process (cs : List (Controls F)) (self : Adsr F) : List F × Adsr F :=
  samples self.retrigger cs { self with retrigger := false }

/-- A stream of blocks. -/
def blocks : List (List (Controls F)) → Adsr F → List (List F) × Adsr F
  | [], self => ([], self)
  | cs :: rest, self =>
      let (out, self) := process cs self
      let (outs, self) := blocks rest self
      (out :: outs, self)

/-! ## Samples and blocks -/

/-- The envelope after some samples, none of them triggered. -/
def after (cs : List (Controls F)) (self : Adsr F) : Adsr F :=
  cs.foldl (fun self c => sample false c self) self

/-- More samples. -/
theorem after_append (cs ds : List (Controls F)) (self : Adsr F) :
    after (cs ++ ds) self = after ds (after cs self) := List.foldl_append

/-- Behind the loop the envelope is where its samples have led it. -/
theorem samples_last (cs : List (Controls F)) (self : Adsr F) :
    (samples false cs self).2 = after cs self := by
  induction cs generalizing self with
  | nil => rfl
  | cons c cs ih => exact ih (sample false c self)

/-- A sample is the level that the samples up to it leave. -/
theorem samples_out (cs : List (Controls F)) (self : Adsr F) (i : ℕ) (h : i < cs.length) :
    (samples false cs self).1[i]? = some (after (cs.take (i + 1)) self).current_level := by
  induction cs generalizing self i with
  | nil => cases h
  | cons c cs ih =>
      cases i with
      | zero => rfl
      | succ i => exact ih (sample false c self) i (Nat.lt_of_succ_lt_succ h)

/-- A sample goes out for each that comes in. -/
theorem samples_length (triggered : Bool) (cs : List (Controls F)) (self : Adsr F) :
    (samples triggered cs self).1.length = cs.length := by
  induction cs generalizing triggered self with
  | nil => rfl
  | cons c cs ih => exact congrArg (· + 1) (ih false (sample triggered c self))

/-! ## The steps -/

/-- `fabs` over the reals. -/
theorem fabs_real (x : ℝ) : fabs x = |x| := by
  unfold fabs
  simp only [F32.lt_real, F32.lit_real, Rat.cast_zero, decide_eq_true_eq]
  split
  · rename_i hneg
    rw [abs_of_neg hneg, zero_sub]
  · rename_i hpos
    rw [abs_of_nonneg (not_lt.mp hpos)]

/-- The step of an attack over the reals: all the way at once where the time is zero. -/
theorem attack_step_of_real (sample_rate attack : ℝ) :
    attack_step_of sample_rate attack
      = if 0 < attack * sample_rate then 1 / (attack * sample_rate) else 1 := by
  simp [attack_step_of]

/-- The factor of a decay over the reals: nothing is left where the time is zero. -/
theorem coeff_of_real (sample_rate time : ℝ) :
    coeff_of sample_rate time
      = if 0 < time * sample_rate then Real.exp (-3 / (time * sample_rate)) else 0 := by
  have hexp : ∀ x : ℝ, Expf.expf x = Real.exp x := fun _ => rfl
  simp only [coeff_of, F32.lt_real, F32.lit_real, hexp, Rat.cast_zero, decide_eq_true_eq]
  congr 2
  rw [div_div_eq_mul_div]
  norm_num

/-- An attack of at most `time` seconds at a rate of at most `rate` goes up by so much. -/
theorem attack_step_ge {sr attack rate time : ℝ} (hsr : 0 < sr) (hrate : sr ≤ rate)
    (htime : attack ≤ time) (hpos : 0 < time) :
    min 1 (1 / (time * rate)) ≤ attack_step_of sr attack := by
  rw [attack_step_of_real]
  split
  · rename_i hsamples
    apply min_le_of_right_le
    apply one_div_le_one_div_of_le hsamples
    exact mul_le_mul htime hrate hsr.le hpos.le
  · exact min_le_left _ _

/-- Every attack goes up. -/
theorem attack_step_pos {sr attack : ℝ} : 0 < attack_step_of sr attack := by
  rw [attack_step_of_real]
  split
  · rename_i hsamples
    exact one_div_pos.mpr hsamples
  · exact one_pos

/-- A decay of at most `time` seconds at a rate of at most `rate` leaves at most so much. -/
theorem coeff_le {sr t rate time : ℝ} (hsr : 0 < sr) (hrate : sr ≤ rate) (htime : t ≤ time)
    (hpos : 0 < time) : coeff_of sr t ≤ Real.exp (-3 / (time * rate)) := by
  rw [coeff_of_real]
  split
  · rename_i hsamples
    apply Real.exp_le_exp.mpr
    have hle : t * sr ≤ time * rate := mul_le_mul htime hrate hsr.le hpos.le
    have hinv : 3 / (time * rate) ≤ 3 / (t * sr) :=
      div_le_div_of_nonneg_left (by norm_num) hsamples hle
    rw [neg_div, neg_div]
    exact neg_le_neg hinv
  · exact (Real.exp_pos _).le

/-- A factor is never negative. -/
theorem coeff_nonneg {sr t : ℝ} : 0 ≤ coeff_of sr t := by
  rw [coeff_of_real]
  split
  · exact (Real.exp_pos _).le
  · exact le_refl 0

/-- And never above one. -/
theorem coeff_le_one {sr t : ℝ} : coeff_of sr t ≤ 1 := by
  rw [coeff_of_real]
  split
  · rename_i hsamples
    rw [Real.exp_le_one_iff, neg_div]
    exact neg_nonpos.mpr (div_nonneg (by norm_num) hsamples.le)
  · exact zero_le_one

/-! ## The invariant -/

/-- A step belongs to the time it was computed for, at some rate so far. -/
def Computed (rate : ℝ) (of : ℝ → ℝ → ℝ) (step time : ℝ) : Prop :=
  ∃ sr, 0 < sr ∧ sr ≤ rate ∧ step = of sr time

/-- What holds of an envelope between two samples, for rates up to `rate`. -/
structure Sound (rate : ℝ) (a : Adsr ℝ) : Prop where
  sample_rate : 0 < a.sample_rate ∧ a.sample_rate ≤ rate
  attack : Computed rate attack_step_of a.attack_step a.last_attack
  decay : Computed rate coeff_of a.decay_coeff a.last_decay
  release : Computed rate coeff_of a.release_coeff a.last_release
  level : 0 ≤ a.current_level ∧ a.current_level ≤ 1
  gate : a.state.Open ↔ 1 / 2 ≤ a.last_gate
  retrigger : a.retrigger = false

/-- A time that has moved is taken, and its step with it. -/
theorem Computed.renew {rate sr step t last : ℝ} {of : ℝ → ℝ → ℝ}
    (h : Computed rate of step last) (hsr : 0 < sr ∧ sr ≤ rate) :
    Computed rate of (if 0.0001 < |t - last| then of sr t else step)
        (if 0.0001 < |t - last| then t else last)
      ∧ (if 0.0001 < |t - last| then t else last) ≤ t + 0.0001 := by
  split
  · refine ⟨⟨sr, hsr.1, hsr.2, rfl⟩, ?_⟩
    norm_num
  · rename_i hnear
    refine ⟨h, ?_⟩
    have hclose := neg_le_of_abs_le (not_lt.mp hnear)
    linarith only [hclose]

/-- What `recalc` does, time by time: each of the three is looked at by itself. -/
theorem recalc_eq (attack decay release : ℝ) (a : Adsr ℝ) :
    recalc attack decay release a
      = { a with
          attack_step := if 0.0001 < |attack - a.last_attack|
            then attack_step_of a.sample_rate attack else a.attack_step
          last_attack := if 0.0001 < |attack - a.last_attack| then attack else a.last_attack
          decay_coeff := if 0.0001 < |decay - a.last_decay|
            then coeff_of a.sample_rate decay else a.decay_coeff
          last_decay := if 0.0001 < |decay - a.last_decay| then decay else a.last_decay
          release_coeff := if 0.0001 < |release - a.last_release|
            then coeff_of a.sample_rate release else a.release_coeff
          last_release := if 0.0001 < |release - a.last_release| then release
            else a.last_release } := by
  have hlit : ((F32.lit 0.0001 : ℝ)) = 0.0001 := by norm_num
  simp only [recalc, fabs_real, F32.lt_real, hlit, decide_eq_true_eq]
  split_ifs
  · rfl
  · rfl
  · rfl
  · rfl
  · rfl
  · rfl
  · rfl
  · rfl

/-- The times are read, and everything else stays as it is. -/
theorem Sound.recalc {rate attack decay release : ℝ} {a : Adsr ℝ} (h : Sound rate a) :
    Sound rate (recalc attack decay release a) := by
  rw [recalc_eq]
  exact ⟨h.sample_rate, (h.attack.renew h.sample_rate).1, (h.decay.renew h.sample_rate).1,
    (h.release.renew h.sample_rate).1, h.level, h.gate, h.retrigger⟩

/-- A gate that rises above one half starts an attack. -/
theorem starts_attack_iff (last_gate gate_val : ℝ) :
    starts_attack last_gate gate_val = true ↔ 1 / 2 ≤ gate_val ∧ last_gate < 1 / 2 := by
  have hhalf : (F32.lit 0.5 : ℝ) = 1 / 2 := by norm_num
  simp only [starts_attack, F32.lt_real, hhalf, Bool.and_eq_true, Bool.not_eq_true',
    decide_eq_false_iff_not, decide_eq_true_eq, not_lt]

/-- The state after the gate was looked at. -/
theorem follow_gate_eq (gate_val : ℝ) (a : Adsr ℝ) :
    follow_gate false gate_val a
      = { a with
          state := if 1 / 2 ≤ gate_val ∧ a.last_gate < 1 / 2 then .Attack
            else if gate_val < 1 / 2 ∧ 1 / 2 ≤ a.last_gate then .Release else a.state
          last_gate := gate_val } := by
  have hhalf : (F32.lit 0.5 : ℝ) = 1 / 2 := by norm_num
  unfold follow_gate
  simp only [Bool.false_eq_true, if_false, starts_attack_iff, F32.lt_real, hhalf, Bool.and_eq_true,
    Bool.not_eq_true', decide_eq_false_iff_not, decide_eq_true_eq, not_lt]
  split_ifs
  · rfl
  · rfl
  · rfl

/-- The gate changes the state and nothing else. -/
theorem Sound.follow_gate {rate : ℝ} {a : Adsr ℝ} (h : Sound rate a) (gate_val : ℝ) :
    Sound rate (follow_gate false gate_val a) := by
  rw [follow_gate_eq]
  refine ⟨h.sample_rate, h.attack, h.decay, h.release, h.level, ?_, h.retrigger⟩
  show AdsrState.Open (if _ then _ else if _ then _ else _) ↔ 1 / 2 ≤ gate_val
  split_ifs with hup hdown
  · exact iff_of_true trivial hup.1
  · exact iff_of_false id (not_le.mpr hdown.1)
  · rw [h.gate]
    constructor
    · intro hlast
      by_contra hlow
      exact hdown ⟨not_le.mp hlow, hlast⟩
    · intro hhigh
      by_contra hlast
      exact hup ⟨hhigh, not_le.mp hlast⟩

/-- A step of the decay stays between the level and the target. -/
theorem decay_mem {level sustain coeff : ℝ} (hlevel : 0 ≤ level ∧ level ≤ 1)
    (hsustain : 0 ≤ sustain ∧ sustain ≤ 1) (hcoeff : 0 ≤ coeff ∧ coeff ≤ 1) :
    0 ≤ sustain + (level - sustain) * coeff ∧ sustain + (level - sustain) * coeff ≤ 1 := by
  have hmix : sustain + (level - sustain) * coeff = (1 - coeff) * sustain + coeff * level := by ring
  have hrest : 0 ≤ 1 - coeff := sub_nonneg.mpr hcoeff.2
  rw [hmix]
  constructor
  · exact add_nonneg (mul_nonneg hrest hsustain.1) (mul_nonneg hcoeff.1 hlevel.1)
  · have h₁ := mul_le_mul_of_nonneg_left hsustain.2 hrest
    have h₂ := mul_le_mul_of_nonneg_left hlevel.2 hcoeff.1
    linarith only [h₁, h₂]

/-- A step in use goes up, whatever time it was computed for. -/
theorem Computed.step_pos {rate step time : ℝ} (h : Computed rate attack_step_of step time) :
    0 < step := by
  obtain ⟨sr, -, -, rfl⟩ := h
  exact attack_step_pos

/-- A factor in use lies in the unit interval. -/
theorem Computed.coeff_mem {rate coeff time : ℝ} (h : Computed rate coeff_of coeff time) :
    0 ≤ coeff ∧ coeff ≤ 1 := by
  obtain ⟨sr, -, -, rfl⟩ := h
  exact ⟨coeff_nonneg, coeff_le_one⟩

/-- What a movement of the level can be. -/
inductive Advances (sustain : ℝ) (a : Adsr ℝ) : Adsr ℝ → Prop
  | idle (hstate : a.state = .Idle) : Advances sustain a { a with current_level := 0 }
  | rising (hstate : a.state = .Attack) (hlow : a.current_level + a.attack_step < 1) :
      Advances sustain a { a with current_level := a.current_level + a.attack_step }
  | peak (hstate : a.state = .Attack) (hhigh : 1 ≤ a.current_level + a.attack_step) :
      Advances sustain a { a with current_level := 1, state := .Decay }
  | falling (hstate : a.state = .Decay)
      (hfar : 0.001 ≤ |(a.current_level - sustain) * a.decay_coeff|) :
      Advances sustain a
        { a with current_level := sustain + (a.current_level - sustain) * a.decay_coeff }
  | settled (hstate : a.state = .Decay)
      (hnear : |(a.current_level - sustain) * a.decay_coeff| < 0.001) :
      Advances sustain a { a with current_level := sustain, state := .Sustain }
  | held (hstate : a.state = .Sustain) : Advances sustain a { a with current_level := sustain }
  | fading (hstate : a.state = .Release) (hhigh : 0.0001 ≤ a.current_level * a.release_coeff) :
      Advances sustain a { a with current_level := a.current_level * a.release_coeff }
  | silent (hstate : a.state = .Release) (hlow : a.current_level * a.release_coeff < 0.0001) :
      Advances sustain a { a with current_level := 0, state := .Idle }

/-- Every arm of the match is a movement of the list. -/
theorem advance_advances (sustain : ℝ) (a : Adsr ℝ) : Advances sustain a (advance sustain a) := by
  have hzero : (F32.lit 0 : ℝ) = 0 := by norm_num
  have hone : (F32.lit 1 : ℝ) = 1 := by norm_num
  have hmilli : (F32.lit 0.001 : ℝ) = 0.001 := by norm_num
  have htenth : (F32.lit 0.0001 : ℝ) = 0.0001 := by norm_num
  -- one branch of the source for each case
  unfold advance
  simp only [F32.lt_real, fabs_real, hzero, hone, hmilli, htenth, decide_eq_true_eq,
    add_sub_cancel_left]
  split
  · rename_i hstate
    exact .idle hstate
  · rename_i hstate
    split
    · rename_i hlow
      exact .rising hstate hlow
    · rename_i hhigh
      exact .peak hstate (not_lt.mp hhigh)
  · rename_i hstate
    split
    · rename_i hnear
      exact .settled hstate hnear
    · rename_i hfar
      exact .falling hstate (not_lt.mp hfar)
  · rename_i hstate
    exact .held hstate
  · rename_i hstate
    split
    · rename_i hlow
      exact .silent hstate hlow
    · rename_i hhigh
      exact .fading hstate (not_lt.mp hhigh)

/-- A movement keeps the level in the unit interval: the attack is cut off at one, and decay
and release go towards a level that lies inside. -/
theorem Sound.advance {rate sustain : ℝ} {a : Adsr ℝ} (h : Sound rate a)
    (hsustain : 0 ≤ sustain ∧ sustain ≤ 1) : Sound rate (advance sustain a) := by
  have hgate := h.gate
  have hmoved := advance_advances sustain a
  generalize Adsr.advance sustain a = b at hmoved
  cases hmoved with
  | idle hstate => exact { h with level := ⟨le_refl 0, zero_le_one⟩ }
  | rising hstate hlow =>
      have hpos := h.attack.step_pos
      exact { h with level := ⟨add_nonneg h.level.1 hpos.le, hlow.le⟩ }
  | peak hstate hhigh =>
      rw [hstate] at hgate
      exact { h with
        level := ⟨zero_le_one, le_refl 1⟩
        gate := hgate }
  | falling hstate hfar => exact { h with level := decay_mem h.level hsustain h.decay.coeff_mem }
  | settled hstate hnear =>
      rw [hstate] at hgate
      exact { h with
        level := hsustain
        gate := hgate }
  | held hstate => exact { h with level := hsustain }
  | fading hstate hhigh =>
      obtain ⟨hlow, hone⟩ := h.release.coeff_mem
      exact { h with level := ⟨mul_nonneg h.level.1 hlow, mul_le_one₀ h.level.2 hlow hone⟩ }
  | silent hstate hlow =>
      rw [hstate] at hgate
      exact { h with
        level := ⟨le_refl 0, zero_le_one⟩
        gate := hgate }

/-- **A sample keeps the invariant.** -/
theorem Sound.sample {rate : ℝ} {a : Adsr ℝ} {c : Controls ℝ} (h : Sound rate a)
    (hsustain : 0 ≤ c.sustain ∧ c.sustain ≤ 1) : Sound rate (sample false c a) :=
  (h.recalc.follow_gate c.gate).advance hsustain

/-- So do any number of samples. -/
theorem Sound.after {rate : ℝ} {a : Adsr ℝ} {cs : List (Controls ℝ)} (h : Sound rate a)
    (hsustain : ∀ c ∈ cs, 0 ≤ c.sustain ∧ c.sustain ≤ 1) : Sound rate (after cs a) := by
  induction cs generalizing a with
  | nil => exact h
  | cons c cs ih =>
      rw [List.forall_mem_cons] at hsustain
      exact ih (h.sample hsustain.1) hsustain.2

/-! ## Every run -/

/-- The envelope of a voice. -/
theorem Sound.new {sample_rate : ℝ} (h : 0 < sample_rate) :
    Sound (max sample_rate 44100) (set_sample_rate sample_rate new) := by
  have hrate : (44100 : ℝ) ≤ max sample_rate 44100 := le_max_right _ _
  have hfast : (0 : ℝ) < 44100 := by norm_num
  -- the first times are far from the initial -1
  have hattack : (0.0001 : ℝ) < |0.01 - -1| := by norm_num
  have htime : (0.0001 : ℝ) < |0.1 - -1| := by norm_num
  have hnew : set_sample_rate sample_rate (Adsr.new : Adsr ℝ)
      = ⟨sample_rate, .Idle, 0, 0, attack_step_of 44100 0.01, coeff_of 44100 0.1,
        coeff_of 44100 0.1, 0.01, 0.1, 0.1, false⟩ := by
    simp only [set_sample_rate, Adsr.new, recalc_eq, F32.lit_real]
    norm_num
  rw [hnew]
  exact ⟨⟨h, le_max_left _ _⟩, ⟨_, hfast, hrate, rfl⟩, ⟨_, hfast, hrate, rfl⟩,
    ⟨_, hfast, hrate, rfl⟩, ⟨le_refl 0, zero_le_one⟩, iff_of_false id (by norm_num), rfl⟩

/-- A block without a trigger is its samples. -/
theorem Sound.process_eq {rate : ℝ} {a : Adsr ℝ} (h : Sound rate a) (cs : List (Controls ℝ)) :
    process cs a = samples false cs a := by
  have hsame : ({ a with retrigger := false } : Adsr ℝ) = a := by
    rw [← h.retrigger]
  rw [process, hsame, h.retrigger]

/-- A block: the invariant behind it, and all of its samples in the unit interval. -/
theorem Sound.process {rate : ℝ} {a : Adsr ℝ} {cs : List (Controls ℝ)} (h : Sound rate a)
    (hsustain : ∀ c ∈ cs, 0 ≤ c.sustain ∧ c.sustain ≤ 1) :
    Sound rate (process cs a).2 ∧ ∀ x ∈ (Adsr.process cs a).1, 0 ≤ x ∧ x ≤ 1 := by
  rw [h.process_eq, samples_last]
  refine ⟨h.after hsustain, ?_⟩
  intro x hx
  obtain ⟨i, hi, rfl⟩ := List.mem_iff_getElem.mp hx
  have hlen : i < cs.length := by rwa [samples_length] at hi
  have hout := samples_out cs a i hlen
  rw [List.getElem?_eq_getElem hi, Option.some.injEq] at hout
  rw [hout]
  exact (h.after fun c hc => hsustain c (List.mem_of_mem_take hc)).level

/-- **The level of an envelope stays in the unit interval**, over all blocks, whatever
gates and times they bring and however the rate is set before them. -/
theorem level_in_unit {sample_rate : ℝ} (h : 0 < sample_rate) {bs : List (List (Controls ℝ))}
    (hsustain : ∀ cs ∈ bs, ∀ c ∈ cs, 0 ≤ c.sustain ∧ c.sustain ≤ 1) :
    ∀ out ∈ (blocks bs (set_sample_rate sample_rate new)).1, ∀ x ∈ out, 0 ≤ x ∧ x ≤ 1 := by
  have hsound := Sound.new h
  generalize set_sample_rate sample_rate (new : Adsr ℝ) = a at hsound ⊢
  induction bs generalizing a with
  | nil => exact fun out hout => absurd hout List.not_mem_nil
  | cons cs bs ih =>
      rw [List.forall_mem_cons] at hsustain
      obtain ⟨hnext, hout⟩ := hsound.process hsustain.1
      exact List.forall_mem_cons.mpr ⟨hout, ih hsustain.2 _ hnext⟩

/-- A note of two blocks with its release in a third, which is cut short by the next note;
the attack is turned up and the sustain level down on the way. -/
theorem level_in_unit_note : (0 : ℝ) < 48000 ∧
    ∀ out ∈ (blocks [List.replicate 128 ⟨1, 0.001, 0.1, 1 / 2, 0.1⟩,
        List.replicate 128 ⟨1, 0.5, 0.1, 1 / 4, 0.1⟩, List.replicate 64 ⟨0, 0.5, 0.1, 1 / 4, 0⟩
          ++ List.replicate 64 ⟨1, 0, 0.1, 1 / 4, 0⟩]
        (set_sample_rate 48000 (new : Adsr ℝ))).1,
      ∀ x ∈ out, 0 ≤ x ∧ x ≤ 1 := by
  have hrate : (0 : ℝ) < 48000 := by norm_num
  refine ⟨hrate, level_in_unit hrate ?_⟩
  simp only [List.forall_mem_cons, List.forall_mem_append]
  refine ⟨?_, ?_, ⟨?_, ?_⟩, fun cs hcs => absurd hcs List.not_mem_nil⟩ <;>
  · intro c hc
    rw [List.eq_of_mem_replicate hc]
    norm_num

/-! ## Release -/

/-- What is left of a level after a sample of the longest release. -/
noncomputable def fade (rate time : ℝ) : ℝ := Real.exp (-3 / ((time + 0.0001) * rate))

/-- A factor in use is no larger than the one of the longest release. -/
theorem Computed.coeff_le_fade {rate coeff last time : ℝ} (h : Computed rate coeff_of coeff last)
    (hlast : last ≤ time + 0.0001) (hpos : 0 ≤ time) : coeff ≤ fade rate time := by
  obtain ⟨sr, hsr, hrate, rfl⟩ := h
  exact coeff_le hsr hrate hlast (by linarith only [hpos])

/-- After so many samples less than `1 / least` is left. -/
theorem fade_pow_lt {rate time least : ℝ} {n : ℕ} (hrate : 0 < rate) (htime : 0 ≤ time)
    (hleast : 0 < least) (hn : (time + 0.0001) * rate * Real.log least < 3 * n) :
    fade rate time ^ n < 1 / least := by
  have hpos : 0 < (time + 0.0001) * rate := mul_pos (by linarith only [htime]) hrate
  have hinv : 1 / least = Real.exp (-Real.log least) := by
    rw [Real.exp_neg, Real.exp_log hleast, one_div]
  rw [fade, ← Real.exp_nat_mul, hinv]
  apply Real.exp_lt_exp.mpr
  have hdiv : Real.log least < 3 * n / ((time + 0.0001) * rate) := by
    rw [lt_div_iff₀ hpos]
    linarith only [hn]
  calc (n : ℝ) * (-3 / ((time + 0.0001) * rate))
      = -(3 * n / ((time + 0.0001) * rate)) := by ring
    _ < -Real.log least := neg_lt_neg hdiv

/-- The envelope with which a sample moves the level: the times and the gate are read. -/
structure Reads (rate : ℝ) (c : Controls ℝ) (a b : Adsr ℝ) : Prop where
  sound : Sound rate b
  level : b.current_level = a.current_level
  gate : b.last_gate = c.gate
  attack : b.last_attack ≤ c.attack + 0.0001
  decay : b.last_decay ≤ c.decay + 0.0001
  release : b.last_release ≤ c.release + 0.0001
  state : b.state = if 1 / 2 ≤ c.gate ∧ a.last_gate < 1 / 2 then .Attack
    else if c.gate < 1 / 2 ∧ 1 / 2 ≤ a.last_gate then .Release else a.state

/-- A sample reads times and gate, and then moves the level. -/
theorem sample_reads {rate : ℝ} {a : Adsr ℝ} (h : Sound rate a) (c : Controls ℝ) :
    ∃ b, Reads rate c a b ∧ Advances c.sustain b (sample false c a) := by
  refine ⟨follow_gate false c.gate (recalc c.attack c.decay c.release a), ?_,
    advance_advances c.sustain _⟩
  refine ⟨h.recalc.follow_gate c.gate, ?_, ?_, ?_, ?_, ?_, ?_⟩
  · rw [follow_gate_eq, recalc_eq]
  · rw [follow_gate_eq]
  · rw [follow_gate_eq, recalc_eq]
    exact (h.attack.renew h.sample_rate).2
  · rw [follow_gate_eq, recalc_eq]
    exact (h.decay.renew h.sample_rate).2
  · rw [follow_gate_eq, recalc_eq]
    exact (h.release.renew h.sample_rate).2
  · rw [follow_gate_eq, recalc_eq]

/-- A sample with the gate closed: silence, or a part of the level. -/
theorem release_sample {rate time : ℝ} {a : Adsr ℝ} {c : Controls ℝ} (h : Sound rate a)
    (hgate : c.gate < 1 / 2) (hrelease : c.release ≤ time) (htime : 0 ≤ time) :
    ((sample false c a).state = .Idle ∧ (sample false c a).current_level = 0)
      ∨ (0.0001 ≤ (sample false c a).current_level
        ∧ (sample false c a).current_level ≤ a.current_level * fade rate time) := by
  obtain ⟨b, hb, hmoved⟩ := sample_reads h c
  have hclosed : ¬ b.state.Open := by
    rw [hb.sound.gate, hb.gate]
    exact not_le.mpr hgate
  have hcoeff : b.release_coeff ≤ fade rate time :=
    hb.sound.release.coeff_le_fade (hb.release.trans (by linarith only [hrelease])) htime
  generalize sample false c a = d at hmoved ⊢
  cases hmoved with
  | idle hstate => exact Or.inl ⟨hstate, rfl⟩
  | fading hstate hhigh =>
      refine Or.inr ⟨hhigh, ?_⟩
      rw [← hb.level]
      exact mul_le_mul_of_nonneg_left hcoeff hb.sound.level.1
  | silent hstate hlow => exact Or.inl ⟨rfl, rfl⟩
  | rising hstate hlow => exact absurd (hstate ▸ trivial) hclosed
  | peak hstate hhigh => exact absurd (hstate ▸ trivial) hclosed
  | falling hstate hfar => exact absurd (hstate ▸ trivial) hclosed
  | settled hstate hnear => exact absurd (hstate ▸ trivial) hclosed
  | held hstate => exact absurd (hstate ▸ trivial) hclosed

/-- One sample more, at the end. -/
theorem after_snoc (cs : List (Controls ℝ)) (c : Controls ℝ) (a : Adsr ℝ) :
    after (cs ++ [c]) a = sample false c (after cs a) := after_append cs [c] a

theorem fade_nonneg (rate time : ℝ) : 0 ≤ fade rate time := (Real.exp_pos _).le

/-- What a closed gate does sample by sample. -/
theorem release_run {rate time : ℝ} {a : Adsr ℝ} {cs : List (Controls ℝ)} (h : Sound rate a)
    (hsustain : ∀ c ∈ cs, 0 ≤ c.sustain ∧ c.sustain ≤ 1) (hgate : ∀ c ∈ cs, c.gate < 1 / 2)
    (hrelease : ∀ c ∈ cs, c.release ≤ time) (htime : 0 ≤ time) :
    (after cs a).current_level ≤ fade rate time ^ cs.length ∧ (cs ≠ [] →
      ((after cs a).state = .Idle ∧ (after cs a).current_level = 0)
        ∨ 0.0001 ≤ (after cs a).current_level) := by
  induction cs using List.reverseRecOn with
  | nil => exact ⟨h.level.2.trans_eq (pow_zero _).symm, fun hne => absurd rfl hne⟩
  | append_singleton cs c ih =>
      rw [List.forall_mem_append, List.forall_mem_singleton] at hsustain hgate hrelease
      obtain ⟨hle, -⟩ := ih hsustain.1 hgate.1 hrelease.1
      have hq := fade_nonneg rate time
      rw [after_snoc, List.length_append, List.length_singleton, pow_succ]
      rcases release_sample (h.after hsustain.1) hgate.2 hrelease.2 htime with
        ⟨hstate, hzero⟩ | ⟨hlow, hfade⟩
      · exact ⟨hzero.trans_le (mul_nonneg (pow_nonneg hq _) hq), fun _ => Or.inl ⟨hstate, hzero⟩⟩
      · exact ⟨hfade.trans (mul_le_mul_of_nonneg_right hle hq), fun _ => Or.inr hlow⟩

/-- **A closed gate ends in silence**: the level is zero, and the envelope idle, once the
gate was closed for about three times the longest release. -/
theorem goes_silent {rate time : ℝ} {a : Adsr ℝ} {cs : List (Controls ℝ)} (h : Sound rate a)
    (hsustain : ∀ c ∈ cs, 0 ≤ c.sustain ∧ c.sustain ≤ 1) (hgate : ∀ c ∈ cs, c.gate < 1 / 2)
    (hrelease : ∀ c ∈ cs, c.release ≤ time) (htime : 0 ≤ time)
    (hlong : (time + 0.0001) * rate * Real.log 10000 < 3 * cs.length) :
    (after cs a).state = .Idle ∧ (after cs a).current_level = 0 := by
  have hrate : 0 < rate := h.sample_rate.1.trans_le h.sample_rate.2
  have hne : cs ≠ [] := by
    rintro rfl
    have hlog : 0 ≤ Real.log 10000 := Real.log_nonneg (by norm_num)
    have hpos : 0 ≤ (time + 0.0001) * rate * Real.log 10000 :=
      mul_nonneg (mul_nonneg (by linarith only [htime]) hrate.le) hlog
    rw [List.length_nil, Nat.cast_zero, mul_zero] at hlong
    exact absurd hlong (not_lt.mpr hpos)
  obtain ⟨hle, hend⟩ := release_run h hsustain hgate hrelease htime
  have hsmall := fade_pow_lt hrate htime (by norm_num) hlong
  rcases hend hne with hsilent | hlow
  · exact hsilent
  · exfalso
    norm_num at hlow hsmall
    linarith only [hle, hlow, hsmall]

/-! ## Attack -/

/-- What a sample of the longest attack adds. -/
noncomputable def climb (rate time : ℝ) : ℝ := min 1 (1 / ((time + 0.0001) * rate))

/-- A step in use is no smaller than the one of the longest attack. -/
theorem Computed.climb_le {rate step last time : ℝ} (h : Computed rate attack_step_of step last)
    (hlast : last ≤ time + 0.0001) (hpos : 0 ≤ time) : climb rate time ≤ step := by
  obtain ⟨sr, hsr, hrate, rfl⟩ := h
  exact attack_step_ge hsr hrate hlast (by linarith only [hpos])

/-- Steps of the longest attack that add up to one. -/
theorem climb_mul_ge {rate time : ℝ} {n : ℕ} (hrate : 0 < rate) (htime : 0 ≤ time) (hone : 1 ≤ n)
    (hn : (time + 0.0001) * rate ≤ n) : 1 ≤ n * climb rate time := by
  have hpos : 0 < (time + 0.0001) * rate := mul_pos (by linarith only [htime]) hrate
  have hcast : (1 : ℝ) ≤ n := by exact_mod_cast hone
  unfold climb
  rcases min_cases (1 : ℝ) (1 / ((time + 0.0001) * rate)) with ⟨heq, -⟩ | ⟨heq, -⟩
  · rw [heq, mul_one]
    exact hcast
  · rw [heq, mul_one_div, le_div_iff₀ hpos, one_mul]
    exact hn

/-- Past the attack, with the gate open. -/
def Past (a : Adsr ℝ) : Prop := a.state = .Decay ∨ a.state = .Sustain

/-- An open gate leaves what is past the attack where it is. -/
theorem Reads.past {rate : ℝ} {c : Controls ℝ} {a b : Adsr ℝ} (hb : Reads rate c a b)
    (h : Sound rate a) (hgate : 1 / 2 ≤ c.gate) (hpast : Past a) : Past b := by
  have hlast : 1 / 2 ≤ a.last_gate := by
    rw [← h.gate]
    rcases hpast with hstate | hstate
    · rw [hstate]
      trivial
    · rw [hstate]
      trivial
  have hstate := hb.state
  rw [if_neg fun hup => absurd hlast (not_le.mpr hup.2),
    if_neg fun hdown => absurd hgate (not_le.mpr hdown.1)] at hstate
  unfold Past
  rw [hstate]
  exact hpast

/-- A sample with the gate open: past the attack, or higher than before. -/
theorem attack_sample {rate time : ℝ} {a : Adsr ℝ} {c : Controls ℝ} (h : Sound rate a)
    (hgate : 1 / 2 ≤ c.gate) (hattack : c.attack ≤ time) (htime : 0 ≤ time) :
    Past (sample false c a) ∨ (¬ Past a
      ∧ a.current_level + climb rate time ≤ (sample false c a).current_level
      ∧ (sample false c a).current_level < 1) := by
  obtain ⟨b, hb, hmoved⟩ := sample_reads h c
  have hopen : b.state.Open := by
    rw [hb.sound.gate, hb.gate]
    exact hgate
  have hstep : climb rate time ≤ b.attack_step :=
    hb.sound.attack.climb_le (hb.attack.trans (by linarith only [hattack])) htime
  generalize sample false c a = d at hmoved ⊢
  cases hmoved with
  | rising hstate hlow =>
      refine Or.inr ⟨?_, ?_, hlow⟩
      · -- a rising level is not past the attack, and was not before
        intro hpast
        rcases hb.past h hgate hpast with hother | hother
        · cases hstate.symm.trans hother
        · cases hstate.symm.trans hother
      · rw [← hb.level]
        exact add_le_add_right hstep b.current_level
  | peak hstate hhigh => exact Or.inl (Or.inl rfl)
  | falling hstate hfar => exact Or.inl (Or.inl hstate)
  | settled hstate hnear => exact Or.inl (Or.inr rfl)
  | held hstate => exact Or.inl (Or.inr hstate)
  -- the other states are those of a released key
  | idle hstate =>
      rw [hstate] at hopen
      exact hopen.elim
  | fading hstate hhigh =>
      rw [hstate] at hopen
      exact hopen.elim
  | silent hstate hlow =>
      rw [hstate] at hopen
      exact hopen.elim

/-- **An open gate ends the attack** once it was open for the longest attack. -/
theorem goes_past {rate time : ℝ} {a : Adsr ℝ} {cs : List (Controls ℝ)} (h : Sound rate a)
    (hsustain : ∀ c ∈ cs, 0 ≤ c.sustain ∧ c.sustain ≤ 1) (hgate : ∀ c ∈ cs, 1 / 2 ≤ c.gate)
    (hattack : ∀ c ∈ cs, c.attack ≤ time) (htime : 0 ≤ time) (hone : 1 ≤ cs.length)
    (hlong : (time + 0.0001) * rate ≤ cs.length) : Past (after cs a) := by
  -- sample by sample
  have hrun : ∀ ds, ds <+: cs → ds ≠ [] → Past (after ds a)
      ∨ (ds.length * climb rate time ≤ (after ds a).current_level
        ∧ (after ds a).current_level < 1) := by
    intro ds
    induction ds using List.reverseRecOn with
    | nil => exact fun _ hne => absurd rfl hne
    | append_singleton ds c ih =>
        intro hprefix _
        have hmem : ∀ x ∈ ds ++ [c], x ∈ cs := fun x hx => hprefix.subset hx
        have hds : ∀ x ∈ ds, x ∈ cs := fun x hx => hmem x (List.mem_append_left _ hx)
        have hc := hmem c (List.mem_append_right _ List.mem_cons_self)
        have hsound := h.after fun x hx => hsustain x (hds x hx)
        rw [after_snoc]
        rcases attack_sample hsound (hgate c hc) (hattack c hc) htime with hpast | ⟨hnot, hup, hlow⟩
        · exact Or.inl hpast
        · refine Or.inr ⟨?_, hlow⟩
          have hbefore : ds.length * climb rate time ≤ (after ds a).current_level := by
            rcases List.eq_nil_or_concat ds with rfl | ⟨es, e, rfl⟩
            · rw [List.length_nil, Nat.cast_zero, zero_mul]
              exact h.level.1
            · have hrec := ih ((List.prefix_append _ _).trans hprefix) (by simp)
              exact (hrec.resolve_left hnot).1
          rw [List.length_append, List.length_singleton, Nat.cast_add, Nat.cast_one, add_mul, one_mul]
          linarith only [hbefore, hup]
  have hrate : 0 < rate := h.sample_rate.1.trans_le h.sample_rate.2
  rcases hrun cs List.prefix_rfl (List.ne_nil_of_length_pos hone) with hpast | ⟨hhigh, hlow⟩
  · exact hpast
  · have hfull := climb_mul_ge hrate htime hone hlong
    exact absurd (hfull.trans hhigh) (not_le.mpr hlow)

/-! ## Decay -/

/-- A sample past the attack: at the target, or nearer to it. -/
theorem decay_sample {rate time : ℝ} {a : Adsr ℝ} {c : Controls ℝ} (h : Sound rate a)
    (hpast : Past a) (hgate : 1 / 2 ≤ c.gate) (hdecay : c.decay ≤ time) (htime : 0 ≤ time) :
    ((sample false c a).state = .Sustain ∧ (sample false c a).current_level = c.sustain)
      ∨ ((sample false c a).state = .Decay
        ∧ 0.001 ≤ |(sample false c a).current_level - c.sustain|
        ∧ |(sample false c a).current_level - c.sustain|
          ≤ |a.current_level - c.sustain| * fade rate time) := by
  obtain ⟨b, hb, hmoved⟩ := sample_reads h c
  have hcoeff : b.decay_coeff ≤ fade rate time :=
    hb.sound.decay.coeff_le_fade (hb.decay.trans (by linarith only [hdecay])) htime
  -- the key is held and past its attack, so two states are left
  have hstill : ∀ st, b.state = st → st = .Decay ∨ st = .Sustain := by
    rintro st rfl
    exact hb.past h hgate hpast
  generalize sample false c a = d at hmoved ⊢
  cases hmoved with
  | falling hstate hfar =>
      refine Or.inr ⟨hstate, ?_, ?_⟩
      · show 0.001 ≤ |c.sustain + (b.current_level - c.sustain) * b.decay_coeff - c.sustain|
        rw [add_sub_cancel_left]
        exact hfar
      · show |c.sustain + (b.current_level - c.sustain) * b.decay_coeff - c.sustain| ≤ _
        rw [add_sub_cancel_left, abs_mul, hb.level, abs_of_nonneg hb.sound.decay.coeff_mem.1]
        exact mul_le_mul_of_nonneg_left hcoeff (abs_nonneg _)
  | settled hstate hnear => exact Or.inl ⟨rfl, rfl⟩
  | held hstate => exact Or.inl ⟨hstate, rfl⟩
  | rising hstate hlow => exact absurd (hstill _ hstate) (by simp)
  | peak hstate hhigh => exact absurd (hstill _ hstate) (by simp)
  | idle hstate => exact absurd (hstill _ hstate) (by simp)
  | fading hstate hhigh => exact absurd (hstill _ hstate) (by simp)
  | silent hstate hlow => exact absurd (hstill _ hstate) (by simp)

/-- What an open gate does past the attack, sample by sample. -/
theorem decay_run {rate time sustain : ℝ} {a : Adsr ℝ} {cs : List (Controls ℝ)} (h : Sound rate a)
    (hpast : Past a) (hunit : 0 ≤ sustain ∧ sustain ≤ 1) (hsustain : ∀ c ∈ cs, c.sustain = sustain)
    (hgate : ∀ c ∈ cs, 1 / 2 ≤ c.gate) (hdecay : ∀ c ∈ cs, c.decay ≤ time) (htime : 0 ≤ time) :
    Past (after cs a) ∧ |(after cs a).current_level - sustain| ≤ fade rate time ^ cs.length
      ∧ (cs ≠ [] → ((after cs a).state = .Sustain ∧ (after cs a).current_level = sustain)
        ∨ 0.001 ≤ |(after cs a).current_level - sustain|) := by
  induction cs using List.reverseRecOn with
  | nil =>
      refine ⟨hpast, ?_, fun hne => absurd rfl hne⟩
      rw [List.length_nil, pow_zero]
      show |a.current_level - sustain| ≤ 1
      exact abs_le.mpr ⟨by linarith only [h.level.1, hunit.2], by linarith only [h.level.2, hunit.1]⟩
  | append_singleton cs c ih =>
      rw [List.forall_mem_append, List.forall_mem_singleton] at hsustain hgate hdecay
      -- the factor of one more sample
      obtain ⟨hbefore, hle, -⟩ := ih hsustain.1 hgate.1 hdecay.1
      have hq := fade_nonneg rate time
      have hsound : Sound rate (after cs a) := h.after fun x hx => by
        rw [hsustain.1 x hx]
        exact hunit
      have hstep := decay_sample hsound hbefore hgate.2 hdecay.2 htime
      rw [hsustain.2] at hstep
      rw [after_snoc, List.length_append, List.length_singleton, pow_succ]
      rcases hstep with ⟨hstate, hlevel⟩ | ⟨hstate, hfar, hnear⟩
      · refine ⟨Or.inr hstate, ?_, fun _ => Or.inl ⟨hstate, hlevel⟩⟩
        rw [hlevel, sub_self, abs_zero]
        exact mul_nonneg (pow_nonneg hq _) hq
      · exact ⟨Or.inl hstate, hnear.trans (mul_le_mul_of_nonneg_right hle hq), fun _ => Or.inr hfar⟩

/-- An open gate comes to the sustain level: the attack is over once the gate was open for
the longest attack, and the level is there exactly after about 2.3 times the longest
decay. -/
theorem comes_to_sustain {rate attack decay sustain : ℝ} {a : Adsr ℝ} {cs ds : List (Controls ℝ)}
    (h : Sound rate a) (hunit : 0 ≤ sustain ∧ sustain ≤ 1)
    (hsustain : ∀ c ∈ cs, 0 ≤ c.sustain ∧ c.sustain ≤ 1) (hsteady : ∀ c ∈ ds, c.sustain = sustain)
    (hgate : ∀ c ∈ cs ++ ds, 1 / 2 ≤ c.gate) (hattack : ∀ c ∈ cs, c.attack ≤ attack)
    (hdecay : ∀ c ∈ ds, c.decay ≤ decay) (hpos : 0 ≤ attack ∧ 0 ≤ decay) (hone : 1 ≤ cs.length)
    (hcs : (attack + 0.0001) * rate ≤ cs.length)
    (hds : (decay + 0.0001) * rate * Real.log 1000 < 3 * ds.length) :
    (after (cs ++ ds) a).state = .Sustain ∧ (after (cs ++ ds) a).current_level = sustain := by
  rw [List.forall_mem_append] at hgate
  have hrate : 0 < rate := h.sample_rate.1.trans_le h.sample_rate.2
  have hpast := goes_past h hsustain hgate.1 hattack hpos.1 hone hcs
  have hne : ds ≠ [] := by
    rintro rfl
    have hlog : 0 ≤ Real.log 1000 := Real.log_nonneg (by norm_num)
    have hzero : 0 ≤ (decay + 0.0001) * rate * Real.log 1000 :=
      mul_nonneg (mul_nonneg (by linarith only [hpos.2]) hrate.le) hlog
    rw [List.length_nil, Nat.cast_zero, mul_zero] at hds
    exact absurd hds (not_lt.mpr hzero)
  obtain ⟨-, hle, hend⟩ := decay_run (h.after hsustain) hpast hunit hsteady hgate.2 hdecay hpos.2
  -- near enough to snap, which `hfar` denies
  have hsmall := fade_pow_lt hrate hpos.2 (by norm_num) hds
  rw [after_append]
  rcases hend hne with hdone | hfar
  · exact hdone
  · exfalso
    norm_num at hfar hsmall
    linarith only [hle, hfar, hsmall]

/-- **A held note comes to its sustain level**, whatever came before it. The attack has the
samples of its longest time, one at least, and the decay as many as bring it within 0.001
of the level, from where it snaps. To both times 0.0001 is added, within which a time is
not computed again, and the rate is the 44100 of a new envelope where that is higher. -/
theorem held_note_sustains {sample_rate attack decay sustain : ℝ} {past cs ds : List (Controls ℝ)}
    (hrate : 0 < sample_rate) (hunit : 0 ≤ sustain ∧ sustain ≤ 1)
    (hsustain : ∀ c ∈ past ++ cs, 0 ≤ c.sustain ∧ c.sustain ≤ 1)
    (hsteady : ∀ c ∈ ds, c.sustain = sustain) (hgate : ∀ c ∈ cs ++ ds, 1 / 2 ≤ c.gate)
    (hattack : ∀ c ∈ cs, c.attack ≤ attack) (hdecay : ∀ c ∈ ds, c.decay ≤ decay)
    (hpos : 0 ≤ attack ∧ 0 ≤ decay) (hone : 1 ≤ cs.length)
    (hcs : (attack + 0.0001) * max sample_rate 44100 ≤ cs.length)
    (hds : (decay + 0.0001) * max sample_rate 44100 * Real.log 1000 < 3 * ds.length) :
    (after (past ++ (cs ++ ds)) (set_sample_rate sample_rate new)).state = .Sustain
      ∧ (after (past ++ (cs ++ ds)) (set_sample_rate sample_rate new)).current_level = sustain := by
  rw [List.forall_mem_append] at hsustain
  rw [after_append]
  exact comes_to_sustain ((Sound.new hrate).after hsustain.1) hunit hsustain.2 hsteady hgate hattack
    hdecay hpos hone hcs hds

/-- A note without attack and decay. -/
theorem held_note_sustains_plucked :
    (after ([] ++ (List.replicate 5 ⟨1, 0, 0, 1 / 2, 0⟩ ++ List.replicate 12 ⟨1, 0, 0, 1 / 2, 0⟩))
      (set_sample_rate 48000 (new : Adsr ℝ))).current_level = 1 / 2 := by
  have hlog : Real.log 1000 ≤ 7 := by
    have hpow : Real.log 1000 ≤ Real.log (2 ^ 10) := Real.log_le_log (by norm_num) (by norm_num)
    rw [Real.log_pow] at hpow
    push_cast at hpow
    linarith only [Real.log_two_lt_d9, hpow]
  have hrate : max (48000 : ℝ) 44100 = 48000 := max_eq_left (by norm_num)
  have hcs : (0 + 0.0001 : ℝ) * max 48000 44100
      ≤ (List.replicate 5 (⟨1, 0, 0, 1 / 2, 0⟩ : Controls ℝ)).length := by
    rw [hrate, List.length_replicate]
    norm_num
  have hds : (0 + 0.0001 : ℝ) * max 48000 44100 * Real.log 1000
      < 3 * (List.replicate 12 (⟨1, 0, 0, 1 / 2, 0⟩ : Controls ℝ)).length := by
    rw [hrate, List.length_replicate]
    push_cast
    linarith only [hlog]
  refine (held_note_sustains (by norm_num) (by norm_num) ?_ ?_ ?_ ?_ ?_ ⟨le_refl 0, le_refl 0⟩
    (by decide) hcs hds).2
  · intro c hc
    rw [List.eq_of_mem_replicate hc]
    norm_num
  · intro c hc
    rw [List.eq_of_mem_replicate hc]
  · intro c hc
    rw [← List.replicate_add] at hc
    rw [List.eq_of_mem_replicate hc]
    norm_num
  · intro c hc
    rw [List.eq_of_mem_replicate hc]
  · intro c hc
    rw [List.eq_of_mem_replicate hc]

end Adsr

end PicoDsp
