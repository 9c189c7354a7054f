/-
The oscillators of a voice and its LFO (`synthesis/oscillator.rs` and `synthesis/lfo.rs` of
`vendor/infinitedsp-core`).

A sample moves the phase by the frequency over the rate and brings it back by one turn at
most. That is enough for frequencies up to the sample rate: then the phase stays within a
turn and no wave leaves the range from -1 to 1. Above the sample rate the phase runs away.
The noise does not look at the phase; it goes through all states of its generator.

The frequencies of a block are those that the pitch node fills in. A lane of the vectors of
four does what a sample of the remainder does, so a block is one run over its samples.

That no wave clips is not plain for those with corrected edges. `poly_blep` rounds
the edges of the saw and the square off by two squares, one before and one behind the edge,
and is added to a wave that is already at the end of the range there. What saves the range
is that the correction points back into it and is largest at the edge itself
(`poly_blep_cases`, `saw_le`); the square has two edges half a turn apart, and its two
corrections never add up (`poly_blep_early`, `poly_blep_half`). The increment may be as
large as a turn, where each correction spreads over all of it.

The sine is a series of four terms with the angle folded to a quarter turn. It stays below
the sine, so it cannot clip, and its error is largest at the quarter turn, where it is
about fifteen times what the comment of the source says (`taylor_bounds`).

The noise is a linear congruential generator modulo `2 ^ 32`; that it is even over a period
is `Lib/Lcg.lean`, and that a level is fifteen of the state's bits is `card_level`.
-/
import PicoDsp.Lib.Lcg
import PicoDsp.Lib.Stable
import PicoDsp.Data.Presets
import PicoDsp.Control.MidiControl

set_option autoImplicit false

namespace PicoDsp.Synthesis

open Lib Lib.Machine

structure Oscillator (K : Type) where
  phase : K
  waveform : Waveform
  sample_rate : K
  rng_state : UInt32

structure Lfo (K : Type) where
  phase : K
  waveform : LfoWaveform
  min : K
  max : K
  sample_rate : K
  rng_state : UInt32
  last_sh_value : K
  sh_triggered : Bool

section

variable {K : Type} [Field K] [LinearOrder K]

/-- The remainder of `f32`, which has the sign of the number. -/
def fmod [FloorRing K] (x y : K) : K :=
  if 0 ≤ x / y then x - ⌊x / y⌋ * y else x - ⌈x / y⌉ * y

omit [LinearOrder K] in
/-- A step of the generator, and the number it makes of the state. -/
def next_random (rng_state : UInt32) : K × UInt32 :=
  let rng_state := rng_state * 1103515245 + 12345
  let val := (rng_state >>> 16) &&& 0x7FFF
  ((val.toNat : K) / 32768.0 * 2.0 - 1.0, rng_state)

/-- `phase += inc`, and a turn back. -/
def advance (inc phase : K) : K :=
  let phase := phase + inc
  if 1.0 ≤ phase then phase - 1.0
  else if phase < 0.0 then phase + 1.0
  else phase

namespace Oscillator

omit [LinearOrder K] in
def new (waveform : Waveform) : Oscillator K where
  phase := 0.0
  waveform := waveform
  sample_rate := 44100.0
  rng_state := 12345

omit [Field K] [LinearOrder K] in
def set_sample_rate (sample_rate : K) (self : Oscillator K) : Oscillator K :=
  { self with sample_rate := sample_rate }

omit [LinearOrder K] in
def reset (self : Oscillator K) : Oscillator K := { self with phase := 0.0 }

def poly_blep (t dt : K) : K :=
  if t < dt then
    let t := t / dt
    t + t - t * t - 1.0
  else if 1.0 - dt < t then
    let t := (t - 1.0) / dt
    t * t + t + t + 1.0
  else 0.0

def fast_sin_norm (phase : K) : K :=
  let half_pi : K := PI * 0.5
  let two_pi : K := PI * 2.0
  let a := phase * two_pi
  let a := if PI ≤ a then a - two_pi else a
  let a := if half_pi < a then PI - a else if a < -half_pi then -PI - a else a
  let a2 := a * a
  a * (1.0 + a2 * (-1.0 / 6.0 + a2 * (1.0 / 120.0 + a2 * (-1.0 / 5040.0))))

def triangle (x : K) : K := if x < 0.5 then 4.0 * x - 1.0 else 4.0 * (1.0 - x) - 1.0

def saw (phase dt : K) : K := 2.0 * phase - 1.0 - poly_blep phase dt

def square [FloorRing K] (phase dt : K) : K :=
  let naive : K := if phase < 0.5 then 1.0 else -1.0
  let corr := poly_blep phase dt - poly_blep (fmod (phase + 0.5) 1.0) dt
  naive + corr

/-- One sample at a frequency. -/
def sample [FloorRing K] : Machine (Oscillator K) K K := fun freq self =>
  let inc := freq * (1.0 / self.sample_rate)
  let phase := advance inc self.phase
  match self.waveform with
  | .Sine => (fast_sin_norm phase, { self with phase := phase })
  | .Triangle => (triangle phase, { self with phase := phase })
  | .Saw => (saw phase |inc|, { self with phase := phase })
  | .Square => (square phase |inc|, { self with phase := phase })
  | .WhiteNoise =>
      let drawn := next_random self.rng_state
      (drawn.1, { self with rng_state := drawn.2 })

/-- The frequencies of a block, and what comes out. -/
def process [FloorRing K] : List K → Oscillator K → List K × Oscillator K := run sample

/-- A stream of blocks. -/
def blocks [FloorRing K] : List (List K) → Oscillator K → List (List K) × Oscillator K :=
  run process

end Oscillator

namespace Lfo

omit [LinearOrder K] in
def new (waveform : LfoWaveform) : Lfo K where
  phase := 0.0
  waveform := waveform
  min := -1.0
  max := 1.0
  sample_rate := 44100.0
  rng_state := 12345
  last_sh_value := 0.0
  sh_triggered := false

omit [Field K] [LinearOrder K] in
def set_range (min max : K) (self : Lfo K) : Lfo K := { self with min := min, max := max }

omit [Field K] [LinearOrder K] in
def set_sample_rate (sample_rate : K) (self : Lfo K) : Lfo K :=
  { self with sample_rate := sample_rate }

omit [LinearOrder K] in
def reset (self : Lfo K) : Lfo K := { self with phase := 0.0, sh_triggered := false }

/-- The phase after a sample; a turn lets the sample-and-hold draw again. -/
def turn (freq : K) (self : Lfo K) : Lfo K :=
  let phase := self.phase + freq / self.sample_rate
  if 1.0 ≤ phase then { self with phase := phase - 1.0, sh_triggered := false }
  else if phase < 0.0 then { self with phase := phase + 1.0 }
  else { self with phase := phase }

/-- A number is drawn unless there is one already. -/
def hold (self : Lfo K) : Lfo K :=
  if self.sh_triggered then self
  else
    let drawn := next_random self.rng_state
    { self with last_sh_value := drawn.1, rng_state := drawn.2, sh_triggered := true }

/-- The wave at the phase before the sample. -/
def raw (current_phase : K) (self : Lfo K) : K × Lfo K :=
  match self.waveform with
  | .Sine =>
      let t := current_phase * 2.0 - 1.0
      let t := 2.0 * |t| - 1.0
      (t * (1.5 - 0.5 * t * t), self)
  | .Triangle =>
      let t := current_phase * 2.0 - 1.0
      (2.0 * |t| - 1.0, self)
  | .Saw => (2.0 * current_phase - 1.0, self)
  | .Square => (if current_phase < 0.5 then 1.0 else -1.0, self)
  | .SampleAndHold =>
      let self := hold self
      (self.last_sh_value, self)

def sample : Machine (Lfo K) K K := fun freq self =>
  let range := self.max - self.min
  let offset := self.min
  let (raw, self) := raw self.phase (turn freq self)
  let normalized := (raw + 1.0) * 0.5
  (offset + normalized * range, self)

def process : List K → Lfo K → List K × Lfo K := run sample

/-- A stream of blocks. -/
def blocks : List (List K) → Lfo K → List (List K) × Lfo K := run process

end Lfo

end

/-! ## The phase -/

section

variable {K : Type} [Field K] [LinearOrder K] [IsStrictOrderedRing K] {inc p t dt : K}

/-- The phase over an ordered field: the source's two comparisons. -/
theorem advance_eq (inc p : K) :
    advance inc p
      = if 1 ≤ p + inc then p + inc - 1 else if p + inc < 0 then p + inc + 1 else p + inc := by
  unfold advance
  norm_num

/-- **Up to a turn a sample the phase stays within a turn.** -/
theorem advance_mem (hinc : |inc| ≤ 1) (hp : 0 ≤ p ∧ p < 1) :
    0 ≤ advance inc p ∧ advance inc p < 1 := by
  obtain ⟨hlow, hhigh⟩ := abs_le.mp hinc
  obtain ⟨hp, hp1⟩ := hp
  rw [advance_eq]
  split
  · rename_i hturn
    exact ⟨sub_nonneg.mpr hturn, by linarith⟩
  · rename_i hturn
    split
    · rename_i hneg
      exact ⟨by linarith, by linarith⟩
    · rename_i hneg
      exact ⟨not_lt.mp hneg, not_le.mp hturn⟩

/-- The increment of a frequency. -/
theorem abs_inc_le {freq sample_rate : K} (hrate : 0 < sample_rate) :
    |freq * (1.0 / sample_rate)| ≤ 1 ↔ |freq| ≤ sample_rate := by
  have hinc : freq * (1.0 / sample_rate) = freq / sample_rate := by
    norm_num
    rw [div_eq_mul_inv]
  rw [hinc, abs_div, abs_of_pos hrate, div_le_one hrate]

/-! ## The correction of an edge -/

namespace Oscillator

/-- The correction over an ordered field, as two squares. -/
theorem poly_blep_eq (t dt : K) :
    poly_blep t dt
      = if t < dt then -(1 - t / dt) ^ 2 else if 1 - dt < t then (1 + (t - 1) / dt) ^ 2 else 0 := by
  unfold poly_blep
  norm_num
  congr 2
  · ring
  · ring

/-- What is added near an edge: a square that has come down to nothing after `dt`. -/
theorem poly_blep_cases (ht : 0 ≤ t) (ht1 : t ≤ 1) (hdt : 0 ≤ dt) :
    (∃ u, 0 ≤ u ∧ u ≤ 1 ∧ t < dt ∧ u * dt = dt - t ∧ poly_blep t dt = -u ^ 2)
      ∨ (∃ u, 0 ≤ u ∧ u ≤ 1 ∧ dt ≤ t ∧ 1 - dt < t ∧ poly_blep t dt = u ^ 2)
      ∨ (dt ≤ t ∧ poly_blep t dt = 0) := by
  rw [poly_blep_eq]
  split
  · rename_i hleft
    have hpos : 0 < dt := ht.trans_lt hleft
    refine Or.inl ⟨1 - t / dt, ?_, ?_, hleft, ?_, rfl⟩
    · exact sub_nonneg.mpr ((div_le_one hpos).mpr hleft.le)
    · exact sub_le_self 1 (div_nonneg ht hdt)
    · rw [sub_mul, one_mul, div_mul_cancel₀ t hpos.ne']
  · rename_i hleft
    split
    · rename_i hright
      have hpos : 0 < dt := by linarith
      have hpart : (t - 1) / dt ≤ 0 := div_nonpos_of_nonpos_of_nonneg (by linarith) hdt
      have hpart' : -1 ≤ (t - 1) / dt := by
        rw [le_div_iff₀ hpos]
        linarith
      exact Or.inr (Or.inl ⟨1 + (t - 1) / dt, by linarith, by linarith, not_lt.mp hleft, hright,
        rfl⟩)
    · exact Or.inr (Or.inr ⟨not_lt.mp hleft, rfl⟩)

/-- **The saw stays in range**, with its edge rounded off. -/
theorem saw_le (ht : 0 ≤ t) (ht1 : t < 1) (hdt : 0 ≤ dt) (hdt1 : dt ≤ 1) : |saw t dt| ≤ 1 := by
  have hsaw : saw t dt = 2 * t - 1 - poly_blep t dt := by
    unfold saw
    norm_num
  rw [hsaw, abs_le]
  rcases poly_blep_cases ht ht1.le hdt with ⟨u, hu, hu1, -, hudt, hblep⟩
    | ⟨u, hu, hu1, hle, hlt, hblep⟩ | ⟨-, hblep⟩
  · -- below the edge the square makes up for what the ramp lacks
    have hpart : (1 - u) * dt ≤ (1 - u) * 1 :=
      mul_le_mul_of_nonneg_left hdt1 (sub_nonneg.mpr hu1)
    have hsq := mul_le_mul_of_nonneg_left hu1 hu
    rw [hblep]
    constructor
    · linarith [sq_nonneg u]
    · nlinarith
  · have hsq : u ^ 2 ≤ 1 := pow_le_one₀ hu hu1
    rw [hblep]
    constructor
    · linarith
    · linarith [sq_nonneg u]
  · rw [hblep]
    constructor
    · linarith
    · linarith

/-- The triangle has no edge to round off. -/
theorem triangle_le (ht : 0 ≤ t) (ht1 : t < 1) : |triangle t| ≤ 1 := by
  unfold triangle
  norm_num
  rw [abs_le]
  split
  · constructor
    · linarith
    · linarith
  · constructor
    · linarith
    · linarith

/-- In the first half of a turn nothing is added. -/
theorem poly_blep_early (ht : 0 ≤ t) (ht2 : t < 1 / 2) (hdt : 0 ≤ dt) :
    -1 ≤ poly_blep t dt ∧ poly_blep t dt ≤ 0 := by
  rcases poly_blep_cases ht (by linarith : t ≤ 1) hdt with ⟨u, hu, hu1, -, -, hblep⟩
    | ⟨u, -, -, hle, hlt, -⟩ | ⟨-, hblep⟩
  · have hsq : u ^ 2 ≤ 1 := pow_le_one₀ hu hu1
    rw [hblep]
    exact ⟨neg_le_neg hsq, neg_nonpos.mpr (sq_nonneg u)⟩
  · linarith
  · rw [hblep]
    exact ⟨by linarith, le_refl 0⟩

/-- Half a turn on, the correction is no smaller. -/
theorem poly_blep_half (ht : 0 ≤ t) (ht2 : t < 1 / 2) (hdt : 0 ≤ dt) :
    -1 ≤ poly_blep t dt ∧ poly_blep t dt ≤ poly_blep (t + 1 / 2) dt
      ∧ poly_blep (t + 1 / 2) dt ≤ 1 := by
  obtain ⟨hlow, hneg⟩ := poly_blep_early ht ht2 hdt
  refine ⟨hlow, ?_⟩
  rcases poly_blep_cases (by linarith : 0 ≤ t + 1 / 2) (by linarith : t + 1 / 2 ≤ 1) hdt with
    ⟨w, hw, -, hlt, hwdt, hblep⟩ | ⟨w, hw, hw1, -, -, hblep⟩ | ⟨-, hblep⟩
  · -- then both are before the end of the correction
    rcases poly_blep_cases ht (by linarith : t ≤ 1) hdt with ⟨u, -, -, -, hudt, hfirst⟩
      | ⟨u, -, -, hle, -, -⟩ | ⟨hle, -⟩
    · have hpos : 0 < dt := by linarith
      have hwu : w ≤ u := le_of_mul_le_mul_right (by linarith) hpos
      have hsq : w ^ 2 ≤ u ^ 2 := pow_le_pow_left₀ hw hwu 2
      rw [hfirst, hblep]
      exact ⟨neg_le_neg hsq, by linarith [sq_nonneg w]⟩
    · linarith
    · linarith
  · rw [hblep]
    exact ⟨hneg.trans (sq_nonneg w), pow_le_one₀ hw hw1⟩
  · rw [hblep]
    exact ⟨hneg, zero_le_one⟩

/-- Half a turn on, within a turn. -/
theorem fmod_half [FloorRing K] (ht : 0 ≤ t) (ht1 : t < 1) :
    fmod (t + 0.5) 1.0 = if t < 1 / 2 then t + 1 / 2 else t - 1 / 2 := by
  have hnonneg : 0 ≤ (t + 1 / 2) / 1 := by
    rw [div_one]
    linarith
  unfold fmod
  norm_num at hnonneg ⊢
  rw [if_pos hnonneg]
  split
  · rename_i hlt
    exact Int.fract_eq_self.mpr ⟨hnonneg, by linarith⟩
  · rename_i hle
    refine Int.fract_eq_iff.mpr ⟨by linarith, by linarith, 1, ?_⟩
    rw [Int.cast_one]
    ring

/-- **The square stays in range.** At most one of its two corrections counts at a time. -/
theorem square_le [FloorRing K] (ht : 0 ≤ t) (ht1 : t < 1) (hdt : 0 ≤ dt) : |square t dt| ≤ 1 := by
  unfold square
  dsimp only
  rw [fmod_half ht ht1]
  norm_num
  rw [abs_le]
  split
  · rename_i hlt
    obtain ⟨hlow, hle, hhigh⟩ := poly_blep_half ht (by linarith) hdt
    constructor
    · linarith
    · linarith
  · rename_i hle
    obtain ⟨hlow, hle, hhigh⟩ := poly_blep_half (by linarith : 0 ≤ t - 1 / 2) (by linarith) hdt
    rw [sub_add_cancel] at hle hhigh
    constructor
    · linarith
    · linarith

end Oscillator

/-- A number of the generator lies between -1 and 1. -/
theorem next_random_le (rng_state : UInt32) : |(next_random rng_state : K × UInt32).1| ≤ 1 := by
  have hval : (((rng_state * 1103515245 + 12345) >>> 16) &&& 0x7FFF).toNat < 32768 := by
    rw [UInt32.toNat_and]
    exact Nat.and_lt_two_pow _ (by decide : (0x7FFF : UInt32).toNat < 2 ^ 15)
  unfold next_random
  dsimp only
  generalize (((rng_state * 1103515245 + 12345) >>> 16) &&& 0x7FFF).toNat = val at hval
  have hnonneg : (0 : K) ≤ (val : K) := Nat.cast_nonneg val
  have hlt : (val : K) < 32768 := by exact_mod_cast hval
  norm_num
  rw [abs_le]
  constructor
  · linarith
  · linarith

/-! ## The LFO -/

namespace Lfo

variable {self : Lfo K}

/-- What stays of an LFO: the phase within a turn, and the number that is held. -/
structure Sound (lo hi sample_rate : K) (lfo : Lfo K) : Prop where
  phase : 0 ≤ lfo.phase ∧ lfo.phase < 1
  held : |lfo.last_sh_value| ≤ 1
  min : lfo.min = lo
  max : lfo.max = hi
  sample_rate : lfo.sample_rate = sample_rate

/-- A turn of the LFO's phase. -/
theorem turn_sound {lo hi sample_rate freq : K} (h : self.Sound lo hi sample_rate)
    (hinc : |freq / sample_rate| ≤ 1) : (turn freq self).Sound lo hi sample_rate := by
  obtain ⟨hphase, hheld, hmin, hmax, hrate⟩ := h
  have hmem := advance_mem hinc hphase
  rw [advance_eq] at hmem
  rw [← hrate] at hmem
  unfold turn
  norm_num
  split
  · rename_i hturn
    rw [if_pos hturn] at hmem
    exact ⟨hmem, hheld, hmin, hmax, hrate⟩
  · rename_i hturn
    rw [if_neg hturn] at hmem
    split
    · rename_i hneg
      rw [if_pos hneg] at hmem
      exact ⟨hmem, hheld, hmin, hmax, hrate⟩
    · rename_i hneg
      rw [if_neg hneg] at hmem
      exact ⟨hmem, hheld, hmin, hmax, hrate⟩

/-- A number that is drawn is in range. -/
theorem hold_sound {lo hi sample_rate : K} (h : self.Sound lo hi sample_rate) :
    (hold self).Sound lo hi sample_rate := by
  obtain ⟨hphase, hheld, hmin, hmax, hrate⟩ := h
  unfold hold
  split
  · exact ⟨hphase, hheld, hmin, hmax, hrate⟩
  · exact ⟨hphase, next_random_le self.rng_state, hmin, hmax, hrate⟩

/-- Each wave of the LFO is in range, at any phase within a turn. -/
theorem raw_sound {lo hi sample_rate phase : K} (h : self.Sound lo hi sample_rate)
    (hp : 0 ≤ phase ∧ phase < 1) :
    |(raw phase self).1| ≤ 1 ∧ (raw phase self).2.Sound lo hi sample_rate := by
  obtain ⟨hp, hp1⟩ := hp
  have hfold : -1 ≤ 2 * |phase * 2 - 1| - 1 ∧ 2 * |phase * 2 - 1| - 1 ≤ 1 := by
    have hle : |phase * 2 - 1| ≤ 1 := abs_le.mpr ⟨by linarith, by linarith⟩
    exact ⟨by linarith [abs_nonneg (phase * 2 - 1)], by linarith⟩
  unfold raw
  cases self.waveform with
  | Sine =>
      refine ⟨?_, h⟩
      have hwave : ∀ t : K, t * (1.5 - 0.5 * t * t) = t * (3 / 2 - 1 / 2 * t * t) := by
        intro t
        norm_num
      have hnum : (2.0 : K) * |phase * 2.0 - 1.0| - 1.0 = 2 * |phase * 2 - 1| - 1 := by norm_num
      dsimp only
      rw [hwave, hnum]
      generalize 2 * |phase * 2 - 1| - 1 = t at hfold
      obtain ⟨hlow, hhigh⟩ := hfold
      -- the cubic touches one at the ends
      have hup : 0 ≤ (1 - t) ^ 2 * (2 + t) := mul_nonneg (sq_nonneg _) (by linarith)
      have hdown : 0 ≤ (1 + t) ^ 2 * (2 - t) := mul_nonneg (sq_nonneg _) (by linarith)
      rw [abs_le]
      constructor
      · linarith [hdown, (by ring : (1 + t) ^ 2 * (2 - t) = 2 * (1 + t * (3 / 2 - 1 / 2 * t * t)))]
      · linarith [hup, (by ring : (1 - t) ^ 2 * (2 + t) = 2 * (1 - t * (3 / 2 - 1 / 2 * t * t)))]
  | Triangle =>
      refine ⟨?_, h⟩
      norm_num
      exact abs_le.mpr hfold
  | Saw =>
      refine ⟨?_, h⟩
      norm_num
      exact abs_le.mpr ⟨by linarith, by linarith⟩
  | Square =>
      refine ⟨?_, h⟩
      dsimp only
      split
      · norm_num
      · norm_num
  | SampleAndHold => exact ⟨(hold_sound h).held, hold_sound h⟩

/-- A sample of the LFO is in its range, and leaves it sound. -/
theorem sample_sound {lo hi sample_rate freq : K} (hrange : lo ≤ hi)
    (h : self.Sound lo hi sample_rate) (hinc : |freq / sample_rate| ≤ 1) :
    (lo ≤ (sample freq self).1 ∧ (sample freq self).1 ≤ hi)
      ∧ (sample freq self).2.Sound lo hi sample_rate := by
  obtain ⟨hraw, hnext⟩ := raw_sound (turn_sound h hinc) h.phase
  refine ⟨?_, hnext⟩
  have hout : (sample freq self).1
      = lo + ((raw self.phase (turn freq self)).1 + 1) * (1 / 2) * (hi - lo) := by
    unfold sample
    norm_num
    rw [h.min, h.max]
  obtain ⟨hlow, hhigh⟩ := abs_le.mp hraw
  have hwidth : 0 ≤ hi - lo := sub_nonneg.mpr hrange
  have hpart : 0 ≤ ((raw self.phase (turn freq self)).1 + 1) * (1 / 2) := by linarith
  have hpart' : ((raw self.phase (turn freq self)).1 + 1) * (1 / 2) ≤ 1 := by linarith
  have hscaled := mul_le_mul_of_nonneg_right hpart' hwidth
  have hnonneg := mul_nonneg hpart hwidth
  rw [hout]
  exact ⟨by linarith, by linarith⟩

/-- **The LFO stays in its range**, whatever its frequency does up to the sample rate: the
phase is kept in the unit interval, and each wave maps that to the range. -/
theorem stays_in_range (waveform : LfoWaveform) {lo hi sample_rate : K} (hrange : lo ≤ hi)
    (hrate : 0 < sample_rate) {bs : List (List K)}
    (hbs : ∀ freqs ∈ bs, ∀ freq ∈ freqs, |freq| ≤ sample_rate) :
    ∀ out ∈ (blocks bs (set_sample_rate sample_rate (set_range lo hi (new waveform)))).1,
      ∀ y ∈ out, lo ≤ y ∧ y ≤ hi := by
  have hnew : (set_sample_rate sample_rate (set_range lo hi (new waveform))).Sound lo hi
      sample_rate := by
    refine ⟨?_, ?_, rfl, rfl, rfl⟩
    · show (0 : K) ≤ 0.0 ∧ (0.0 : K) < 1
      norm_num
    · show |(0.0 : K)| ≤ 1
      norm_num
  have hblock : ∀ (freqs : List K) (self : Lfo K), (∀ freq ∈ freqs, |freq| ≤ sample_rate) →
      self.Sound lo hi sample_rate →
      (∀ y ∈ (process freqs self).1, lo ≤ y ∧ y ≤ hi)
        ∧ (process freqs self).2.Sound lo hi sample_rate := by
    intro freqs self hfreqs hself
    refine run_forall (m := sample) (P := fun freq => |freq| ≤ sample_rate)
      (R := Sound lo hi sample_rate)
      (fun freq self hfreq hself => sample_sound hrange hself ?_) hfreqs hself
    rw [abs_div, abs_of_pos hrate, div_le_one hrate]
    exact hfreq
  exact (run_forall (m := process) (R := Sound lo hi sample_rate) hblock hbs hnew).1

/-- A sample-and-hold that turns within four samples, between -1 and 1. -/
theorem stays_in_range_step :
    (∀ freqs ∈ [[12000, 12000, 12000], [-48000]], ∀ freq ∈ freqs, |freq| ≤ (48000 : ℚ)) ∧
    ∀ out ∈ (blocks [[12000, 12000, 12000], [-48000]]
      (set_sample_rate (48000 : ℚ) (set_range (-1) 1 (new .SampleAndHold)))).1,
      ∀ y ∈ out, -1 ≤ y ∧ y ≤ 1 := by
  have hbs : ∀ freqs ∈ [[12000, 12000, 12000], [-48000]], ∀ freq ∈ freqs,
      |freq| ≤ (48000 : ℚ) := by decide +kernel
  exact ⟨hbs, stays_in_range .SampleAndHold (by norm_num) (by norm_num) hbs⟩

end Lfo

/-! ## The noise -/

omit [LinearOrder K] [IsStrictOrderedRing K] in
/-- The state of the generator after a step, as a number. -/
theorem next_random_state (rng_state : UInt32) :
    (next_random rng_state : K × UInt32).2.toNat
      = Lcg.step 32 1103515244 12345 rng_state.toNat := by
  have hmul : (1103515245 : UInt32).toNat = 1103515244 + 1 := by decide
  have hadd : (12345 : UInt32).toNat = 12345 := by decide
  show (rng_state * 1103515245 + 12345).toNat = _
  rw [UInt32.toNat_add, UInt32.toNat_mul, Nat.mod_add_mod, hmul, hadd, Lcg.step]

/-- The level that a state gives. -/
def level (state : ℕ) : ℕ := state / 2 ^ 16 % 2 ^ 15

/-- The number that a step makes is the level of the state it leaves. -/
theorem next_random_level (rng_state : UInt32) :
    (next_random rng_state : K × UInt32).1
      = (level (next_random rng_state : K × UInt32).2.toNat : K) / 32768 * 2 - 1 := by
  have hval : ∀ state : UInt32,
      ((state >>> 16) &&& 0x7FFF).toNat = level state.toNat := by
    intro state
    have hmask : (0x7FFF : UInt32).toNat = 2 ^ 15 - 1 := by decide
    have hshift : (16 : UInt32).toNat % 32 = 16 := by decide
    rw [UInt32.toNat_and, UInt32.toNat_shiftRight, hmask, hshift, Nat.and_two_pow_sub_one_eq_mod,
      Nat.shiftRight_eq_div_pow, level]
  unfold next_random
  dsimp only
  rw [hval]
  norm_num

namespace Oscillator

omit [IsStrictOrderedRing K] in
/-- A sample of the noise is a step of the generator, whatever the frequency. -/
theorem sample_noise [FloorRing K] {self : Oscillator K} (h : self.waveform = .WhiteNoise)
    (freq : K) :
    (sample freq self).1 = (next_random self.rng_state).1
      ∧ (sample freq self).2.rng_state = (next_random self.rng_state : K × UInt32).2
      ∧ (sample freq self).2.waveform = .WhiteNoise := by
  unfold sample
  rw [h]
  exact ⟨rfl, rfl, rfl⟩

/-- **The noise is the generator**: a sample is the level of the state it leaves. -/
theorem noise_run [FloorRing K] {self : Oscillator K} (h : self.waveform = .WhiteNoise)
    (freqs : List K) :
    (process freqs self).1 = (List.range freqs.length).map fun n =>
        (level (Lcg.after 32 1103515244 12345 (n + 1) self.rng_state.toNat) : K) / 32768 * 2 - 1 := by
  induction freqs generalizing self with
  | nil => rfl
  | cons freq freqs ih =>
      obtain ⟨hout, hstate, hnext⟩ := sample_noise h freq
      have hrest := ih hnext
      unfold process at hrest ⊢
      rw [run_cons, hrest, hout, hstate, next_random_level, next_random_state, List.length_cons,
        List.range_succ_eq_map, List.map_cons, List.map_map]
      refine congrArg₂ List.cons ?_ (List.map_congr_left fun n _ => ?_)
      · rw [Lcg.after_one]
      · rw [Function.comp_apply, Lcg.after_succ n.succ]

omit [IsStrictOrderedRing K] in
/-- A block that is cut goes on where it was. -/
theorem blocks_flatten [FloorRing K] (bs : List (List K)) (self : Oscillator K) :
    (blocks bs self).1.flatten = (process bs.flatten self).1 := by
  induction bs generalizing self with
  | nil => rfl
  | cons b bs ih =>
      have hrest := ih (process b self).2
      unfold blocks process at hrest ⊢
      rw [List.flatten_cons, run_append, run_cons, List.flatten_cons, hrest]

/-- The states of a level: the highest bit and the lower half are free. -/
theorem card_level {v : ℕ} (hv : v < 2 ^ 15) :
    ((Finset.range (2 ^ 32)).filter fun s => level s = v).card = 2 ^ 17 := by
  have hbij : ((Finset.range (2 ^ 32)).filter fun s => level s = v).card
      = (Finset.range (2 ^ 17)).card := by
    refine Finset.card_nbij' (fun s => s / 2 ^ 31 * 2 ^ 16 + s % 2 ^ 16)
      (fun k => k / 2 ^ 16 * 2 ^ 31 + v * 2 ^ 16 + k % 2 ^ 16) ?_ ?_ ?_ ?_
    · intro s hs
      rw [Finset.mem_coe, Finset.mem_filter, Finset.mem_range] at hs
      rw [Finset.mem_coe, Finset.mem_range]
      dsimp only
      omega
    · intro k hk
      rw [Finset.mem_coe, Finset.mem_range] at hk
      rw [Finset.mem_coe, Finset.mem_filter, Finset.mem_range, level]
      dsimp only
      omega
    · intro s hs
      rw [Finset.mem_coe, Finset.mem_filter, Finset.mem_range, level] at hs
      dsimp only
      omega
    · intro k hk
      rw [Finset.mem_coe, Finset.mem_range] at hk
      dsimp only
      omega
  rw [hbij, Finset.card_range]

/-- **The noise is even**: in any `2 ^ 32` samples in a row, however they are cut into blocks,
each of the `2 ^ 15` levels comes `2 ^ 17` times. -/
theorem noise_is_even [FloorRing K] {self : Oscillator K} (h : self.waveform = .WhiteNoise)
    {bs : List (List K)} (hlen : bs.flatten.length = 2 ^ 32) {v : ℕ} (hv : v < 2 ^ 15) :
    (blocks bs self).1.flatten.count ((v : K) / 32768 * 2 - 1) = 2 ^ 17 := by
  have hstart : Lcg.step 32 1103515244 12345 self.rng_state.toNat < 2 ^ 32 :=
    Nat.mod_lt _ (Nat.two_pow_pos 32)
  have hinj : ∀ n : ℕ, ((n : K) / 32768 * 2 - 1 = (v : K) / 32768 * 2 - 1) ↔ n = v := by
    intro n
    rw [sub_left_inj, mul_left_inj' two_ne_zero, div_left_inj' (by norm_num), Nat.cast_inj]
  have hcount := Lcg.card_filter_after (b := 1103515244) (c := 12345) (by decide) (by decide) hstart
    fun s => level s = v
  rw [card_level hv, ← Nat.count_eq_card_filter_range] at hcount
  rw [blocks_flatten, noise_run h, hlen, List.count, List.countP_map, ← hcount, Nat.count]
  refine List.countP_congr fun n _ => ?_
  rw [Function.comp_apply, beq_iff_eq, hinj, decide_eq_true_iff, Lcg.after_succ]

/-- One block of `2 ^ 32` samples from the seed of a new oscillator. -/
theorem noise_is_even_block :
    ([List.replicate (2 ^ 32) (0 : ℚ)] : List (List ℚ)).flatten.length = 2 ^ 32 ∧
    (blocks [List.replicate (2 ^ 32) 0] (new .WhiteNoise : Oscillator ℚ)).1.flatten.count
      (((0 : ℕ) : ℚ) / 32768 * 2 - 1) = 2 ^ 17 := by
  have hlen : ([List.replicate (2 ^ 32) (0 : ℚ)] : List (List ℚ)).flatten.length = 2 ^ 32 := by
    rw [List.flatten_singleton, List.length_replicate]
  have hwave : (new .WhiteNoise : Oscillator ℚ).waveform = .WhiteNoise := by
    unfold new
    dsimp only
  exact ⟨hlen, noise_is_even hwave hlen (Nat.two_pow_pos 15)⟩

end Oscillator

end

/-! ## The sine -/

namespace Oscillator

/-- The four terms of the series that the source takes. -/
noncomputable def taylor (a : ℝ) : ℝ := a - a ^ 3 / 6.0 + a ^ 5 / 120.0 - a ^ 7 / 5040.0

/-- The four terms. -/
theorem taylor_eq (a : ℝ) : taylor a = a - a ^ 3 / 6 + a ^ 5 / 120 - a ^ 7 / 5040 := by
  unfold taylor
  norm_num

/-- The series up to the next term. -/
theorem sin_taylor {a : ℝ} (ha : 0 ≤ a) (ha6 : a ≤ 6) :
    |Real.sin a - (taylor a + a ^ 9 / 362880)| ≤ a ^ 11 / 39916800 * 2 := by
  have hnorm : ‖(a : ℂ) * Complex.I‖ = a := by
    rw [norm_mul, Complex.norm_I, mul_one, Complex.norm_real, Real.norm_of_nonneg ha]
  have hbound := Complex.exp_bound' (x := a * Complex.I) (n := 11) (by
    rw [hnorm]
    norm_num
    linarith)
  have him := (Complex.abs_im_le_norm _).trans hbound
  rw [hnorm, Complex.sub_im, Complex.exp_ofReal_mul_I_im] at him
  have hsum : (∑ m ∈ Finset.range 11, ((a : ℂ) * Complex.I) ^ m / (m.factorial : ℂ)).im
      = taylor a + a ^ 9 / 362880 := by
    have h₂ : Complex.I ^ 2 = -1 := Complex.I_sq
    have h₃ : Complex.I ^ 3 = -Complex.I := Complex.I_pow_three
    have h₄ : Complex.I ^ 4 = 1 := Complex.I_pow_four
    have h₅ : Complex.I ^ 5 = Complex.I := by rw [pow_succ, h₄, one_mul]
    have h₆ : Complex.I ^ 6 = -1 := by rw [pow_succ, h₅, Complex.I_mul_I]
    have h₇ : Complex.I ^ 7 = -Complex.I := by rw [pow_succ, h₆, neg_one_mul]
    have h₈ : Complex.I ^ 8 = 1 := by rw [pow_succ, h₇, neg_mul, Complex.I_mul_I, neg_neg]
    have h₉ : Complex.I ^ 9 = Complex.I := by rw [pow_succ, h₈, one_mul]
    have h₁₀ : Complex.I ^ 10 = -1 := by rw [pow_succ, h₉, Complex.I_mul_I]
    -- the even powers are real
    have hsplit : (∑ m ∈ Finset.range 11, ((a : ℂ) * Complex.I) ^ m / (m.factorial : ℂ))
        = ((1 - a ^ 2 / 2 + a ^ 4 / 24 - a ^ 6 / 720 + a ^ 8 / 40320 - a ^ 10 / 3628800 : ℝ) : ℂ)
          + ((taylor a + a ^ 9 / 362880 : ℝ) : ℂ) * Complex.I := by
      simp only [Finset.sum_range_succ, Finset.sum_range_zero, mul_pow, Nat.factorial, taylor_eq, h₂,
        h₃, h₄, h₅, h₆, h₇, h₈, h₉, h₁₀]
      push_cast
      ring
    rw [hsplit, Complex.add_im, Complex.ofReal_im, zero_add, Complex.im_ofReal_mul, Complex.I_im,
      mul_one]
  rw [hsum] at him
  norm_num [Nat.factorial] at him
  exact him

/-- **The series against the sine** on a quarter turn and a little more: it lies below, and
by no more than 0.000169. -/
theorem taylor_bounds {a : ℝ} (ha : 0 ≤ a) (ha2 : a ≤ 1.571) :
    0 ≤ taylor a ∧ taylor a ≤ Real.sin a ∧ Real.sin a - taylor a ≤ 0.000169 := by
  obtain ⟨hlow, hhigh⟩ := abs_le.mp (sin_taylor ha (ha2.trans (by norm_num)))
  have hsq : a ^ 2 ≤ 2.5 := (pow_le_pow_left₀ ha ha2 2).trans (by norm_num)
  have h₉ := pow_nonneg ha 9
  refine ⟨?_, ?_, ?_⟩
  · have hfactor : taylor a
        = a * ((1 - a ^ 2 / 6) + (a ^ 2) ^ 2 * (1 / 120 - a ^ 2 / 5040)) := by
      rw [taylor_eq]
      ring
    rw [hfactor]
    refine mul_nonneg ha (add_nonneg ?_ (mul_nonneg (sq_nonneg _) ?_))
    · linarith
    · linarith
  · -- the next term outweighs what is behind it
    have hnext : a ^ 11 / 39916800 * 2 ≤ a ^ 9 / 362880 := by
      have hmul := mul_le_mul_of_nonneg_left hsq h₉
      have hpow : a ^ 11 = a ^ 9 * a ^ 2 := by ring
      linarith
    linarith
  · have hpow₉ : a ^ 9 ≤ 1.571 ^ 9 := pow_le_pow_left₀ ha ha2 9
    have hpow₁₁ : a ^ 11 ≤ 1.571 ^ 11 := pow_le_pow_left₀ ha ha2 11
    norm_num at hpow₉ hpow₁₁ ⊢
    linarith

/-- The series is odd. -/
theorem taylor_neg (a : ℝ) : taylor (-a) = -taylor a := by
  rw [taylor_eq, taylor_eq]
  ring

/-- On both sides of zero. -/
theorem taylor_error {a : ℝ} (ha : |a| ≤ 1.571) :
    |taylor a| ≤ 1 ∧ |taylor a - Real.sin a| ≤ 0.000169 := by
  obtain ⟨hlow, hhigh⟩ := abs_le.mp ha
  rcases le_total 0 a with hpos | hneg
  · obtain ⟨hnonneg, hsin, herror⟩ := taylor_bounds hpos hhigh
    have hone := Real.sin_le_one a
    exact ⟨abs_le.mpr ⟨by linarith, by linarith⟩, abs_le.mpr ⟨by linarith, by linarith⟩⟩
  · obtain ⟨hnonneg, hsin, herror⟩ :=
      taylor_bounds (neg_nonneg.mpr hneg) (by linarith : -a ≤ 1.571)
    have hone := Real.neg_one_le_sin a
    rw [taylor_neg, Real.sin_neg] at herror
    rw [taylor_neg] at hnonneg
    rw [taylor_neg, Real.sin_neg] at hsin
    exact ⟨abs_le.mpr ⟨by linarith, by linarith⟩, abs_le.mpr ⟨by linarith, by linarith⟩⟩

/-- The constant of the source is seven digits of pi. -/
theorem PI_bounds : (0 : ℝ) < PI ∧ (PI : ℝ) ≤ 3.142 ∧ |(PI : ℝ) - Real.pi| ≤ 0.0000001 := by
  have hlow := Real.pi_gt_d20
  have hhigh := Real.pi_lt_d20
  unfold PI
  refine ⟨by norm_num, by norm_num, abs_le.mpr ⟨?_, ?_⟩⟩
  · norm_num at hhigh ⊢
    linarith
  · norm_num at hlow ⊢
    linarith

/-- The angle that the source folds the phase to. -/
theorem fast_sin_norm_fold {p : ℝ} (hp : 0 ≤ p) (hp1 : p < 1) :
    ∃ a, fast_sin_norm p = taylor a ∧ |a| ≤ 1.571
      ∧ |Real.sin a - Real.sin (2 * Real.pi * p)| ≤ 0.000001 := by
  obtain ⟨hpos, hle, hpi⟩ := PI_bounds
  unfold fast_sin_norm
  dsimp only
  generalize (PI : ℝ) = c at hpos hle hpi
  obtain ⟨hlow, hhigh⟩ := abs_le.mp hpi
  have htaylor : ∀ a : ℝ, a * (1.0 + a * a * (-1.0 / 6.0 + a * a * (1.0 / 120.0
      + a * a * (-1.0 / 5040.0)))) = taylor a := by
    intro a
    rw [taylor_eq]
    norm_num
    ring
  rw [htaylor]
  refine ⟨_, rfl, ?_⟩
  have htwo : (2.0 : ℝ) = 2 := by norm_num
  have hhalf : c * (0.5 : ℝ) = c / 2 := by
    norm_num
    ring
  rw [htwo, hhalf]
  -- a turn back, and the phase is in the half turns around zero
  obtain ⟨b, hb, hblow, hbhigh, hbsin⟩ : ∃ b, (if c ≤ p * (c * 2) then p * (c * 2) - c * 2
      else p * (c * 2)) = b ∧ -c ≤ b ∧ b ≤ c
        ∧ |Real.sin b - Real.sin (2 * Real.pi * p)| ≤ 0.0000005 := by
    have hturn : p * (c * 2) < c * 2 := by
      have hmul := mul_lt_mul_of_pos_right hp1 (by linarith : 0 < c * 2)
      linarith
    have herror : |p * (c - Real.pi)| ≤ 0.0000001 := by
      rw [abs_mul, abs_of_nonneg hp]
      have hmul := mul_le_mul hp1.le hpi (abs_nonneg _) zero_le_one
      linarith
    obtain ⟨herrlow, herrhigh⟩ := abs_le.mp herror
    split
    · rename_i hback
      refine ⟨_, rfl, by linarith, by linarith, ?_⟩
      rw [← Real.sin_sub_two_pi (2 * Real.pi * p)]
      refine (Real.abs_sin_sub_sin_le _ _).trans (abs_le.mpr ⟨?_, ?_⟩)
      · linarith
      · linarith
    · rename_i hstay
      have hnonneg : 0 ≤ p * (c * 2) := mul_nonneg hp (by linarith)
      refine ⟨_, rfl, by linarith, (not_le.mp hstay).le, ?_⟩
      refine (Real.abs_sin_sub_sin_le _ _).trans (abs_le.mpr ⟨?_, ?_⟩)
      · linarith
      · linarith
  rw [hb]
  have hadd : ∀ x : ℝ, |Real.sin x - Real.sin b| ≤ 0.0000001 →
      |Real.sin x - Real.sin (2 * Real.pi * p)| ≤ 0.000001 := by
    intro x hx
    have hsum := abs_sub_le (Real.sin x) (Real.sin b) (Real.sin (2 * Real.pi * p))
    linarith
  -- and a fold at the quarters
  split
  · rename_i hright
    refine ⟨abs_le.mpr ⟨by linarith, by linarith⟩, hadd _ ?_⟩
    rw [← Real.sin_pi_sub b]
    refine (Real.abs_sin_sub_sin_le _ _).trans (abs_le.mpr ⟨by linarith, by linarith⟩)
  · rename_i hright
    split
    · rename_i hleft
      refine ⟨abs_le.mpr ⟨by linarith, by linarith⟩, hadd _ ?_⟩
      have hsin : Real.sin b = Real.sin (-Real.pi - b) := by
        rw [← Real.sin_add_two_pi (-Real.pi - b), ← Real.sin_pi_sub b]
        congr 1
        ring
      rw [hsin]
      refine (Real.abs_sin_sub_sin_le _ _).trans (abs_le.mpr ⟨by linarith, by linarith⟩)
    · rename_i hleft
      refine ⟨abs_le.mpr ⟨by linarith, by linarith⟩, hadd _ ?_⟩
      rw [sub_self, abs_zero]
      norm_num

/-- **How good the sine is**: nowhere off by more than 0.00017, but by more than 0.00015 at its
peak, which is not the 0.00001 that is aimed at. -/
theorem sine_accuracy :
    (∀ p : ℝ, 0 ≤ p → p < 1 → |fast_sin_norm p - Real.sin (2 * Real.pi * p)| ≤ 0.00017)
      ∧ 0.00015 < |fast_sin_norm (1 / 4) - Real.sin (2 * Real.pi * (1 / 4))| := by
  constructor
  · intro p hp hp1
    obtain ⟨a, hfast, ha, hsin⟩ := fast_sin_norm_fold hp hp1
    have htaylor := (taylor_error ha).2
    have hsum := abs_sub_le (taylor a) (Real.sin a) (Real.sin (2 * Real.pi * p))
    rw [hfast]
    norm_num at htaylor hsin ⊢
    linarith
  · have hquarter : 2 * Real.pi * (1 / 4) = Real.pi / 2 := by ring
    rw [hquarter, Real.sin_pi_div_two, lt_abs]
    right
    unfold fast_sin_norm PI
    norm_num

theorem sine_accuracy_half :
    |fast_sin_norm (1 / 2) - Real.sin (2 * Real.pi * (1 / 2))| ≤ 0.00017 :=
  sine_accuracy.1 (1 / 2) (by norm_num) (by norm_num)

/-! ## Runs -/

/-- What stays of an oscillator up to the sample rate. -/
structure Sound (sample_rate : ℝ) (osc : Oscillator ℝ) : Prop where
  phase : 0 ≤ osc.phase ∧ osc.phase < 1
  sample_rate : osc.sample_rate = sample_rate

theorem fast_sin_norm_le {p : ℝ} (hp : 0 ≤ p) (hp1 : p < 1) : |fast_sin_norm p| ≤ 1 := by
  obtain ⟨a, hfast, ha, -⟩ := fast_sin_norm_fold hp hp1
  rw [hfast]
  exact (taylor_error ha).1

/-- A sample of an oscillator is in range, and leaves it sound. -/
theorem sample_sound {sample_rate freq : ℝ} {self : Oscillator ℝ} (hrate : 0 < sample_rate)
    (hfreq : |freq| ≤ sample_rate) (h : self.Sound sample_rate) :
    |(sample freq self).1| ≤ 1 ∧ (sample freq self).2.Sound sample_rate := by
  obtain ⟨hphase, hsame⟩ := h
  have hinc : |freq * (1.0 / self.sample_rate)| ≤ 1 := by
    rw [hsame]
    exact (abs_inc_le hrate).mpr hfreq
  have hmem := advance_mem hinc hphase
  have hdt := abs_nonneg (freq * (1.0 / self.sample_rate))
  unfold sample
  cases self.waveform with
  | Sine => exact ⟨fast_sin_norm_le hmem.1 hmem.2, hmem, hsame⟩
  | Triangle => exact ⟨triangle_le hmem.1 hmem.2, hmem, hsame⟩
  | Saw => exact ⟨saw_le hmem.1 hmem.2 hdt hinc, hmem, hsame⟩
  | Square => exact ⟨square_le hmem.1 hmem.2 hdt, hmem, hsame⟩
  | WhiteNoise => exact ⟨next_random_le self.rng_state, hphase, hsame⟩

/-- So are the samples of a block. -/
theorem process_sound {sample_rate : ℝ} {freqs : List ℝ} {self : Oscillator ℝ}
    (hrate : 0 < sample_rate) (hfreqs : ∀ freq ∈ freqs, |freq| ≤ sample_rate)
    (h : self.Sound sample_rate) :
    (∀ y ∈ (process freqs self).1, |y| ≤ 1) ∧ (process freqs self).2.Sound sample_rate :=
  run_forall (m := sample) (P := fun freq => |freq| ≤ sample_rate) (R := Sound sample_rate)
    (fun _ _ hfreq hself => sample_sound hrate hfreq hself) hfreqs h

/-- An oscillator that was just made. -/
theorem new_sound (waveform : Waveform) (sample_rate : ℝ) :
    (set_sample_rate sample_rate (new waveform)).Sound sample_rate := by
  refine ⟨?_, rfl⟩
  show (0 : ℝ) ≤ 0.0 ∧ (0.0 : ℝ) < 1
  norm_num

/-- **An oscillator never clips.** Whatever its wave is and whatever its frequency does from
sample to sample, as long as it does not pass the sample rate, nothing leaves the range from
-1 to 1. -/
theorem never_clips (waveform : Waveform) {sample_rate : ℝ} (hrate : 0 < sample_rate)
    {bs : List (List ℝ)} (hbs : ∀ freqs ∈ bs, ∀ freq ∈ freqs, |freq| ≤ sample_rate) :
    ∀ out ∈ (blocks bs (set_sample_rate sample_rate (new waveform))).1, ∀ y ∈ out, |y| ≤ 1 := by
  refine (run_forall (m := process) (P := fun freqs => ∀ freq ∈ freqs, |freq| ≤ sample_rate)
    (Q := fun out => ∀ y ∈ out, |y| ≤ 1) (R := Sound sample_rate) ?_ hbs
    (new_sound waveform sample_rate)).1
  intro freqs self hfreqs hself
  exact process_sound hrate hfreqs hself

/-- A saw that goes up and down at the sample rate and below. -/
theorem never_clips_saw :
    (∀ freqs ∈ [[48000, 440], [-48000]], ∀ freq ∈ freqs, |freq| ≤ (48000 : ℝ)) ∧
    ∀ out ∈ (blocks [[48000, 440], [-48000]] (set_sample_rate 48000 (new .Saw))).1,
      ∀ y ∈ out, |y| ≤ (1 : ℝ) := by
  have hbs : ∀ freqs ∈ [[48000, 440], [-48000]], ∀ freq ∈ freqs, |freq| ≤ (48000 : ℝ) := by
    simp only [List.mem_cons, List.not_mem_nil, or_false, forall_eq_or_imp, forall_eq]
    norm_num
  exact ⟨hbs, never_clips .Saw (by norm_num) hbs⟩

/-! ## Above the sample rate -/

/-- What a sample does to the phase, for every wave that has one. -/
theorem sample_phase {self : Oscillator ℝ} (h : self.waveform ≠ .WhiteNoise) (freq : ℝ) :
    (sample freq self).2.phase = advance (freq * (1.0 / self.sample_rate)) self.phase
      ∧ (sample freq self).2.sample_rate = self.sample_rate
      ∧ (sample freq self).2.waveform = self.waveform := by
  unfold sample
  split
  · exact ⟨rfl, rfl, rfl⟩
  · exact ⟨rfl, rfl, rfl⟩
  · exact ⟨rfl, rfl, rfl⟩
  · exact ⟨rfl, rfl, rfl⟩
  · rename_i hnoise
    exact absurd hnoise h

/-- Above a turn a sample one turn back is not enough. -/
theorem advance_up {inc p : ℝ} (hinc : 1 < inc) (hp : 0 ≤ p) : advance inc p = p + (inc - 1) := by
  rw [advance_eq, if_pos (by linarith)]
  ring

/-- And downwards, in the same way. -/
theorem advance_down {inc p : ℝ} (hinc : inc < -1) (hp : p ≤ 0) :
    advance inc p = p + (inc + 1) := by
  rw [advance_eq, if_neg (by linarith), if_pos (by linarith)]
  ring

/-- The phase after `n` samples that move it by the same amount. -/
theorem process_phase {step freq : ℝ} {self : Oscillator ℝ} (h : self.waveform ≠ .WhiteNoise)
    (hstep : ∀ k : ℕ, advance (freq * (1.0 / self.sample_rate)) (self.phase + k * step)
      = self.phase + k * step + step) (n : ℕ) :
    (process (List.replicate n freq) self).2.phase = self.phase + n * step
      ∧ (process (List.replicate n freq) self).2.sample_rate = self.sample_rate
      ∧ (process (List.replicate n freq) self).2.waveform = self.waveform := by
  induction n with
  | zero =>
      refine ⟨?_, rfl, rfl⟩
      show self.phase = _
      rw [Nat.cast_zero, zero_mul, add_zero]
  | succ n ih =>
      obtain ⟨hphase, hsame, hwave⟩ := ih
      obtain ⟨hnext, hrate, hwave'⟩ := sample_phase (fun heq => h (hwave.symm.trans heq)) freq
      unfold process at hphase hsame hwave hnext hrate hwave' ⊢
      rw [List.replicate_succ', run_concat]
      refine ⟨?_, hrate.trans hsame, hwave'.trans hwave⟩
      rw [hnext, hsame, hphase, hstep]
      push_cast
      ring

/-- Multiples of a number other than zero. -/
theorem exists_lt_abs_mul {step : ℝ} (hstep : step ≠ 0) (B : ℝ) : ∃ n : ℕ, B < |n * step| := by
  obtain ⟨n, hn⟩ := exists_nat_gt (B / |step|)
  refine ⟨n, ?_⟩
  rw [abs_mul, Nat.abs_cast]
  exact (div_lt_iff₀ (abs_pos.mpr hstep)).mp hn

/-- **The sample rate is the limit.** At a constant frequency the phase of an oscillator is
bounded exactly up to the sample rate; above it, every sample leaves more behind than the one
turn that is taken back. -/
theorem phase_bounded_iff {waveform : Waveform} (hwave : waveform ≠ .WhiteNoise)
    {sample_rate : ℝ} (hrate : 0 < sample_rate) (freq : ℝ) :
    (∃ B, ∀ n : ℕ, |(process (List.replicate n freq)
        (set_sample_rate sample_rate (new waveform))).2.phase| ≤ B) ↔ |freq| ≤ sample_rate := by
  constructor
  · rintro ⟨B, hB⟩
    by_contra hfreq
    have hinc : ¬ |freq * (1.0 / sample_rate)| ≤ 1 := fun h => hfreq ((abs_inc_le hrate).mp h)
    rw [not_le, lt_abs] at hinc
    have hzero : (set_sample_rate sample_rate (new waveform) : Oscillator ℝ).phase = 0 := by
      show (0.0 : ℝ) = 0
      norm_num
    -- where the phase moves by the same step again and again it leaves every bound
    have hrun : ∀ step : ℝ, step ≠ 0 → (∀ k : ℕ, advance (freq * (1.0 / sample_rate)) (k * step)
        = k * step + step) → False := by
      intro step hne hstep
      obtain ⟨n, hn⟩ := exists_lt_abs_mul hne B
      have hsame : ∀ k : ℕ, advance (freq * (1.0 / sample_rate))
          ((set_sample_rate sample_rate (new waveform) : Oscillator ℝ).phase + k * step)
          = (set_sample_rate sample_rate (new waveform) : Oscillator ℝ).phase + k * step + step := by
        intro k
        rw [hzero, zero_add]
        exact hstep k
      have hphase := (@process_phase step freq (set_sample_rate sample_rate (new waveform)) hwave
        hsame n).1
      have hle := hB n
      rw [hphase, hzero, zero_add] at hle
      exact absurd hle (not_le.mpr hn)
    generalize freq * (1.0 / sample_rate) = inc at hinc hrun
    -- `advance` takes off one turn at most, so a step of more than one turn leaves a rest
    rcases hinc with hup | hdown
    · refine hrun (inc - 1) (sub_pos.mpr hup).ne' fun k => ?_
      exact advance_up hup (mul_nonneg (Nat.cast_nonneg k) (sub_pos.mpr hup).le)
    · refine hrun (inc + 1) (by linarith) fun k => ?_
      exact advance_down (by linarith)
        (mul_nonpos_of_nonneg_of_nonpos (Nat.cast_nonneg k) (by linarith))
  · intro hfreq
    refine ⟨1, fun n => ?_⟩
    -- within the rate the phase is in the unit interval
    have hfreqs : ∀ f ∈ List.replicate n freq, |f| ≤ sample_rate := by
      intro f hf
      rw [List.eq_of_mem_replicate hf]
      exact hfreq
    obtain ⟨hlow, hhigh⟩ := (process_sound hrate hfreqs (new_sound waveform sample_rate)).2.phase
    exact abs_le.mpr ⟨by linarith, hhigh.le⟩

/-- A saw two octaves above the highest note of MIDI, at 48 kHz. -/
theorem phase_bounded_iff_note :
    ¬ ∃ B, ∀ n : ℕ, |(process (List.replicate n 50175)
        (set_sample_rate 48000 (new .Saw))).2.phase| ≤ (B : ℝ) := by
  intro hB
  have hle := (phase_bounded_iff (by decide) (by norm_num) 50175).mp hB
  norm_num at hle

end Oscillator

end PicoDsp.Synthesis
