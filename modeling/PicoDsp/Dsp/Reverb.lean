/-
The reverb of the synth (`effects/time/reverb.rs` of `vendor/infinitedsp-core`).

A channel is eight combs with a damped feedback, summed, and a row of four allpasses. All
of them read and write a ring at one position, which the source does without bounds
checks; here the position is inside by its type.

As long as size and damping are in the unit interval the feedback is at most 0.98, so the
combs settle on their input, whatever the two controls do meanwhile: the output is bounded
by the input, and it dies away behind it.

The two controls are read once for a block and may differ from block to block, so the
coefficients of the recursion change while sound is in the rings, and no transfer function
describes it. The argument is the one of `Lib/Stable.lean` instead: a comb is a machine
whose state keeps to a bound, its rings to fifty times the bound of the input, since the
feedback of 0.98 leaves room for a fiftieth of it. The damping is a mix of what is read
and of its own last value and makes nothing louder. Once every entry of a ring is new the
bound has moved down by a part (`RingBuffer.Fresh`), and so the combs settle; an allpass
does in the same way, with a feedback of one half.

The parameters of a block are an input of the machine (`CombParams`), together with the
sample, and what is asked of them is only that they are gentle. The figures are not the
best ones: eight combs of at most fifty times the input, each allpass at most twice as
much again, and the input at 0.015 make the factor of 96 that the result names.

A stereo block is the list of its frames. The four lanes of an `f32x4` are a function, and
exact numbers do not care in what order `reduce_add` adds them.
-/
import PicoDsp.Lib.RingBuffer
import PicoDsp.Lib.Stable
import PicoDsp.Dsp.StockDelay

set_option autoImplicit false

namespace PicoDsp

open Lib Lib.Machine

/-- `f32x4` -/
abbrev F32x4 (K : Type) : Type := Fin 4 → K

namespace F32x4

variable {K : Type}

/-- The lanes are numbered from 0. -/
local instance lanes_ne_zero : NeZero 4 := ⟨by decide⟩

def splat (x : K) : F32x4 K := fun _ => x

def reduce_add [Add K] (v : F32x4 K) : K := v 0 + v 1 + v 2 + v 3

end F32x4

/-- Four combs side by side: a ring each, and the lanes of the vectors. -/
structure Comb4 (K : Type) where
  buffers : Fin 4 → RingBuffer K
  feedback : F32x4 K
  damp : F32x4 K
  damp_inv : F32x4 K
  filter_state : F32x4 K

structure Allpass (K : Type) where
  buffer : RingBuffer K
  feedback : K

structure Reverb (K : Type) where
  combs_l : Comb4 K × Comb4 K
  combs_r : Comb4 K × Comb4 K
  allpasses_l : List (Allpass K)
  allpasses_r : List (Allpass K)
  room_size : AudioParam K
  damping : AudioParam K
  sample_rate : K

section

variable {K : Type} [Field K]

namespace Comb4

/-- The assertion on the sizes is an argument. -/
def new (sizes : Fin 4 → ℕ) (hsizes : ∀ i, 0 < sizes i) (feedback damp : K) : Comb4 K where
  buffers i := RingBuffer.new (sizes i) (hsizes i) 0
  feedback := F32x4.splat feedback
  damp := F32x4.splat damp
  damp_inv := F32x4.splat (1 - damp)
  filter_state := F32x4.splat 0

omit [Field K] in
def set_params (feedback damp damp_inv : K) (self : Comb4 K) : Comb4 K :=
  { self with
    feedback := F32x4.splat feedback
    damp := F32x4.splat damp
    damp_inv := F32x4.splat damp_inv }

def process (input : K) (self : Comb4 K) : K × Comb4 K :=
  let input_vec := F32x4.splat input
  let delayed : F32x4 K := fun i => (self.buffers i).read
  let new_input : F32x4 K := fun i => input_vec i + self.filter_state i * self.feedback i
  (delayed.reduce_add,
    { self with
      filter_state := fun i =>
        delayed i * self.damp_inv i + self.filter_state i * self.damp i
      buffers := fun i => (self.buffers i).write (new_input i) })

def reset (self : Comb4 K) : Comb4 K :=
  { self with
    buffers := fun i => (self.buffers i).fill 0
    filter_state := F32x4.splat 0 }

end Comb4

namespace Allpass

def new (size : ℕ) (hsize : 0 < size) : Allpass K where
  buffer := RingBuffer.new size hsize 0
  feedback := 0.5

def process (input : K) (self : Allpass K) : K × Allpass K :=
  let delayed := self.buffer.read
  let output := -input + delayed
  let to_store := input + output * self.feedback
  (output, { self with buffer := self.buffer.write to_store })

def reset (self : Allpass K) : Allpass K := { self with buffer := self.buffer.fill 0 }

end Allpass

namespace Reverb

def comb_tuning_1 : Fin 4 → ℕ := ![1116, 1188, 1277, 1356]
def comb_tuning_2 : Fin 4 → ℕ := ![1422, 1491, 1557, 1617]
def allpass_tuning : List ℕ := [556, 441, 341, 225]
def stereo_spread : ℕ := 23

/-- The assertion on the sizes holds for the tunings. -/
theorem tuning_pos : (∀ i, 0 < comb_tuning_1 i) ∧ (∀ i, 0 < comb_tuning_2 i)
    ∧ ∀ t ∈ allpass_tuning, 0 < t := by decide

/-- The combs of a channel, with `offset` more samples than the tunings say. -/
def combs (offset : ℕ) : Comb4 K × Comb4 K :=
  (Comb4.new (fun i => comb_tuning_1 i + offset)
      (fun i => Nat.add_pos_left (tuning_pos.1 i) offset) 0.8 0.2,
    Comb4.new (fun i => comb_tuning_2 i + offset)
      (fun i => Nat.add_pos_left (tuning_pos.2.1 i) offset) 0.8 0.2)

def allpasses (offset : ℕ) : List (Allpass K) :=
  allpass_tuning.attach.map fun t =>
    Allpass.new (t.1 + offset) (Nat.add_pos_left (tuning_pos.2.2 t.1 t.2) offset)

def new_with_params (room_size damping : AudioParam K) (seed : ℕ) : Reverb K where
  combs_l := combs seed
  combs_r := combs (stereo_spread + seed)
  allpasses_l := allpasses seed
  allpasses_r := allpasses (stereo_spread + seed)
  room_size := room_size
  damping := damping
  sample_rate := 44100.0

omit [Field K] in
def set_params (rs dp dp_inv : K) (self : Reverb K) : Reverb K :=
  let set := Comb4.set_params rs dp dp_inv
  { self with
    combs_l := (set self.combs_l.1, set self.combs_l.2)
    combs_r := (set self.combs_r.1, set self.combs_r.2) }

/-- The body of the loop. -/
def frame (frame : K × K) (self : Reverb K) : (K × K) × Reverb K :=
  let input := (frame.1 + frame.2) * 0.5 * 0.015
  let (a_l, comb_l₁) := self.combs_l.1.process input
  let (b_l, comb_l₂) := self.combs_l.2.process input
  let (a_r, comb_r₁) := self.combs_r.1.process input
  let (b_r, comb_r₂) := self.combs_r.2.process input
  let (out_l, allpasses_l) := Machine.row Allpass.process (a_l + b_l) self.allpasses_l
  let (out_r, allpasses_r) := Machine.row Allpass.process (a_r + b_r) self.allpasses_r
  ((out_l, out_r),
    { self with
      combs_l := (comb_l₁, comb_l₂)
      combs_r := (comb_r₁, comb_r₂)
      allpasses_l := allpasses_l
      allpasses_r := allpasses_r })

/-- The loop over the frames. -/
def frames : List (K × K) → Reverb K → List (K × K) × Reverb K := Machine.run frame

def process (control : MidiControl K) (buffer : List (K × K)) (self : Reverb K) :
    List (K × K) × Reverb K :=
  let rs := self.room_size.val control * 0.28 + 0.7
  let dp := self.damping.val control * 0.4
  let dp_inv := 1 - dp
  frames buffer (set_params rs dp dp_inv self)

omit [Field K] in
/-- The sizes stay as they are. -/
def set_sample_rate (sample_rate : K) (self : Reverb K) : Reverb K :=
  { self with sample_rate := sample_rate }

def reset (self : Reverb K) : Reverb K :=
  { self with
    combs_l := (self.combs_l.1.reset, self.combs_l.2.reset)
    combs_r := (self.combs_r.1.reset, self.combs_r.2.reset)
    allpasses_l := self.allpasses_l.map Allpass.reset
    allpasses_r := self.allpasses_r.map Allpass.reset }

/-- A stream of blocks, each with the controls it finds. -/
def blocks : List (MidiControl K × List (K × K)) → Reverb K → List (List (K × K)) × Reverb K :=
  Machine.run fun b => process b.1 b.2

end Reverb

/-! ## The reverb as a machine -/

/-- What `set_params` gets. -/
structure CombParams (K : Type) where
  rs : K
  dp : K
  dp_inv : K

/-- One sample, with the parameters set before it. -/
def Comb4.sample : Machine (Comb4 K) (CombParams K × K) K := fun i c =>
  Comb4.process i.2 (c.set_params i.1.rs i.1.dp i.1.dp_inv)

namespace Reverb

/-- Two combs and a row of allpasses. -/
abbrev Channel (K : Type) : Type := (Comb4 K × Comb4 K) × List (Allpass K)

/-- A channel, with the parameters set before the sample. -/
def channel : Machine (Channel K) (CombParams K × K) K :=
  chain (between id (both Comb4.sample Comb4.sample) fun y => y.1 + y.2) (row Allpass.process)

/-- One frame, with the parameters set before it. -/
def sample : Machine (Channel K × Channel K) (CombParams K × (K × K)) (K × K) :=
  between (fun i => (i.1, (i.2.1 + i.2.2) * 0.5 * 0.015)) (both channel channel) id

/-- The channels of a reverb. -/
def channels (self : Reverb K) : Channel K × Channel K :=
  ((self.combs_l, self.allpasses_l), (self.combs_r, self.allpasses_r))

/-- The parameters of a block. -/
def params (self : Reverb K) (control : MidiControl K) : CombParams K where
  rs := self.room_size.val control * 0.28 + 0.7
  dp := self.damping.val control * 0.4
  dp_inv := 1 - self.damping.val control * 0.4

/-- What the machine gets in a block. -/
def inputs (self : Reverb K) (b : MidiControl K × List (K × K)) : List (CombParams K × (K × K)) :=
  b.2.map fun f => (self.params b.1, f)

/-- What the machine gets depends on the two parameters only. -/
theorem inputs_congr {self other : Reverb K} (hroom : self.room_size = other.room_size)
    (hdamping : self.damping = other.damping) : self.inputs = other.inputs := by
  funext b
  rw [inputs, inputs, params, params, hroom, hdamping]

/-- The channels with other parameters; a sample does not look at the ones they have. -/
def setParams (p : CombParams K) (c : Channel K × Channel K) : Channel K × Channel K :=
  let set := Comb4.set_params p.rs p.dp p.dp_inv
  (((set c.1.1.1, set c.1.1.2), c.1.2), ((set c.2.1.1, set c.2.1.2), c.2.2))

/-- A frame is a sample of the machine. -/
theorem frame_eq {self : Reverb K} {p : CombParams K} {c : Channel K × Channel K}
    (h : self.channels = setParams p c) (f : K × K) :
    (frame f self).1 = (sample (p, f) c).1
      ∧ (frame f self).2.channels = setParams p (sample (p, f) c).2
      ∧ (frame f self).2.room_size = self.room_size
      ∧ (frame f self).2.damping = self.damping := by
  obtain ⟨⟨l₁, l₂⟩, ⟨r₁, r₂⟩, allpasses_l, allpasses_r, room_size, damping, sample_rate⟩ := self
  simp only [channels, setParams, Prod.mk.injEq] at h
  obtain ⟨⟨⟨rfl, rfl⟩, rfl⟩, ⟨rfl, rfl⟩, rfl⟩ := h
  exact ⟨rfl, rfl, rfl, rfl⟩

/-- The frames of a block are a run of the machine with the parameters of the block. -/
theorem frames_run {self : Reverb K} {p : CombParams K} {c : Channel K × Channel K}
    (h : self.channels = setParams p c) (fs : List (K × K)) :
    (frames fs self).1 = (run sample (fs.map fun f => (p, f)) c).1
      ∧ (frames fs self).2.channels = setParams p (run sample (fs.map fun f => (p, f)) c).2
      ∧ (frames fs self).2.room_size = self.room_size
      ∧ (frames fs self).2.damping = self.damping := by
  induction fs generalizing self c with
  | nil => exact ⟨rfl, h, rfl, rfl⟩
  | cons f fs ih =>
      obtain ⟨hout, hnext, hroom, hdamping⟩ := frame_eq h f
      obtain ⟨houts, hlast, hroom', hdamping'⟩ := ih hnext
      rw [List.map_cons, run_cons]
      exact ⟨congrArg₂ List.cons hout houts, hlast, hroom'.trans hroom, hdamping'.trans hdamping⟩

/-- **The blocks are one run**: the parameters of a frame are those of its block. -/
theorem blocks_run {self : Reverb K} {c : Channel K × Channel K}
    (h : ∀ p, setParams p self.channels = setParams p c)
    (bs : List (MidiControl K × List (K × K))) :
    (blocks bs self).1.flatten = (run sample (bs.flatMap self.inputs) c).1
      ∧ (∀ p, setParams p (blocks bs self).2.channels
        = setParams p (run sample (bs.flatMap self.inputs) c).2)
      ∧ (blocks bs self).2.inputs = self.inputs := by
  induction bs generalizing self c with
  | nil => exact ⟨rfl, h, rfl⟩
  | cons b bs ih =>
      have hset : (set_params (self.params b.1).rs (self.params b.1).dp (self.params b.1).dp_inv
          self).channels = setParams (self.params b.1) c := h (self.params b.1)
      obtain ⟨hout, hnext, hroom, hdamping⟩ := frames_run hset b.2
      have hinputs : (process b.1 b.2 self).2.inputs = self.inputs := inputs_congr hroom hdamping
      have hsame : ∀ p, setParams p (process b.1 b.2 self).2.channels
          = setParams p (run sample (self.inputs b) c).2 := by
        intro p
        have hset := congrArg (setParams p) hnext
        exact hset
      obtain ⟨houts, hlast, hinputs'⟩ := ih hsame
      rw [hinputs] at houts hlast hinputs'
      rw [List.flatMap_cons, run_append]
      exact ⟨congrArg₂ (· ++ ·) hout houts, hlast, hinputs'⟩

end Reverb

end

/-! ## A comb settles -/

section

variable {K : Type} [Field K] [LinearOrder K] [IsStrictOrderedRing K]

/-- The parameters that a size and a damping in the unit interval give, and some more. -/
structure CombParams.Gentle (p : CombParams K) : Prop where
  rs_nonneg : 0 ≤ p.rs
  rs_le : p.rs ≤ 0.98
  dp_nonneg : 0 ≤ p.dp
  dp_le : p.dp ≤ 0.4
  dp_inv : p.dp_inv = 1 - p.dp

/-- Gentle parameters and a sample. -/
def gentle : Scale K (CombParams K × K) where
  within B i := i.1.Gentle ∧ |i.2| ≤ B
  mono h hi := ⟨hi.1, hi.2.trans h⟩

namespace Comb4

/-- Rings of at most `L` samples; the feedback can make fifty times the input of it. -/
def bound (L : ℕ) : Scale K (Comb4 K) where
  within B c := ∀ i, (c.buffers i).buffer.length ≤ L
    ∧ (∀ v ∈ (c.buffers i).buffer, |v| ≤ 50 * B) ∧ |c.filter_state i| ≤ 50 * B
  mono := by
    intro B C c h hc i
    obtain ⟨hlen, hbuf, hstate⟩ := hc i
    have hle : 50 * B ≤ 50 * C := mul_le_mul_of_nonneg_left h (by norm_num)
    exact ⟨hlen, fun v hv => (hbuf v hv).trans hle, hstate.trans hle⟩

variable {L : ℕ} {B C : K} {p : CombParams K} {x f y : K}

/-- What is written into a ring: a part of the way down from `B` to the input. -/
theorem new_input_le (hp : p.Gentle) (hx : |x| ≤ C) (hf : |f| ≤ 50 * B) (hB : 0 ≤ B) :
    |x + f * p.rs| ≤ 50 * (C + 0.98 * (B - C)) := by
  have hfb : |f * p.rs| ≤ 50 * B * 0.98 := by
    rw [abs_mul, abs_of_nonneg hp.rs_nonneg]
    exact mul_le_mul hf hp.rs_le hp.rs_nonneg (mul_nonneg (by norm_num) hB)
  have hsum := abs_add_le x (f * p.rs)
  linarith

/-- The damping: a part of the way down from `B` to what is read. -/
theorem filter_le (hp : p.Gentle) (hy : |y| ≤ 50 * C) (hf : |f| ≤ 50 * B) (hCB : C ≤ B) :
    |y * p.dp_inv + f * p.dp| ≤ 50 * (C + 0.4 * (B - C)) := by
  have hdp := hp.dp_le
  have hmix := abs_mix_le hp.dp_nonneg (hdp.trans (by norm_num)) hy hf
  rw [hp.dp_inv]
  have hpart := mul_le_mul_of_nonneg_right hdp (sub_nonneg.mpr hCB)
  linarith

/-- The sum of four lanes. -/
theorem reduce_add_le {v : F32x4 K} (hv : ∀ i, |v i| ≤ B) :
    |v.reduce_add| ≤ 4 * B := by
  have h₁ := abs_add_le (v 0) (v 1)
  have h₂ := abs_add_le (v 0 + v 1) (v 2)
  have h₃ := abs_add_le (v 0 + v 1 + v 2) (v 3)
  have hv₀ := hv 0
  have hv₁ := hv 1
  have hv₂ := hv 2
  have hv₃ := hv 3
  unfold F32x4.reduce_add
  linarith

/-- **A comb is stable**: the feedback makes up for no more than it loses. -/
theorem stable (L : ℕ) :
    Stable (sample (K := K)) gentle (bound L) (Scale.abs.times 200 (by norm_num)) := by
  refine ⟨fun {B i c} hB hi hc => ⟨?_, fun j => ?_⟩⟩
  · have hout : |(sample i c).1| ≤ 4 * (50 * B) :=
      reduce_add_le fun j => (hc j).2.1 _ (c.buffers j).read_mem
    show |(sample i c).1| ≤ 200 * B
    linarith
  · obtain ⟨hlen, hbuf, hstate⟩ := hc j
    have hnew := new_input_le hi.1 hi.2 hstate hB
    have hfilter := filter_le hi.1 (hbuf _ (c.buffers j).read_mem) hstate (le_refl B)
    rw [sub_self, mul_zero, add_zero] at hnew hfilter
    refine ⟨?_, RingBuffer.forall_mem_write hbuf hnew, hfilter⟩
    rw [← RingBuffer.write_length (c.buffers j) (i.2 + c.filter_state j * i.1.rs)] at hlen
    exact hlen

/-- After `k` inputs within `C` the last `k` entries of the rings have come down. -/
theorem run_fresh (hC : 0 ≤ C) (hCB : C ≤ B) {is : List (CombParams K × K)} {c : Comb4 K}
    (hc : (bound L).within B c) (his : ∀ i ∈ is, gentle.within C i) :
    ∀ j, ((run sample is c).2.buffers j).Fresh (fun v => |v| ≤ 50 * (C + 0.98 * (B - C)))
      is.length := by
  induction is using List.reverseRecOn with
  | nil => exact fun j => RingBuffer.fresh_zero _ _
  | append_singleton is i ih =>
      rw [List.forall_mem_append, List.forall_mem_singleton] at his
      have hB : 0 ≤ B := hC.trans hCB
      have hall : ∀ i ∈ is, gentle.within B i := fun i hi => gentle.mono hCB (his.1 i hi)
      obtain ⟨-, hkept⟩ := (stable L).run hB hall hc
      intro j
      rw [run_concat, List.length_append, List.length_singleton]
      exact (ih his.1 j).write (new_input_le his.2.1 his.2.2 (hkept j).2.2 hB)

/-- **A comb settles**: once all entries are new, the feedback is of the new size. -/
theorem settles (L : ℕ) : Settles (sample (K := K)) gentle (bound L) 0.988 (L + 1) := by
  refine ⟨fun {B C is c} hC hCB hc his hlen => ?_⟩
  have hB : 0 ≤ B := hC.trans hCB
  rcases List.eq_nil_or_concat is with rfl | ⟨is, i, rfl⟩
  · cases hlen
  rw [List.concat_eq_append] at his hlen ⊢
  rw [List.forall_mem_append, List.forall_mem_singleton] at his
  rw [List.length_append, List.length_singleton] at hlen
  have hall : ∀ i ∈ is, gentle.within B i := fun i hi => gentle.mono hCB (his.1 i hi)
  obtain ⟨-, hkept⟩ := (stable L).run hB hall hc
  intro j
  rw [run_concat]
  obtain ⟨hlength, -, hstate⟩ := hkept j
  -- the last sample finds new entries only
  have hfresh : ∀ v ∈ ((run sample is c).2.buffers j).buffer,
      |v| ≤ 50 * (C + 0.98 * (B - C)) :=
    (run_fresh hC hCB hc his.1 j).forall_mem (by omega)
  have hnew := new_input_le his.2.1 his.2.2 hstate hB
  have hD : 0 ≤ B - C := sub_nonneg.mpr hCB
  have hpart : C + 0.98 * (B - C) ≤ B := by linarith
  have hfilter := filter_le his.2.1 (hfresh _ (RingBuffer.read_mem _)) hstate hpart
  refine ⟨?_, fun v hv => ?_, ?_⟩
  · rw [← RingBuffer.write_length _ (i.2 + (run sample is c).2.filter_state j * i.1.rs)] at hlength
    exact hlength
  · have hle := RingBuffer.forall_mem_write hfresh hnew v hv
    linarith
  · refine hfilter.trans ?_
    linarith

end Comb4

/-! ## An allpass settles -/

namespace Allpass

/-- Rings of at most `L` samples, with the feedback that `new` sets. -/
def bound (L : ℕ) : Scale K (Allpass K) where
  within B a := a.feedback = 0.5 ∧ a.buffer.buffer.length ≤ L ∧ ∀ v ∈ a.buffer.buffer, |v| ≤ B
  mono h ha := ⟨ha.1, ha.2.1, fun v hv => (ha.2.2 v hv).trans h⟩

variable {L : ℕ} {B C x y fb : K}

/-- What is stored lies half way between the input and what is read. -/
theorem to_store_le (hfb : fb = 0.5) (hx : |x| ≤ C) (hy : |y| ≤ B) :
    |x + (-x + y) * fb| ≤ C + 0.5 * (B - C) := by
  have hmix := abs_mix_le (t := 0.5) (by norm_num) (by norm_num) hx hy
  have heq : x + (-x + y) * fb = x * (1 - 0.5) + y * 0.5 := by
    rw [hfb]
    ring
  rw [heq]
  linarith

theorem stable (L : ℕ) : Stable (process (K := K)) Scale.abs (bound L)
    (Scale.abs.times 2.0 (by norm_num)) := by
  refine ⟨fun {B x a} hB hx ha => ?_⟩
  obtain ⟨hfeedback, hlen, hbuf⟩ := ha
  have hread := hbuf _ a.buffer.read_mem
  refine ⟨?_, hfeedback, ?_, ?_⟩
  · have hout := abs_add_le (-x) a.buffer.read
    have hx : |x| ≤ B := hx
    rw [abs_neg] at hout
    show |-x + a.buffer.read| ≤ 2.0 * B
    linarith
  · rw [← RingBuffer.write_length _ (x + (-x + a.buffer.read) * a.feedback)] at hlen
    exact hlen
  · have hstore := to_store_le hfeedback hx hread
    rw [sub_self, mul_zero, add_zero] at hstore
    exact RingBuffer.forall_mem_write hbuf hstore

theorem run_fresh (hC : 0 ≤ C) (hCB : C ≤ B) {xs : List K} {a : Allpass K}
    (ha : (bound L).within B a) (hxs : ∀ x ∈ xs, Scale.abs.within C x) :
    (run process xs a).2.buffer.Fresh (fun v => |v| ≤ C + 0.5 * (B - C)) xs.length := by
  induction xs using List.reverseRecOn with
  | nil => exact RingBuffer.fresh_zero _ _
  | append_singleton xs x ih =>
      rw [List.forall_mem_append, List.forall_mem_singleton] at hxs
      have hall : ∀ x ∈ xs, Scale.abs.within B x := fun x hx => (hxs.1 x hx).trans hCB
      obtain ⟨-, hfeedback, -, hbuf⟩ := (stable L).run (hC.trans hCB) hall ha
      rw [run_concat, List.length_append, List.length_singleton]
      exact (ih hxs.1).write (to_store_le hfeedback hxs.2 (hbuf _ (RingBuffer.read_mem _)))

/-- **An allpass settles** as soon as all entries are new. -/
theorem settles (L : ℕ) : Settles (process (K := K)) Scale.abs (bound L) 0.5 L := by
  refine ⟨fun {B C xs a} hC hCB ha hxs hlen => ?_⟩
  have hall : ∀ x ∈ xs, Scale.abs.within B x := fun x hx => (hxs x hx).trans hCB
  obtain ⟨-, hfeedback, hlength, -⟩ := (stable L).run (hC.trans hCB) hall ha
  exact ⟨hfeedback, hlength, (run_fresh hC hCB ha hxs).forall_mem (hlength.trans hlen)⟩

end Allpass

/-! ## The reverb settles -/

namespace Reverb

def combScale (L : ℕ) : Scale K (Comb4 K × Comb4 K) := (Comb4.bound L).prod (Comb4.bound L)

/-- The combs make up to 400 times the input of it, and each allpass twice as much again. -/
def channelScale (L : ℕ) : Scale K (Channel K) :=
  (combScale L).prod (((Allpass.bound L).row 2.0 (by norm_num) 4).times 400.0 (by norm_num))

/-- A frame reaches the channels with a part of 0.015. -/
def bound (L : ℕ) : Scale K (Channel K × Channel K) :=
  ((channelScale L).prod (channelScale L)).times 0.015 (by norm_num)

/-- No channel of the frame is louder than the number. -/
def loudness : Scale K (K × K) := Scale.abs.prod Scale.abs

/-- Gentle parameters and a frame. -/
def gentleFrame : Scale K (CombParams K × (K × K)) where
  within B i := i.1.Gentle ∧ loudness.within B i.2
  mono h hi := ⟨hi.1, loudness.mono h hi.2⟩

/-- The sum of the eight combs is at most 400 times their input. -/
theorem combs_stable (L : ℕ) :
    Stable (between id (both Comb4.sample Comb4.sample) fun y : K × K => y.1 + y.2) gentle
      (combScale L) (Scale.abs.times 400.0 (by norm_num)) := by
  refine ((Comb4.stable L).both (Comb4.stable L)).between (fun _ hx => hx) fun {B y} _ hy => ?_
  have h₁ : |y.1| ≤ 200 * B := hy.1
  have h₂ : |y.2| ≤ 200 * B := hy.2
  have hsum := abs_add_le y.1 y.2
  show |y.1 + y.2| ≤ 400.0 * B
  linarith

/-- Each allpass of the row may double what it gets. -/
theorem row_stable (L : ℕ) : Stable (row (Allpass.process (K := K)))
    (Scale.abs.times 400.0 (by norm_num))
    (((Allpass.bound L).row 2.0 (by norm_num) 4).times 400.0 (by norm_num))
    ((Scale.abs.times (2.0 ^ 4) (by norm_num)).times 400.0 (by norm_num)) :=
  (Stable.row (by norm_num) (Allpass.stable L) 4).times (by norm_num)

/-- A channel: the combs, and the row behind them. -/
theorem channel_stable (L : ℕ) : Stable (channel (K := K)) gentle (channelScale L)
    ((Scale.abs.times (2.0 ^ 4) (by norm_num)).times 400.0 (by norm_num)) :=
  (combs_stable L).chain (row_stable L)

/-- And it settles: when all entries of the combs are new, and then those of each allpass. -/
theorem channel_settles (L : ℕ) :
    Settles (channel (K := K)) gentle (channelScale L) 0.99925 (L + 1 + 4 * L) := by
  have hcombs : Settles (between id (both Comb4.sample Comb4.sample) fun y : K × K => y.1 + y.2)
      gentle (combScale L) 0.988 (L + 1) :=
    ((Comb4.settles L).both (Comb4.settles L)).between fun _ hx => hx
  have hrow := Settles.row (by norm_num) (Allpass.stable (K := K) L) (Allpass.settles L)
    (by norm_num) (by norm_num) 4
  refine (Settles.chain (combs_stable L) hcombs (hrow.times (by norm_num)) (by norm_num)
    (by norm_num) (by norm_num) (row_stable L)).weaken ?_ (le_refl _)
  norm_num

/-- What a frame puts into both channels. -/
theorem input_le {B : K} {i : CombParams K × (K × K)} (hi : gentleFrame.within B i) :
    (gentle.times 0.015 (by norm_num)).within B (i.1, (i.2.1 + i.2.2) * 0.5 * 0.015) := by
  have h₁ : |i.2.1| ≤ B := hi.2.1
  have h₂ : |i.2.2| ≤ B := hi.2.2
  refine ⟨hi.1, ?_⟩
  have hsum := abs_add_le i.2.1 i.2.2
  show |(i.2.1 + i.2.2) * 0.5 * 0.015| ≤ 0.015 * B
  rw [mul_assoc, abs_mul, abs_of_nonneg (by norm_num : (0 : K) ≤ 0.5 * 0.015)]
  linarith

/-- **The reverb is stable.** -/
theorem stable (L : ℕ) : Stable (sample (K := K)) gentleFrame (bound L)
    (loudness.times 96 (by norm_num)) := by
  refine (((channel_stable L).both (channel_stable L)).times (by norm_num)).between
    (fun _ hi => input_le hi) fun {B y} _ hy => ⟨?_, ?_⟩
  · have hle : |y.1| ≤ 2.0 ^ 4 * (400.0 * (0.015 * B)) := hy.1
    show |y.1| ≤ 96 * B
    linarith
  · have hle : |y.2| ≤ 2.0 ^ 4 * (400.0 * (0.015 * B)) := hy.2
    show |y.2| ≤ 96 * B
    linarith

/-- **The reverb settles.** -/
theorem settles (L : ℕ) :
    Settles (sample (K := K)) gentleFrame (bound L) 0.99925 (L + 1 + 4 * L) :=
  (((channel_settles L).both (channel_settles L)).times (by norm_num)).between
    fun _ hi => input_le hi

/-! ## From the beginning -/

/-- A size and a damping in the unit interval. -/
def Gentle (self : Reverb K) (control : MidiControl K) : Prop :=
  0 ≤ self.room_size.val control ∧ self.room_size.val control ≤ 1
    ∧ 0 ≤ self.damping.val control ∧ self.damping.val control ≤ 1

/-- A size and a damping in the unit interval give gentle parameters: a feedback of at most
0.98, and a damping that is a mix. -/
theorem Gentle.params {self : Reverb K} {control : MidiControl K} (h : self.Gentle control) :
    (self.params control).Gentle := by
  obtain ⟨hroom, hroom', hdamping, hdamping'⟩ := h
  refine ⟨?_, ?_, ?_, ?_, rfl⟩
  · show 0 ≤ self.room_size.val control * 0.28 + 0.7
    linarith
  · show self.room_size.val control * 0.28 + 0.7 ≤ 0.98
    linarith
  · show 0 ≤ self.damping.val control * 0.4
    linarith
  · show self.damping.val control * 0.4 ≤ 0.4
    linarith

/-- Blocks with gentle controls and no frame louder than `B`. -/
def Within (self : Reverb K) (B : K) (bs : List (MidiControl K × List (K × K))) : Prop :=
  ∀ b ∈ bs, self.Gentle b.1 ∧ ∀ f ∈ b.2, loudness.within B f

/-- The machine gets gentle frames. -/
theorem Within.inputs {self : Reverb K} {B : K} {bs : List (MidiControl K × List (K × K))}
    (h : self.Within B bs) : ∀ i ∈ bs.flatMap self.inputs, gentleFrame.within B i := by
  intro i hi
  obtain ⟨b, hb, hi⟩ := List.mem_flatMap.mp hi
  obtain ⟨f, hf, rfl⟩ := List.mem_map.mp hi
  exact ⟨(h b hb).1.params, (h b hb).2 f hf⟩

/-- **A block** leaves the reverb within what it was within. -/
theorem process_within {self : Reverb K} {control : MidiControl K} {L : ℕ} {B : K} (hB : 0 ≤ B)
    (hgentle : self.Gentle control) {fs : List (K × K)} (hfs : ∀ f ∈ fs, |f.1| ≤ B ∧ |f.2| ≤ B)
    (h : (bound L).within B self.channels) :
    (∀ f ∈ (process control fs self).1, |f.1| ≤ 96 * B ∧ |f.2| ≤ 96 * B)
      ∧ (bound L).within B (process control fs self).2.channels
      ∧ (process control fs self).2.room_size = self.room_size
      ∧ (process control fs self).2.damping = self.damping := by
  have hset : (set_params (self.params control).rs (self.params control).dp
      (self.params control).dp_inv self).channels = setParams (self.params control) self.channels :=
    rfl
  obtain ⟨hout, hnext, hroom, hdamping⟩ := frames_run hset fs
  obtain ⟨hle, hkept⟩ := (stable L).run hB
    (fun i hi => by
      obtain ⟨f, hf, rfl⟩ := List.mem_map.mp hi
      exact ⟨hgentle.params, hfs f hf⟩ :
      ∀ i ∈ fs.map fun f => (self.params control, f), gentleFrame.within B i) h
  refine ⟨fun f hf => ?_, ?_, hroom, hdamping⟩
  · have hmem : f ∈ (run sample (fs.map fun f => (self.params control, f)) self.channels).1 := by
      rw [← hout]
      exact hf
    exact hle f hmem
  · have hlast : (bound L).within B (setParams (self.params control)
        (run sample (fs.map fun f => (self.params control, f)) self.channels).2) := hkept
    rw [← hnext] at hlast
    exact hlast

/-- A ring that was just made is silent. -/
theorem new_bound {B : K} (hB : 0 ≤ B) {n L : ℕ} (hn : 0 < n) (hL : n ≤ L) :
    (RingBuffer.new n hn (0 : K)).buffer.length ≤ L
      ∧ ∀ v ∈ (RingBuffer.new n hn (0 : K)).buffer, |v| ≤ B := by
  refine ⟨?_, fun v hv => ?_⟩
  · show (List.replicate n (0 : K)).length ≤ L
    rw [List.length_replicate]
    exact hL
  · rw [List.eq_of_mem_replicate hv, abs_zero]
    exact hB

/-- New combs are silent. -/
theorem combs_new {offset L : ℕ} (hL : 1617 + offset ≤ L) :
    (combScale L).within 0 (combs offset : Comb4 K × Comb4 K) := by
  have htuning : ∀ i, comb_tuning_1 i ≤ 1617 ∧ comb_tuning_2 i ≤ 1617 := by decide
  have hrest : |(0 : K)| ≤ 50 * 0 := by rw [abs_zero, mul_zero]
  have hzero : (0 : K) ≤ 50 * 0 := le_of_eq (mul_zero _).symm
  constructor
  · intro i
    have hle := (htuning i).1
    obtain ⟨hlen, hbuf⟩ := new_bound hzero (Nat.add_pos_left (tuning_pos.1 i) offset)
      (show comb_tuning_1 i + offset ≤ L by omega)
    exact ⟨hlen, hbuf, hrest⟩
  · intro i
    have hle := (htuning i).2
    obtain ⟨hlen, hbuf⟩ := new_bound hzero (Nat.add_pos_left (tuning_pos.2.1 i) offset)
      (show comb_tuning_2 i + offset ≤ L by omega)
    exact ⟨hlen, hbuf, hrest⟩

/-- New allpasses are silent. -/
theorem allpasses_new {offset L : ℕ} (hL : 1617 + offset ≤ L) :
    ((Allpass.bound L).row 2.0 (by norm_num) 4).within 0 (allpasses offset : List (Allpass K)) := by
  show ((Allpass.bound L).row 2.0 _ (allpasses offset : List (Allpass K)).length).within 0 _
  refine Scale.row_zero (by norm_num) fun a ha => ?_
  obtain ⟨⟨t, ht⟩, -, rfl⟩ := List.mem_map.mp ha
  have htuning : ∀ t ∈ allpass_tuning, t ≤ 556 := by decide
  have hle := htuning t ht
  exact ⟨rfl, new_bound (le_refl 0) (Nat.add_pos_left (tuning_pos.2.2 t ht) offset) (by omega)⟩

/-- So is a channel. -/
theorem channel_new {offset L : ℕ} (hL : 1617 + offset ≤ L) :
    (channelScale L).within 0 ((combs offset, allpasses offset) : Channel K) :=
  ⟨combs_new hL, Scale.times_zero (by norm_num) (allpasses_new hL)⟩

/-- A new reverb is within every bound. -/
theorem new_within (room_size damping : AudioParam K) (seed : ℕ) {B : K} (hB : 0 ≤ B) :
    (bound (1640 + seed)).within B (new_with_params room_size damping seed).channels := by
  refine (bound (1640 + seed)).mono hB (Scale.times_zero (by norm_num) ⟨?_, ?_⟩)
  · exact channel_new (show 1617 + seed ≤ 1640 + seed by omega)
  · exact channel_new (show 1617 + (stereo_spread + seed) ≤ 1640 + seed by
      unfold stereo_spread
      omega)

/-- Blocks within a bound are within a larger one. -/
theorem Within.mono {self : Reverb K} {B C : K} {bs : List (MidiControl K × List (K × K))}
    (h : self.Within B bs) (hle : B ≤ C) : self.Within C bs :=
  fun b hb => ⟨(h b hb).1, fun f hf => loudness.mono hle ((h b hb).2 f hf)⟩

/-- A block in which one frame is repeated, in front of others. -/
theorem Within.hold {self : Reverb K} {B : K} {control : MidiControl K} {frame : K × K} {n : ℕ}
    {bs : List (MidiControl K × List (K × K))} (hgentle : self.Gentle control)
    (hframe : loudness.within B frame) (h : self.Within B bs) :
    self.Within B ((control, List.replicate n frame) :: bs) :=
  List.forall_mem_cons.mpr
    ⟨⟨hgentle, fun f hf => by rw [List.eq_of_mem_replicate hf]; exact hframe⟩, h⟩

omit [IsStrictOrderedRing K] in
/-- The reverb of the chain, with both controls at `x`. -/
theorem gentle_live (seed : ℕ) {x : K} (hx : 0 ≤ x) (hx' : x ≤ 1) :
    (new_with_params (.live slot.REVERB_SIZE) (.live slot.REVERB_DAMPING) seed : Reverb K).Gentle
      ⟨fun _ => x, true, false⟩ := ⟨hx, hx', hx, hx'⟩

section Runs

variable (room_size damping : AudioParam K) (seed : ℕ)

/-- **The reverb never runs away.** Whatever size and damping do between zero and one: from
the beginning on no frame comes out more than 96 times as loud as the loudest that went in. -/
theorem never_runs_away {B : K} (hB : 0 ≤ B) (bs : List (MidiControl K × List (K × K)))
    (hbs : (new_with_params room_size damping seed).Within B bs) :
    ∀ out ∈ (blocks bs (new_with_params room_size damping seed)).1, ∀ f ∈ out,
      |f.1| ≤ 96 * B ∧ |f.2| ≤ 96 * B := by
  intro out hout f hf
  obtain ⟨hflat, -⟩ := blocks_run (fun _ => rfl) bs
  obtain ⟨hle, -⟩ := (stable (1640 + seed)).run hB hbs.inputs (new_within room_size damping seed hB)
  have hmem := List.mem_flatten.mpr ⟨out, hout, hf⟩
  rw [hflat] at hmem
  exact hle f hmem

/-- Both controls over their whole range, in blocks in which the rings come round. -/
theorem within_sweep :
    (new_with_params (.live slot.REVERB_SIZE) (.live slot.REVERB_DAMPING) 0 : Reverb ℚ).Within 1
      [(⟨fun _ => 0, true, false⟩, List.replicate 2000 (1, -1 / 2)),
        (⟨fun _ => 1, true, false⟩, List.replicate 2000 (-1, 1)),
        (⟨fun _ => 1 / 2, true, false⟩, List.replicate 2000 (0, 1 / 3))] := by
  refine .hold (gentle_live 0 (by norm_num) (by norm_num)) ⟨?_, ?_⟩
    (.hold (gentle_live 0 (by norm_num) (by norm_num)) ⟨?_, ?_⟩
    (.hold (gentle_live 0 (by norm_num) (by norm_num)) ⟨?_, ?_⟩ (List.forall_mem_nil _)))
  · exact show |(1 : ℚ)| ≤ 1 by decide +kernel
  · exact show |(-1 / 2 : ℚ)| ≤ 1 by decide +kernel
  · exact show |(-1 : ℚ)| ≤ 1 by decide +kernel
  · exact show |(1 : ℚ)| ≤ 1 by decide +kernel
  · exact show |(0 : ℚ)| ≤ 1 by decide +kernel
  · exact show |(1 / 3 : ℚ)| ≤ 1 by decide +kernel

/-- The sweep through the reverb: three blocks come out, and none is too loud. -/
theorem never_runs_away_sweep : ∃ outs : List (List (ℚ × ℚ)),
    (blocks [(⟨fun _ => 0, true, false⟩, List.replicate 2000 (1, -1 / 2)),
        (⟨fun _ => 1, true, false⟩, List.replicate 2000 (-1, 1)),
        (⟨fun _ => 1 / 2, true, false⟩, List.replicate 2000 (0, 1 / 3))]
        (new_with_params (.live slot.REVERB_SIZE) (.live slot.REVERB_DAMPING) 0 : Reverb ℚ)).1
      = outs
      ∧ outs.length = 3 ∧ ∀ out ∈ outs, ∀ f ∈ out, |f.1| ≤ 96 ∧ |f.2| ≤ 96 := by
  refine ⟨_, rfl, Machine.run_length _ _ _, fun out hout f hf => ?_⟩
  have hle := never_runs_away _ _ 0 (show (0 : ℚ) ≤ 1 by norm_num) _ within_sweep out hout f hf
  rw [mul_one] at hle
  exact hle

/-- **The tail dies away.** However loud it was before, and whatever size and damping do:
after a number of silent frames nothing above `ε` comes out any more. -/
theorem tail_dies_away [Archimedean K] {B ε : K} (hB : 0 ≤ B) (hε : 0 < ε) :
    ∃ n, ∀ bs quiet more : List (MidiControl K × List (K × K)),
      (new_with_params room_size damping seed).Within B bs →
      (new_with_params room_size damping seed).Within 0 (quiet ++ more) →
      n ≤ (quiet.flatMap Prod.snd).length →
      ∀ out ∈ (blocks more (blocks (bs ++ quiet) (new_with_params room_size damping seed)).2).1,
        ∀ f ∈ out, |f.1| ≤ ε ∧ |f.2| ≤ ε := by
  have hpart : 0 < ε / 96 := div_pos hε (by norm_num)
  obtain ⟨n, hn⟩ := (settles (1640 + seed)).fades (stable (1640 + seed)) (by norm_num) (by norm_num)
    hB hpart
  refine ⟨n, fun bs quiet more hbs hsilent hlen out hout f hf => ?_⟩
  have hquiet : (new_with_params room_size damping seed).Within 0 quiet :=
    fun b hb => hsilent b (List.mem_append_left _ hb)
  have hmore : (new_with_params room_size damping seed).Within (ε / 96) more :=
    Within.mono (fun b hb => hsilent b (List.mem_append_right _ hb)) hpart.le
  -- the state behind the silence
  obtain ⟨-, hsame, hinputs⟩ := @blocks_run _ _ (new_with_params room_size damping seed) _
    (fun _ => rfl) (bs ++ quiet)
  rw [List.flatMap_append, run_append] at hsame
  obtain ⟨-, hloud⟩ := (stable (1640 + seed)).run hB hbs.inputs
    (new_within room_size damping seed hB)
  have hcount : n ≤ (quiet.flatMap (new_with_params room_size damping seed).inputs).length := by
    refine hlen.trans (le_of_eq ?_)
    rw [List.length_flatMap, List.length_flatMap]
    exact congrArg List.sum (List.map_congr_left fun b _ => (List.length_map _).symm)
  have hfaded := hn _ _ hloud hquiet.inputs hcount
  -- what comes after it
  obtain ⟨hflat, -⟩ := blocks_run hsame more
  rw [hinputs] at hflat
  obtain ⟨hle, -⟩ := (stable (1640 + seed)).run hpart.le hmore.inputs hfaded
  have hmem := List.mem_flatten.mpr ⟨out, hout, hf⟩
  rw [hflat] at hmem
  obtain ⟨h₁, h₂⟩ := hle f hmem
  have hscale : 96 * (ε / 96) = ε := mul_div_cancel₀ ε (by norm_num)
  exact ⟨h₁.trans (le_of_eq hscale), h₂.trans (le_of_eq hscale)⟩

/-- The sweep, silent frames behind it, and a frame behind those. -/
theorem tail_dies_away_sweep : ∃ n : ℕ,
    ∀ out ∈ (blocks [(⟨fun _ => 1, true, false⟩, [((0 : ℚ), (0 : ℚ))])] (blocks
        ([(⟨fun _ => 0, true, false⟩, List.replicate 2000 (1, -1 / 2)),
          (⟨fun _ => 1, true, false⟩, List.replicate 2000 (-1, 1)),
          (⟨fun _ => 1 / 2, true, false⟩, List.replicate 2000 (0, 1 / 3))]
          ++ [(⟨fun _ => 1 / 4, true, false⟩, List.replicate n (0, 0))])
        (new_with_params (.live slot.REVERB_SIZE) (.live slot.REVERB_DAMPING) 0)).2).1,
      ∀ f ∈ out, |f.1| ≤ 1 / 1000 ∧ |f.2| ≤ 1 / 1000 := by
  obtain ⟨n, hn⟩ := tail_dies_away (.live slot.REVERB_SIZE : AudioParam ℚ)
    (.live slot.REVERB_DAMPING) 0 (zero_le_one : (0 : ℚ) ≤ 1) (show (0 : ℚ) < 1 / 1000 by norm_num)
  have hsilent : loudness.within (0 : ℚ) (0, 0) := ⟨abs_zero.le, abs_zero.le⟩
  refine ⟨n, hn _ _ _ within_sweep (.hold (gentle_live 0 (by norm_num) (by norm_num)) hsilent
    (.hold (n := 1) (gentle_live 0 (by norm_num) (by norm_num)) hsilent (List.forall_mem_nil _)))
    ?_⟩
  rw [List.flatMap_singleton, List.length_replicate]

end Runs

end Reverb

end

end PicoDsp
