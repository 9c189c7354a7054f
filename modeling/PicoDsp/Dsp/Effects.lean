/-
The effects behind the voice: what `build_synth` (`tasks/core1.rs`) puts together from
`MonoToStereo`, `DualMono`, `ParallelMixer`, `Bypass`, `StereoWidener` and `Gain` of
`vendor/infinitedsp-core`.

The bounds of the parts add up: a voice that stays within `B` leaves the effects within 72
times the sum of the echoes, in every stream and with every motion of the controls, as long
as the feedback of the delays keeps below one.

Each part is bounded by itself, the delays in `Dsp/EchoBound.lean` and the reverb in
`Dsp/Reverb.lean`, and what is kept between blocks is said by one structure with a field
for each of them (`Held`). The stages are then lemmas of one shape: frames within some
bound go in, frames within another one come out, and the state stays as it is said.

A bypass is switched when the voice is built. With a part switched off its frames go
through as they are and its state stands still, so the bound holds for either setting; the
factor of the reverb is counted in any case. The widener may make a channel louder by
half, and the gain halves everything, which leaves three quarters of the 96.

A stereo block is the list of its frames, so the interleaving of the buffers is left out. No
part has a latency, and the buffers that a mixer uses to align the dry and the wet signal
stay empty.
-/
import PicoDsp.Dsp.EchoBound
import PicoDsp.Dsp.Reverb

set_option autoImplicit false

namespace PicoDsp

open Lib Lib.Machine

structure Effects (K : Type) [Field K] [LinearOrder K] [IsStrictOrderedRing K] [FloorRing K] where
  delay_l : PsramDelay K (PsramDelay.size (0.3 : K) PsramDelay.SAMPLE_RATE)
  delay_r : PsramDelay K (PsramDelay.size (0.3 : K) PsramDelay.SAMPLE_RATE)
  delay_enabled : Bool
  reverb : Reverb K
  reverb_enabled : Bool

namespace Effects

variable {K : Type} [Field K] [LinearOrder K] [IsStrictOrderedRing K] [FloorRing K]

def new (delay_enabled reverb_enabled : Bool) : Effects K where
  delay_l := PsramDelay.make_delay PsramDelay.Channel.left.time_mult
  delay_r := PsramDelay.make_delay PsramDelay.Channel.right.time_mult
  delay_enabled := delay_enabled
  reverb := Reverb.new_with_params (.live slot.REVERB_SIZE) (.live slot.REVERB_DAMPING) 0
  reverb_enabled := reverb_enabled

omit [LinearOrder K] [IsStrictOrderedRing K] [FloorRing K] in
/-- `ParallelMixer::process`, from the dry and the wet block. -/
def mixer (wet_gain : K) (dry wet : List (K × K)) : List (K × K) :=
  let dry_gain := 1.0 - wet_gain
  (dry.zip wet).map fun p =>
    (p.1.1 * dry_gain + p.2.1 * wet_gain, p.1.2 * dry_gain + p.2.2 * wet_gain)

/-- `delay_bypass`: two delays side by side, mixed in fully. -/
def delay_bypass (control : MidiControl K) (buffer : List (K × K)) (self : Effects K) :
    Option (List (K × K) × Effects K) :=
  if self.delay_enabled then do
    let (left, delay_l) ← PsramDelay.process control (buffer.map Prod.fst) self.delay_l
    let (right, delay_r) ← PsramDelay.process control (buffer.map Prod.snd) self.delay_r
    pure (mixer 1.0 buffer (left.zip right), { self with delay_l := delay_l, delay_r := delay_r })
  else pure (buffer, self)

/-- `reverb_bypass` -/
def reverb_bypass (control : MidiControl K) (buffer : List (K × K)) (self : Effects K) :
    List (K × K) × Effects K :=
  if self.reverb_enabled then
    let (wet, reverb) := Reverb.process control buffer self.reverb
    (mixer (control.get_cont slot.REVERB_MIX) buffer wet, { self with reverb := reverb })
  else (buffer, self)

omit [LinearOrder K] [IsStrictOrderedRing K] [FloorRing K] in
/-- A frame of `StereoWidener::process`. -/
def widener (width : K) (frame : K × K) : K × K :=
  let mid := (frame.1 + frame.2) * 0.5
  let side := (frame.1 - frame.2) * 0.5
  let side_boosted := side * width
  (mid + side_boosted, mid - side_boosted)

omit [LinearOrder K] [IsStrictOrderedRing K] [FloorRing K] in
/-- A frame of `Gain::process`. -/
def gain (g : K) (frame : K × K) : K × K := (frame.1 * g, frame.2 * g)

/-- What the chain makes of a block of the voice. -/
def process (control : MidiControl K) (voice : List K) (self : Effects K) :
    Option (List (K × K) × Effects K) := do
  let buffer := voice.map fun x => (x, x)
  let (buffer, self) ← delay_bypass control buffer self
  let (buffer, self) := reverb_bypass control buffer self
  pure ((buffer.map (widener 1.5)).map (gain 0.5), self)

/-- A stream of blocks, each with the controls it finds. -/
def stream : List (MidiControl K × List K) → Effects K →
    Option (List (List (K × K)) × Effects K)
  | [], self => some ([], self)
  | (control, voice) :: rest, self => do
      let (out, self) ← process control voice self
      let (outs, self) ← stream rest self
      pure (out :: outs, self)

/-! ## The parts -/

/-- Both channels of all frames within `M`. -/
def FramesWithin (M : K) (fs : List (K × K)) : Prop := ∀ f ∈ fs, |f.1| ≤ M ∧ |f.2| ≤ M

/-- Controls that keep the effects in their range. -/
structure Calm (φ : K) (control : MidiControl K) : Prop where
  damped : PsramDelay.Damped φ control
  size_nonneg : 0 ≤ control.get_cont slot.REVERB_SIZE
  size_le : control.get_cont slot.REVERB_SIZE ≤ 1
  damping_nonneg : 0 ≤ control.get_cont slot.REVERB_DAMPING
  damping_le : control.get_cont slot.REVERB_DAMPING ≤ 1
  mix_nonneg : 0 ≤ control.get_cont slot.REVERB_MIX
  mix_le : control.get_cont slot.REVERB_MIX ≤ 1

/-- What the effects keep: echoes and a reverb within `M`. -/
structure Held (M : K) (effects : Effects K) : Prop where
  delay_l : effects.delay_l.Below M
  delay_r : effects.delay_r.Below M
  reverb : (Reverb.bound 1640).within M effects.reverb.channels
  room_size : effects.reverb.room_size = .live slot.REVERB_SIZE
  damping : effects.reverb.damping = .live slot.REVERB_DAMPING

variable {M B φ wet_gain : K} {control : MidiControl K} {self : Effects K} {fs : List (K × K)}

omit [FloorRing K] in
/-- A mixer mixes, whatever its gain in the unit interval. -/
theorem mixer_within (h₀ : 0 ≤ wet_gain) (h₁ : wet_gain ≤ 1) {dry wet : List (K × K)}
    (hdry : FramesWithin M dry) (hwet : FramesWithin M wet) :
    FramesWithin M (mixer wet_gain dry wet) := by
  have hone : (1.0 : K) = 1 := by norm_num
  intro f hf
  unfold mixer at hf
  rw [hone] at hf
  obtain ⟨⟨d, w⟩, hmem, rfl⟩ := List.mem_map.mp hf
  obtain ⟨hd, hw⟩ := List.of_mem_zip hmem
  exact ⟨abs_between_le h₀ h₁ (hdry d hd).1 (hwet w hw).1,
    abs_between_le h₀ h₁ (hdry d hd).2 (hwet w hw).2⟩

/-- The delays, or none: nothing panics, and the echoes stay below their sum. -/
theorem delay_bypass_within (hcontrol : Calm φ control) (hfs : FramesWithin B fs)
    (hM : B + φ * M ≤ M) (hBM : B ≤ M) (h : self.Held M) :
    ∃ out self', delay_bypass control fs self = some (out, self') ∧ FramesWithin M out
      ∧ self'.Held M := by
  have hfs' : FramesWithin M fs := fun f hf => ⟨(hfs f hf).1.trans hBM, (hfs f hf).2.trans hBM⟩
  unfold delay_bypass
  split
  · have hfst : ∀ x ∈ fs.map Prod.fst, |x| ≤ B := by
      intro x hx
      obtain ⟨f, hf, rfl⟩ := List.mem_map.mp hx
      exact (hfs f hf).1
    have hsnd : ∀ x ∈ fs.map Prod.snd, |x| ≤ B := by
      intro x hx
      obtain ⟨f, hf, rfl⟩ := List.mem_map.mp hx
      exact (hfs f hf).2
    obtain ⟨left, delay_l, hrun_l, hleft, hdelay_l⟩ :=
      PsramDelay.process_below hcontrol.damped hfst hM hBM h.delay_l
    obtain ⟨right, delay_r, hrun_r, hright, hdelay_r⟩ :=
      PsramDelay.process_below hcontrol.damped hsnd hM hBM h.delay_r
    simp only [hrun_l, hrun_r, Option.bind_eq_bind, Option.bind_some]
    refine ⟨_, _, rfl, mixer_within (by norm_num) (by norm_num) hfs' fun f hf => ?_,
      hdelay_l, hdelay_r, h.reverb, h.room_size, h.damping⟩
    obtain ⟨hl, hr⟩ := List.of_mem_zip hf
    exact ⟨hleft f.1 hl, hright f.2 hr⟩
  · exact ⟨fs, self, rfl, hfs', h⟩

/-- The reverb, or none. -/
theorem reverb_bypass_within (hcontrol : Calm φ control) (hM : 0 ≤ M) (hfs : FramesWithin M fs)
    (h : self.Held M) :
    FramesWithin (96 * M) (reverb_bypass control fs self).1
      ∧ (reverb_bypass control fs self).2.Held M := by
  have hlarge : M ≤ 96 * M := by linarith
  have hfs' : FramesWithin (96 * M) fs :=
    fun f hf => ⟨(hfs f hf).1.trans hlarge, (hfs f hf).2.trans hlarge⟩
  have hgentle : self.reverb.Gentle control := by
    unfold Reverb.Gentle
    rw [h.room_size, h.damping]
    exact ⟨hcontrol.size_nonneg, hcontrol.size_le, hcontrol.damping_nonneg, hcontrol.damping_le⟩
  obtain ⟨hwet, hnext, hroom, hdamping⟩ := Reverb.process_within hM hgentle hfs h.reverb
  unfold reverb_bypass
  split
  · exact ⟨mixer_within hcontrol.mix_nonneg hcontrol.mix_le hfs' hwet, h.delay_l, h.delay_r, hnext,
      hroom.trans h.room_size, hdamping.trans h.damping⟩
  · exact ⟨hfs', h⟩

omit [FloorRing K] in
/-- The widener adds a half at most, and the gain takes away one. -/
theorem gain_widener_within (hfs : FramesWithin M fs) :
    FramesWithin (0.75 * M) ((fs.map (widener 1.5)).map (gain 0.5)) := by
  intro f hf
  obtain ⟨g, hg, rfl⟩ := List.mem_map.mp hf
  obtain ⟨e, he, rfl⟩ := List.mem_map.mp hg
  obtain ⟨hl, hr⟩ := hfs e he
  obtain ⟨hl₀, hl₁⟩ := abs_le.mp hl
  obtain ⟨hr₀, hr₁⟩ := abs_le.mp hr
  unfold gain widener
  dsimp only
  constructor
  · rw [abs_le]
    constructor
    · linarith
    · linarith
  · rw [abs_le]
    constructor
    · linarith
    · linarith

/-! ## The chain -/

/-- **A block.** -/
theorem process_within (hcontrol : Calm φ control) {voice : List K} (hvoice : ∀ x ∈ voice, |x| ≤ B)
    (hM : B + φ * M ≤ M) (hBM : B ≤ M) (hM₀ : 0 ≤ M) (h : self.Held M) :
    ∃ out self', process control voice self = some (out, self') ∧ FramesWithin (72 * M) out
      ∧ self'.Held M := by
  have hfs : FramesWithin B (voice.map fun x => (x, x)) := by
    intro f hf
    obtain ⟨x, hx, rfl⟩ := List.mem_map.mp hf
    exact ⟨hvoice x hx, hvoice x hx⟩
  obtain ⟨echoed, self₁, hrun, hechoed, hheld⟩ := delay_bypass_within hcontrol hfs hM hBM h
  obtain ⟨hwet, hheld'⟩ := reverb_bypass_within hcontrol hM₀ hechoed hheld
  have hlast := gain_widener_within hwet
  have hscale : 0.75 * (96 * M) = 72 * M := by
    norm_num
    ring
  rw [hscale] at hlast
  refine ⟨_, _, ?_, hlast, hheld'⟩
  unfold process
  simp only [hrun, Option.bind_eq_bind, Option.bind_some]
  rfl

/-- **A stream**, from effects that are within `M`. -/
theorem stream_within {bs : List (MidiControl K × List K)}
    (hbs : ∀ b ∈ bs, Calm φ b.1 ∧ ∀ x ∈ b.2, |x| ≤ B) (hM : B + φ * M ≤ M) (hBM : B ≤ M)
    (hM₀ : 0 ≤ M) (h : self.Held M) :
    ∃ outs self', stream bs self = some (outs, self') ∧ ∀ out ∈ outs, FramesWithin (72 * M) out := by
  induction bs generalizing self with
  | nil => exact ⟨[], self, rfl, fun out hout => absurd hout List.not_mem_nil⟩
  | cons b bs ih =>
      rw [List.forall_mem_cons] at hbs
      obtain ⟨out, self₁, hrun, hout, hheld⟩ := process_within hbs.1.1 hbs.1.2 hM hBM hM₀ h
      obtain ⟨outs, self₂, hrun', houts⟩ := ih hbs.2 hheld
      refine ⟨out :: outs, self₂, ?_, List.forall_mem_cons.mpr ⟨hout, houts⟩⟩
      rw [stream, hrun]
      simp only [Option.bind_eq_bind, Option.bind_some, hrun']
      rfl

/-- New effects are silent. -/
theorem new_held (delay_enabled reverb_enabled : Bool) (hM : 0 ≤ M) :
    (new delay_enabled reverb_enabled).Held M :=
  ⟨PsramDelay.make_delay_below _ hM, PsramDelay.make_delay_below _ hM,
    Reverb.new_within (.live slot.REVERB_SIZE) (.live slot.REVERB_DAMPING) 0 hM, rfl, rfl⟩

/-- **The effects never run away.** With either, both or none of them switched on, and with
delay times, mixes, size and damping that move from block to block: as long as the feedback
keeps below one, nothing panics and no frame leaves the chain louder than 72 times what the
echoes of the voice can add up to. -/
theorem effects_never_run_away (delay_enabled reverb_enabled : Bool) (hφ₀ : 0 ≤ φ) (hφ : φ < 1)
    (hB : 0 ≤ B) {bs : List (MidiControl K × List K)}
    (hbs : ∀ b ∈ bs, Calm φ b.1 ∧ ∀ x ∈ b.2, |x| ≤ B) :
    ∃ outs self', stream bs (new delay_enabled reverb_enabled) = some (outs, self')
      ∧ ∀ out ∈ outs, ∀ f ∈ out, |f.1| ≤ 72 * (B / (1 - φ)) ∧ |f.2| ≤ 72 * (B / (1 - φ)) := by
  obtain ⟨hsum, hle, hnonneg⟩ := PsramDelay.series_le hφ₀ hφ hB
  exact stream_within hbs hsum hle hnonneg (new_held delay_enabled reverb_enabled hnonneg)

/-- Two blocks with both effects on, all controls half way up and then a quarter. -/
theorem effects_never_run_away_two : ∃ outs self',
    stream [(⟨fun _ => 1 / 2, true, false⟩, [1, -1]), (⟨fun _ => 1 / 4, true, false⟩, [1])]
        (new true true) = some (outs, self')
      ∧ ∀ out ∈ outs, ∀ f ∈ out, |f.1| ≤ 72 * ((1 : ℚ) / (1 - 1 / 2))
        ∧ |f.2| ≤ 72 * ((1 : ℚ) / (1 - 1 / 2)) := by
  have hcalm : ∀ v : ℚ, 0 ≤ v → v ≤ 1 / 2 → Calm (1 / 2) ⟨fun _ => v, true, false⟩ := by
    intro v hv hv'
    have hone : v ≤ 1 := hv'.trans (by norm_num)
    exact ⟨⟨hv, hv', hv, hone⟩, hv, hone, hv, hone, hv, hone⟩
  refine effects_never_run_away true true (by norm_num) (by norm_num) (by norm_num) ?_
  simp only [List.mem_cons, List.not_mem_nil, or_false, forall_eq_or_imp, forall_eq]
  refine ⟨⟨hcalm _ (by norm_num) (by norm_num), ?_, ?_⟩, hcalm _ (by norm_num) (by norm_num), ?_⟩
  all_goals norm_num

end Effects

end PicoDsp
